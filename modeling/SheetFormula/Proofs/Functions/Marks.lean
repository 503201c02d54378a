/-
  SheetFormula.Proofs.Functions.Marks

  How names come by the mark of the library's functions, which keeps them from
  being removed.  A name that has the mark never loses it; a name that does not
  have it gets it in one way only, when a function that carries the mark is
  added where no function is (`hasMark_after_iff`).  Main statement: whether a
  history has such a change decides, for each name that the first table lacks,
  whether the name can be removed (`markBrought_decides`).  So a copy of a
  library function under another name stays for good, although the library did
  not have this name (`exists_marked_copy`); a second name never does, since
  `addAlias` takes the mark away.
-/
import SheetFormula.Proofs.Functions.Permanence

namespace SheetFormula

variable {σ : Type}

namespace Change

/-- The change adds a function that carries the mark under the name, in any letter case, and there
    is no function under it yet. -/
def BringsMark (t : FunctionTable σ) (name : String) : Change σ → Prop
  | add f =>
    f.builtin = true ∧ (add f).IsAbout name ∧ Text.isAllBlank f.name.toList = false ∧
      t.contains name = false
  | addAlias _ _ => False
  | remove _ => False

instance (t : FunctionTable σ) (name : String) : (c : Change σ) → Decidable (c.BringsMark t name)
  | add _ => inferInstanceAs (Decidable (_ ∧ _ ∧ _ ∧ _))
  | addAlias _ _ => inferInstanceAs (Decidable False)
  | remove _ => inferInstanceAs (Decidable False)

/-- A marked entry takes its mark from the entry before it, and where there was none, from the
    function that is added. -/
theorem mark_of_entry {t : FunctionTable σ} {c : Change σ} {g : SheetFunction σ}
    (hg : c.entry t = some g) (hmark : g.builtin = true) :
    t.HasMark c.subject ∨
      t.find? c.subject = none ∧ ∃ f, c = add f ∧ f.builtin = true := by
  cases c with
  | add f =>
      cases hg
      cases hold : t.find? f.name with
      | some old => exact .inl ⟨old, hold, by simpa [hold] using hmark⟩
      | none => exact .inr ⟨hold, f, rfl, by simpa [hold] using hmark⟩
  | addAlias name target =>
      obtain ⟨f, _, rfl⟩ := Option.map_eq_some_iff.mp hg
      cases hold : t.find? name with
      | some old => exact .inl ⟨old, hold, by simpa [hold] using hmark⟩
      | none =>
          -- Where nothing was, a second name has no mark.
          simp [hold] at hmark
  | remove name => cases hg

end Change

namespace FunctionTable

/-! ## One change -/

theorem hasMark_of_bringsMark {t : FunctionTable σ} {c : Change σ} {name : String}
    (h : c.BringsMark t name) : (t.after c).HasMark name := by
  cases c with
  | add f =>
      obtain ⟨hmark, habout, hblank, hnew⟩ := h
      have hnone : t.find? f.name = none :=
        (habout.find?_subject t).trans (contains_eq_false_iff.mp hnew)
      cases hadd : t.add f with
      | error e =>
          rw [(Change.add_eq_error_iff.mp hadd).1] at hblank
          cases hblank
      | ok t' =>
          have happly : (Change.add f).apply t = .ok t' := hadd
          rw [after_of_ok happly, HasMark, Change.find?_of_apply happly, if_pos habout]
          exact ⟨_, rfl, by simp [hnone, hmark]⟩
  | addAlias name target => cases h
  | remove name => cases h

/-- A name that has the mark after a change had it before, or the change brought it there. -/
theorem hasMark_or_bringsMark {t t' : FunctionTable σ} {c : Change σ} {name : String}
    (happly : c.apply t = .ok t') (h : t'.HasMark name) :
    t.HasMark name ∨ c.BringsMark t name := by
  obtain ⟨g, hg, hmark⟩ := h
  rw [Change.find?_of_apply happly] at hg
  split at hg
  · next habout =>
    obtain ⟨old, hold, holdMark⟩ | ⟨hnone, f, rfl, hf⟩ := Change.mark_of_entry hg hmark
    · exact .inl ⟨old, (habout.find?_subject t).symm.trans hold, holdMark⟩
    · have hblank : Text.isAllBlank f.name.toList = false := by
        cases hb : Text.isAllBlank f.name.toList with
        | false => rfl
        | true =>
            rw [Change.apply_eq_error_iff.mpr (.blankName hb)] at happly
            cases happly
      have hnew : t.contains name = false :=
        contains_eq_false_iff.mpr ((habout.find?_subject t).symm.trans hnone)
      exact .inr ⟨hf, habout, hblank, hnew⟩
  · exact .inl ⟨g, hg, hmark⟩

/-- After a change, refused or not, a name has the mark if it had it before or the change brings it
    there. -/
theorem hasMark_after_iff {t : FunctionTable σ} {c : Change σ} {name : String} :
    (t.after c).HasMark name ↔ t.HasMark name ∨ c.BringsMark t name := by
  constructor
  · intro h
    cases happly : c.apply t with
    | error e => exact .inl (after_of_error happly ▸ h)
    | ok t' => exact hasMark_or_bringsMark happly (after_of_ok happly ▸ h)
  · rintro (hold | hbrings)
    · cases happly : c.apply t with
      | error e => exact (after_of_error happly).symm ▸ hold
      | ok t' => exact after_of_ok happly ▸ hold.apply happly
    · exact hasMark_of_bringsMark hbrings

/-! ## Histories -/

/-- Some change of the history brings the mark to the name, in the table that it changes. -/
def MarkBrought (t : FunctionTable σ) (name : String) : List (Change σ) → Prop
  | [] => False
  | c :: cs => c.BringsMark t name ∨ (t.after c).MarkBrought name cs

instance decidableMarkBrought (name : String) :
    (t : FunctionTable σ) → (cs : List (Change σ)) → Decidable (t.MarkBrought name cs)
  | _, [] => inferInstanceAs (Decidable False)
  | t, c :: cs =>
    have := decidableMarkBrought name (t.after c) cs
    inferInstanceAs (Decidable (_ ∨ _))

theorem hasMark_afterAll_iff {t : FunctionTable σ} {cs : List (Change σ)} {name : String} :
    (t.afterAll cs).HasMark name ↔ t.HasMark name ∨ t.MarkBrought name cs := by
  induction cs generalizing t with
  | nil => simp [MarkBrought]
  | cons c cs ih => rw [afterAll_cons, ih, hasMark_after_iff, or_assoc, MarkBrought]

theorem HasMark.afterAll {t : FunctionTable σ} {name : String} (h : t.HasMark name)
    (cs : List (Change σ)) : (t.afterAll cs).HasMark name :=
  hasMark_afterAll_iff.mpr (.inl h)

/-- Functions with the mark that are only added in place of the first table's bring it to no name
    that the first table lacks. -/
theorem not_markBrought {first : FunctionTable σ} {name : String} (hnew : first.contains name = false)
    {cs : List (Change σ)}
    (hcs : ∀ g, Change.add g ∈ cs → g.builtin = true → first.contains g.name = true)
    (t : FunctionTable σ) : ¬ t.MarkBrought name cs := by
  induction cs generalizing t with
  | nil => exact id
  | cons c cs ih =>
      rintro (hbrings | hlater)
      · cases c with
        | add g =>
            obtain ⟨hmark, habout, -⟩ := hbrings
            have hcontains := hcs g List.mem_cons_self hmark
            have hlower : Text.lower g.name = Text.lower name := habout
            rw [contains, hlower, ← contains, hnew] at hcontains
            cases hcontains
        | addAlias new target => cases hbrings
        | remove old => cases hbrings
      · exact ih (fun g hg => hcs g (List.mem_cons_of_mem c hg)) _ hlater

/-! ## Removal -/

/-- A function without a mark is removed, and no other. -/
theorem exists_remove_of_unmarked {t : FunctionTable σ} {name : String} {f : SheetFunction σ}
    (hf : t.find? name = some f) (hmark : f.builtin = false) :
    ∃ t', t.remove name = .ok (true, t') ∧ t'.find? name = none ∧
      ∀ other, Text.lower name ≠ Text.lower other → t'.find? other = t.find? other := by
  have hremove : t.remove name = .ok (true, ⟨t.entries.erase (Text.lower name)⟩) := by
    have hentry : t.entries[Text.lower name]? = some f := hf
    unfold remove
    simp only
    split
    · next hnone => rw [hentry] at hnone; cases hnone
    · next g hg =>
      rw [hentry] at hg
      cases hg
      rw [if_neg (by simp [hmark])]
  refine ⟨_, hremove, ?_, fun other hother => ?_⟩
  · rw [find?_of_remove hremove, if_pos rfl]
  · rw [find?_of_remove hremove, if_neg hother]

/-- After any history a function under a name that the first table lacks has no mark and can be
    removed, unless the history has brought the mark to this name; then no further history lets it
    be removed.  It has not if functions with the mark were only added in place of the first ones. -/
theorem markBrought_decides {first : FunctionTable σ} {cs : List (Change σ)} {name : String}
    (hnew : first.contains name = false) {f : SheetFunction σ}
    (hf : (first.afterAll cs).find? name = some f) :
    (¬ first.MarkBrought name cs →
      f.builtin = false ∧
        ∃ t, (first.afterAll cs).remove name = .ok (true, t) ∧ t.find? name = none ∧
          ∀ other, Text.lower name ≠ Text.lower other →
            t.find? other = (first.afterAll cs).find? other) ∧
    (first.MarkBrought name cs →
      f.builtin = true ∧
        ∀ later, ((first.afterAll cs).afterAll later).remove name =
          .error (.builtinFunction (Text.lower name))) ∧
    ((∀ g, .add g ∈ cs → g.builtin = true → first.contains g.name = true) →
      ¬ first.MarkBrought name cs) := by
  have hfirst : ¬ first.HasMark name := by
    rintro ⟨g, hg, -⟩
    rw [contains_eq_false_iff.mp hnew] at hg
    cases hg
  have hmark : (first.afterAll cs).HasMark name ↔ first.MarkBrought name cs :=
    hasMark_afterAll_iff.trans (or_iff_right hfirst)
  refine ⟨?_, ?_, fun hcs => not_markBrought hnew hcs first⟩
  · intro hnot
    have hunmarked : f.builtin = false :=
      Bool.eq_false_iff.mpr fun hb => hnot (hmark.mp ⟨f, hf, hb⟩)
    exact ⟨hunmarked, exists_remove_of_unmarked hf hunmarked⟩
  · intro hbrought
    obtain ⟨g, hg, hgmark⟩ := hmark.mpr hbrought
    have hfmark : f.builtin = true := Option.some.inj (hf.symm.trans hg) ▸ hgmark
    refine ⟨hfmark, fun later => ?_⟩
    obtain ⟨g', hg', hg'mark⟩ := HasMark.afterAll ⟨f, hf, hfmark⟩ later
    exact (remove_of_marked hg' hg'mark).1

/-- A copy of addition is added as the total, the total gets a second name, becomes one itself and
    is to be removed. -/
def additionCopied : List (Change Unit) :=
  (operators.find? "__add").toList.map (fun f => .add { f with name := "Total" }) ++
    [.addAlias "entire" "total", .addAlias "TOTAL" "__sub", .remove "total"]

theorem markBrought_decides_total :
    ((operators : FunctionTable Unit).contains "total" = false ∧
      operators.MarkBrought "total" additionCopied ∧
      ∃ f, (operators.afterAll additionCopied).find? "total" = some f ∧ f.builtin = true ∧
        ∀ later, ((operators.afterAll additionCopied).afterAll later).remove "total" =
          .error (.builtinFunction (Text.lower "total"))) ∧
    ((operators : FunctionTable Unit).contains "entire" = false ∧
      ¬ operators.MarkBrought "entire" additionCopied ∧
      ∃ f, (operators.afterAll additionCopied).find? "entire" = some f ∧ f.builtin = false ∧
        ∃ t, (operators.afterAll additionCopied).remove "entire" = .ok (true, t) ∧
          t.find? "entire" = none ∧
          ∀ other, Text.lower "entire" ≠ Text.lower other →
            t.find? other = (operators.afterAll additionCopied).find? other) := by
  have htotal : (operators : FunctionTable Unit).contains "total" = false := by decide +kernel
  have hentire : (operators : FunctionTable Unit).contains "entire" = false := by decide +kernel
  have hbrought : operators.MarkBrought "total" additionCopied := by decide +kernel
  have hnot : ¬ operators.MarkBrought "entire" additionCopied := by decide +kernel
  have htotalFound : (operators.afterAll additionCopied).contains "total" = true := by
    decide +kernel
  have hentireFound : (operators.afterAll additionCopied).contains "entire" = true := by
    decide +kernel
  obtain ⟨f, hf⟩ := contains_eq_true_iff.mp htotalFound
  obtain ⟨g, hg⟩ := contains_eq_true_iff.mp hentireFound
  exact ⟨⟨htotal, hbrought, f, hf, (markBrought_decides htotal hf).2.1 hbrought⟩,
    hentire, hnot, g, hg, (markBrought_decides hentire hg).1 hnot⟩

/-- A copy of the sum that is added as `total`, which no function of the library is called, is
    marked as the library's, and removing it is refused. -/
theorem exists_marked_copy :
    (standard : FunctionTable Unit).contains "total" = false ∧
      ∃ f t, (standard : FunctionTable Unit).find? "sum" = some f ∧
        (standard : FunctionTable Unit).add { f with name := "total" } = .ok t ∧
        t.describe? "total" = some ⟨"total", 0, none, true⟩ ∧
        t.remove "total" = .error (.builtinFunction "total") := by
  have hnew : (standard : FunctionTable Unit).contains "total" = false := by decide +kernel
  have hsum : (standard : FunctionTable Unit).describe? "sum" = some ⟨"sum", 0, none, true⟩ := by
    decide +kernel
  have hlower : Text.lower "total" = "total" := by decide +kernel
  obtain ⟨f, hf, hinfo⟩ := Option.map_eq_some_iff.mp hsum
  simp only [SheetFunction.info, FunctionInfo.mk.injEq] at hinfo
  obtain ⟨-, hmin, hmax, hmark⟩ := hinfo
  cases hadd : (standard : FunctionTable Unit).add { f with name := "total" } with
  | error e =>
      have hblank : Text.isAllBlank "total".toList = true := (Change.add_eq_error_iff.mp hadd).1
      exact absurd hblank (by decide)
  | ok t =>
      have htotal := find?_of_add hadd "total"
      rw [if_pos rfl, contains_eq_false_iff.mp hnew, hlower] at htotal
      refine ⟨hnew, f, t, hf, hadd, ?_, ?_⟩
      · rw [describe?, htotal]
        simp [SheetFunction.info, hmin, hmax, hmark]
      · rw [← hlower]
        exact Change.remove_eq_error_iff.mpr ⟨_, htotal, hmark, rfl⟩

end FunctionTable

end SheetFormula
