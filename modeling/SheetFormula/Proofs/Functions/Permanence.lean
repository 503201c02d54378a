/-
  SheetFormula.Proofs.Functions.Permanence

  The functions that a table begins with are there for good.  No change takes
  the mark from a name that has it, not even one that puts another function
  there, and a name with the mark cannot be removed.  Main statement: after any
  history the names of the first table are found and marked, and removing them
  is refused (`shipped_names_permanent`).
-/
import SheetFormula.Proofs.Functions.History
import SheetFormula.Proofs.Functions.Shipped

namespace SheetFormula

variable {σ : Type}

/-! ## One change -/

/-- Whatever a change puts in place of a marked function is marked. -/
theorem Change.exists_marked_entry {t t' : FunctionTable σ} {c : Change σ} {old : SheetFunction σ}
    (h : c.apply t = .ok t') (hold : t.find? c.subject = some old) (hmark : old.builtin = true) :
    ∃ g, c.entry t = some g ∧ g.builtin = true := by
  cases c with
  | add f =>
      have hf : t.find? f.name = some old := hold
      exact ⟨_, rfl, by simp [hf, hmark]⟩
  | addAlias name target =>
      have hname : t.find? name = some old := hold
      cases htarget : t.find? target with
      | none =>
          -- Without a target there is no second name.
          rw [Change.apply_eq_error_iff.mpr (.missingTarget htarget)] at h
          cases h
      | some f => exact ⟨_, by rw [entry, htarget]; rfl, by simp [hname, hmark]⟩
  | remove name =>
      have hname : t.find? name = some old := hold
      rw [Change.apply_eq_error_iff.mpr (.builtin hname hmark)] at h
      cases h

namespace FunctionTable

/-- The name finds a function with the mark. -/
def HasMark (t : FunctionTable σ) (name : String) : Prop :=
  ∃ f, t.find? name = some f ∧ f.builtin = true

theorem HasMark.apply {t t' : FunctionTable σ} {c : Change σ} {name : String} (h : t.HasMark name)
    (happly : c.apply t = .ok t') : t'.HasMark name := by
  obtain ⟨old, hold, hmark⟩ := h
  rw [HasMark, Change.find?_of_apply happly]
  split
  · next habout =>
    exact Change.exists_marked_entry happly ((habout.find?_subject t).trans hold) hmark
  · exact ⟨old, hold, hmark⟩

/-- All names of the first table are marked in the second. -/
def MarkedThroughout (first t : FunctionTable σ) : Prop :=
  ∀ name, first.contains name = true → t.HasMark name

theorem MarkedThroughout.apply {first t t' : FunctionTable σ} {c : Change σ}
    (h : first.MarkedThroughout t) (happly : c.apply t = .ok t') : first.MarkedThroughout t' :=
  fun name hname => (h name hname).apply happly

/-! ## Histories -/

theorem MarkedThroughout.afterAll {first t : FunctionTable σ} (h : first.MarkedThroughout t)
    (cs : List (Change σ)) : first.MarkedThroughout (t.afterAll cs) :=
  afterAll_induction (fun _ _ _ _ ht happly => ht.apply happly) h

theorem IsShipped.markedThroughout {t : FunctionTable σ} (h : t.IsShipped) :
    t.MarkedThroughout t := by
  intro name hname
  obtain ⟨f, hf⟩ := contains_eq_true_iff.mp hname
  exact ⟨f, hf, Library.builtin_of_mem (h.mem_of_find? hf).1⟩

/-- What is marked is not removed, and trying to leaves the table as it is. -/
theorem remove_of_marked {t : FunctionTable σ} {name : String} {f : SheetFunction σ}
    (hf : t.find? name = some f) (hmark : f.builtin = true) :
    t.remove name = .error (.builtinFunction (Text.lower name)) ∧ t.after (.remove name) = t :=
  ⟨Change.remove_eq_error_iff.mpr ⟨f, hf, hmark, rfl⟩,
    after_of_error (Change.apply_eq_error_iff.mpr (.builtin hf hmark))⟩

/-- After any history a name of the first table, in any letter case, is found and marked; it cannot
    be removed, and trying to changes nothing. -/
theorem shipped_names_permanent {first : FunctionTable σ} (hfirst : first.IsShipped)
    (cs : List (Change σ)) {key name : String} (hkey : key ∈ first.entries.keys)
    (hname : Text.lower name = Text.lower key) :
    Text.lower key = key ∧
      (∃ f, (first.afterAll cs).find? name = some f ∧ f.builtin = true) ∧
      (first.afterAll cs).remove name = .error (.builtinFunction key) ∧
      (first.afterAll cs).after (.remove name) = first.afterAll cs := by
  have hlower : Text.lower key = key := hfirst.lower_of_mem_keys hkey
  have hcontains : first.contains name = true := by
    rw [contains, hname, hlower, Std.TreeMap.contains_iff_mem]
    exact Std.TreeMap.mem_keys.mp hkey
  obtain ⟨f, hf, hmark⟩ := hfirst.markedThroughout.afterAll cs name hcontains
  have hremove := remove_of_marked hf hmark
  rw [hname, hlower] at hremove
  exact ⟨hlower, ⟨f, hf, hmark⟩, hremove⟩

/-- The sum is replaced, becomes the second name of another function, gets a second name itself and
    is to be removed, in several spellings. -/
def sumReplaced : List (Change Unit) :=
  [.add { name := "Sum", body := fun _ => pure .null }, .addAlias "SUM" "abs",
   .addAlias "total" "sUm", .remove "sum"]

theorem shipped_names_permanent_sum :
    IsShipped (standard : FunctionTable Unit) ∧
      "sum" ∈ (standard : FunctionTable Unit).entries.keys ∧
      Text.lower "SuM" = Text.lower "sum" ∧
      (Text.lower "sum" = "sum" ∧
        (∃ f, (standard.afterAll sumReplaced).find? "SuM" = some f ∧ f.builtin = true) ∧
        (standard.afterAll sumReplaced).remove "SuM" = .error (.builtinFunction "sum") ∧
        (standard.afterAll sumReplaced).after (.remove "SuM") = standard.afterAll sumReplaced) := by
  have hkey : "sum" ∈ (standard : FunctionTable Unit).entries.keys := by decide +kernel
  have hname : Text.lower "SuM" = Text.lower "sum" := by decide +kernel
  exact ⟨.standard, hkey, hname, shipped_names_permanent .standard sumReplaced hkey hname⟩

/-- In that history the replaced sum takes exactly one argument, as the absolute value does. -/
example : (standard.afterAll sumReplaced).describe? "sum" = some ⟨"sum", 1, some 1, true⟩ := by
  decide +kernel

end FunctionTable

end SheetFormula
