/-
  SheetFormula.Proofs.Functions.History

  Histories of a function table: adding, naming again and removing functions,
  one change after the other, where a change that is refused leaves the table as
  it was.  Main statements: which changes are refused and why
  (`Change.apply_eq_error_iff`), and that a change writes the entry of one name
  and no other (`Change.find?_of_apply`).  But for second names, what it writes
  depends on this entry alone, so tables that have the same function under a
  name keep it the same (`find?_afterAll_congr`).
-/
import SheetFormula.FunctionTable

namespace SheetFormula

variable {σ : Type}

/-- A change of a function table. -/
inductive Change (σ : Type) where
  | add (f : SheetFunction σ)
  | addAlias (name target : String)
  | remove (name : String)

namespace Change

/-- The name whose entry the change is about. -/
def subject : Change σ → String
  | add f => f.name
  | addAlias name _ => name
  | remove name => name

/-- The name of the function that the change gives a second name, if it does. -/
def target? : Change σ → Option String
  | addAlias _ target => some target
  | add _ | remove _ => none

/-- Whether the change is about the entry of a name, in any letter case. -/
def IsAbout (c : Change σ) (name : String) : Prop := Text.lower c.subject = Text.lower name

instance (c : Change σ) (name : String) : Decidable (c.IsAbout name) :=
  inferInstanceAs (Decidable (Text.lower c.subject = Text.lower name))

theorem IsAbout.find?_subject {c : Change σ} {name : String} (h : c.IsAbout name)
    (t : FunctionTable σ) : t.find? c.subject = t.find? name := by
  rw [FunctionTable.find?, FunctionTable.find?, h]

/-- The changed table, or why the change is refused. -/
def apply (t : FunctionTable σ) : Change σ → Except Error (FunctionTable σ)
  | add f => t.add f
  | addAlias name target => t.addAlias name target
  | remove name => (t.remove name).map Prod.snd

/-! ## Refusals -/

/-- What is wrong with a change of a table. -/
inductive Refuses (t : FunctionTable σ) : Change σ → Error → Prop where
  | blankName {f : SheetFunction σ} : Text.isAllBlank f.name.toList = true →
      Refuses t (add f) .blankFunctionName
  | missingTarget {name target : String} : t.find? target = none →
      Refuses t (addAlias name target) .notAFunction
  /-- The target comes first: a blank name is no fault of its own where there is no target. -/
  | blankAlias {name target : String} {f : SheetFunction σ} : t.find? target = some f →
      Text.isAllBlank name.toList = true → Refuses t (addAlias name target) .blankFunctionName
  | builtin {name : String} {f : SheetFunction σ} : t.find? name = some f → f.builtin = true →
      Refuses t (remove name) (.builtinFunction (Text.lower name))

theorem add_eq_error_iff {t : FunctionTable σ} {f : SheetFunction σ} {e : Error} :
    t.add f = .error e ↔ Text.isAllBlank f.name.toList = true ∧ e = .blankFunctionName := by
  unfold FunctionTable.add
  split
  · next h => simp [h, eq_comm]
  · next h => simp [h]

theorem remove_eq_error_iff {t : FunctionTable σ} {name : String} {e : Error} :
    t.remove name = .error e ↔
      ∃ f, t.find? name = some f ∧ f.builtin = true ∧ e = .builtinFunction (Text.lower name) := by
  unfold FunctionTable.remove
  simp only
  split
  · next hnone => simp [FunctionTable.find?, hnone]
  · next f hsome =>
    have hfind : t.find? name = some f := hsome
    rw [hfind]
    cases hf : f.builtin with
    | true => simp [hf, eq_comm (a := e)]
    | false => simp [hf]

/-- A change is refused exactly for what is wrong with it. -/
theorem apply_eq_error_iff {t : FunctionTable σ} {c : Change σ} {e : Error} :
    c.apply t = .error e ↔ Refuses t c e := by
  constructor
  · intro h
    cases c with
    | add f =>
        obtain ⟨hblank, rfl⟩ := add_eq_error_iff.mp h
        exact .blankName hblank
    | addAlias name target =>
        rw [apply, FunctionTable.addAlias] at h
        cases htarget : t.find? target with
        | none =>
            rw [htarget] at h
            cases h
            exact .missingTarget htarget
        | some f =>
            rw [htarget] at h
            obtain ⟨hblank, rfl⟩ := add_eq_error_iff.mp h
            exact .blankAlias htarget hblank
    | remove name =>
        have hremove : t.remove name = .error e := by
          rw [apply] at h
          cases hr : t.remove name with
          | error e' => rw [hr] at h; cases h; rfl
          | ok r => rw [hr] at h; cases h
        obtain ⟨f, hf, hbuiltin, rfl⟩ := remove_eq_error_iff.mp hremove
        exact .builtin hf hbuiltin
  · intro h
    cases h with
    | blankName hblank => exact add_eq_error_iff.mpr ⟨hblank, rfl⟩
    | missingTarget htarget => rw [apply, FunctionTable.addAlias, htarget]
    | blankAlias htarget hblank =>
        rw [apply, FunctionTable.addAlias, htarget]
        exact add_eq_error_iff.mpr ⟨hblank, rfl⟩
    | builtin hf hbuiltin =>
        rw [apply, remove_eq_error_iff.mpr ⟨_, hf, hbuiltin, rfl⟩]
        rfl

/-! ## Effects -/

/-- The entry that a change leaves for its name, given the table that it changes. -/
def entry (t : FunctionTable σ) : Change σ → Option (SheetFunction σ)
  | add f =>
    some { f with
      name := Text.lower f.name
      builtin := ((t.find? f.name).map (·.builtin)).getD f.builtin }
  | addAlias name target =>
    (t.find? target).map fun f =>
      { f with
        name := Text.lower name
        builtin := ((t.find? name).map (·.builtin)).getD false }
  | remove _ => none

/-- A change writes the entry of its name and leaves all others. -/
theorem find?_of_apply {t t' : FunctionTable σ} {c : Change σ} (h : c.apply t = .ok t')
    (name : String) :
    t'.find? name = if c.IsAbout name then c.entry t else t.find? name := by
  cases c with
  | add f => exact FunctionTable.find?_of_add h name
  | addAlias new target =>
      rw [apply, FunctionTable.addAlias] at h
      cases htarget : t.find? target with
      | none => rw [htarget] at h; cases h
      | some f =>
          rw [htarget] at h
          have hfind := FunctionTable.find?_of_add h name
          rw [hfind, entry, htarget]
          rfl
  | remove old =>
      rw [apply] at h
      cases hremove : t.remove old with
      | error e => rw [hremove] at h; cases h
      | ok r =>
          rw [hremove] at h
          cases h
          exact FunctionTable.find?_of_remove hremove name

end Change

/-! ## Histories -/

namespace FunctionTable

/-- The table after a change was tried. -/
def after (t : FunctionTable σ) (c : Change σ) : FunctionTable σ :=
  match c.apply t with
  | .ok t' => t'
  | .error _ => t

/-- The table after changes were tried one after the other. -/
def afterAll (t : FunctionTable σ) (cs : List (Change σ)) : FunctionTable σ := cs.foldl after t

@[simp] theorem afterAll_nil (t : FunctionTable σ) : t.afterAll [] = t := rfl

@[simp] theorem afterAll_cons (t : FunctionTable σ) (c : Change σ) (cs : List (Change σ)) :
    t.afterAll (c :: cs) = (t.after c).afterAll cs := rfl

theorem after_of_ok {t t' : FunctionTable σ} {c : Change σ} (h : c.apply t = .ok t') :
    t.after c = t' := by
  rw [after, h]

theorem after_of_error {t : FunctionTable σ} {c : Change σ} {e : Error}
    (h : c.apply t = .error e) : t.after c = t := by
  rw [after, h]

/-- What every change of a history keeps holds after the history. -/
theorem afterAll_induction {p : FunctionTable σ → Prop} {cs : List (Change σ)}
    (hstep : ∀ c ∈ cs, ∀ t t', p t → c.apply t = .ok t' → p t') {t : FunctionTable σ} (h : p t) :
    p (t.afterAll cs) := by
  induction cs generalizing t with
  | nil => exact h
  | cons c cs ih =>
      refine ih (fun d hd => hstep d (List.mem_cons_of_mem c hd)) ?_
      cases happly : c.apply t with
      | ok t' => exact after_of_ok happly ▸ hstep c List.mem_cons_self t t' h happly
      | error e => exact (after_of_error happly).symm ▸ h

/-- A change is felt under its own name only. -/
theorem find?_after_of_not_isAbout (t : FunctionTable σ) {c : Change σ} {name : String}
    (h : ¬ c.IsAbout name) : (t.after c).find? name = t.find? name := by
  cases happly : c.apply t with
  | error e => rw [after_of_error happly]
  | ok t' => rw [after_of_ok happly, Change.find?_of_apply happly, if_neg h]

theorem find?_afterAll_of_not_isAbout (t : FunctionTable σ) {cs : List (Change σ)} {name : String}
    (h : ∀ c ∈ cs, ¬ c.IsAbout name) : (t.afterAll cs).find? name = t.find? name := by
  induction cs generalizing t with
  | nil => rfl
  | cons c cs ih =>
      obtain ⟨hc, hcs⟩ := List.forall_mem_cons.mp h
      rw [afterAll_cons, ih _ hcs, find?_after_of_not_isAbout t hc]

end FunctionTable

/-! ## Histories of two tables -/

section TwoTables

variable {t₁ t₂ : FunctionTable σ} {c : Change σ}

/-- Adding and removing look at nothing in a table but the entry that they write. -/
theorem Change.entry_congr (hc : c.target? = none) (h : t₁.find? c.subject = t₂.find? c.subject) :
    c.entry t₁ = c.entry t₂ := by
  cases c with
  | add f =>
      have hold : t₁.find? f.name = t₂.find? f.name := h
      rw [entry, entry, hold]
  | addAlias name target => cases hc
  | remove name => rfl

theorem Change.refuses_of_refuses (hc : c.target? = none)
    (h : t₁.find? c.subject = t₂.find? c.subject) {e : Error} (hrefuses : Refuses t₁ c e) :
    Refuses t₂ c e := by
  cases hrefuses with
  | blankName hblank => exact .blankName hblank
  | missingTarget _ => cases hc
  | blankAlias _ _ => cases hc
  | builtin hf hmark => exact .builtin (h.symm.trans hf) hmark

namespace FunctionTable

theorem find?_after_congr {name : String} (hc : c.IsAbout name → c.target? = none)
    (h : t₁.find? name = t₂.find? name) : (t₁.after c).find? name = (t₂.after c).find? name := by
  by_cases habout : c.IsAbout name
  · have hsubject : t₁.find? c.subject = t₂.find? c.subject := by
      rw [habout.find?_subject, habout.find?_subject, h]
    cases h₁ : c.apply t₁ with
    | error e =>
        have hrefuses := Change.refuses_of_refuses (hc habout) hsubject
          (Change.apply_eq_error_iff.mp h₁)
        rw [after_of_error h₁, after_of_error (Change.apply_eq_error_iff.mpr hrefuses), h]
    | ok t₁' =>
        cases h₂ : c.apply t₂ with
        | error e =>
            have hrefuses := Change.refuses_of_refuses (hc habout) hsubject.symm
              (Change.apply_eq_error_iff.mp h₂)
            rw [Change.apply_eq_error_iff.mpr hrefuses] at h₁
            cases h₁
        | ok t₂' =>
            rw [after_of_ok h₁, after_of_ok h₂, Change.find?_of_apply h₁, Change.find?_of_apply h₂,
              if_pos habout, if_pos habout, Change.entry_congr (hc habout) hsubject]
  · rw [find?_after_of_not_isAbout t₁ habout, find?_after_of_not_isAbout t₂ habout, h]

/-- Two tables with the same function under a name go on having the same one, unless the name
    becomes a second name. -/
theorem find?_afterAll_congr {name : String} {cs : List (Change σ)}
    (hcs : ∀ c ∈ cs, c.IsAbout name → c.target? = none) (h : t₁.find? name = t₂.find? name) :
    (t₁.afterAll cs).find? name = (t₂.afterAll cs).find? name := by
  induction cs generalizing t₁ t₂ with
  | nil => exact h
  | cons c cs ih =>
      obtain ⟨hc, hrest⟩ := List.forall_mem_cons.mp hcs
      exact ih hrest (find?_after_congr hc h)

end FunctionTable

end TwoTables

end SheetFormula
