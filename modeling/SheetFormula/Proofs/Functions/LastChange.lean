/-
  SheetFormula.Proofs.Functions.LastChange

  The last change of a name decides what the name finds.  Among the changes of a
  history that are not refused, the last one about a name, in any letter case,
  has written the name's function; without one the function is still that of the
  first table (`lastChange_decides`).
-/
import SheetFormula.Proofs.Functions.History

namespace SheetFormula

variable {σ : Type}

/-- What a function does: the argument counts that it declares and its body. -/
structure Behaviour (σ : Type) where
  minArgs : Nat
  maxArgs : Option Nat
  body : List Value → Host σ Value

/-- What the function does; its name and its mark are left out. -/
def SheetFunction.behaviour (f : SheetFunction σ) : Behaviour σ := ⟨f.minArgs, f.maxArgs, f.body⟩

/-- What a change gives its name to do: an added function does what it does, a second name does
    what its target does in the table that is changed, and a removed name does nothing. -/
def Change.written (t : FunctionTable σ) : Change σ → Option (Behaviour σ)
  | add f => some f.behaviour
  | addAlias _ target => (t.find? target).map SheetFunction.behaviour
  | remove _ => none

theorem Change.behaviour_entry (t : FunctionTable σ) (c : Change σ) :
    (c.entry t).map SheetFunction.behaviour = c.written t := by
  cases c with
  | add f => rfl
  | addAlias name target =>
      rw [entry, written, Option.map_map]
      rfl
  | remove name => rfl

namespace FunctionTable

/-- The changes of a history that are not refused, each with the table that it changes. -/
def effective (t : FunctionTable σ) : List (Change σ) → List (FunctionTable σ × Change σ)
  | [] => []
  | c :: cs =>
    match c.apply t with
    | .ok t' => (t, c) :: effective t' cs
    | .error _ => effective t cs

/-- The last change about a name that is not refused, with the table that it changes. -/
def lastChange? (t : FunctionTable σ) (cs : List (Change σ)) (name : String) :
    Option (FunctionTable σ × Change σ) :=
  ((t.effective cs).filter fun p => decide (p.2.IsAbout name)).getLast?

theorem lastChange?_of_error {t : FunctionTable σ} {c : Change σ} {e : Error}
    (h : c.apply t = .error e) (cs : List (Change σ)) (name : String) :
    t.lastChange? (c :: cs) name = t.lastChange? cs name := by
  rw [lastChange?, effective, h, lastChange?]

theorem lastChange?_of_not_isAbout {t t' : FunctionTable σ} {c : Change σ}
    (h : c.apply t = .ok t') (cs : List (Change σ)) {name : String} (hname : ¬ c.IsAbout name) :
    t.lastChange? (c :: cs) name = t'.lastChange? cs name := by
  rw [lastChange?, effective, h, lastChange?]
  simp [hname]

/-- A change about the name is the last one unless a later one is. -/
theorem lastChange?_of_isAbout {t t' : FunctionTable σ} {c : Change σ}
    (h : c.apply t = .ok t') (cs : List (Change σ)) {name : String} (hname : c.IsAbout name) :
    t.lastChange? (c :: cs) name = some ((t'.lastChange? cs name).getD (t, c)) := by
  rw [lastChange?, effective, h, lastChange?]
  simp [hname, List.getLast?_cons]

/-- Changes that are about other names, or are refused, leave a name's function as it is. -/
theorem find?_afterAll_of_lastChange?_eq_none {t : FunctionTable σ} {cs : List (Change σ)}
    {name : String} (h : t.lastChange? cs name = none) :
    (t.afterAll cs).find? name = t.find? name := by
  induction cs generalizing t with
  | nil => rfl
  | cons c cs ih =>
      rw [afterAll_cons]
      cases hc : c.apply t with
      | error e =>
          rw [lastChange?_of_error hc] at h
          rw [after_of_error hc]
          exact ih h
      | ok t' =>
          by_cases hname : c.IsAbout name
          · rw [lastChange?_of_isAbout hc cs hname] at h
            cases h
          · rw [lastChange?_of_not_isAbout hc cs hname] at h
            rw [after_of_ok hc, ih h, Change.find?_of_apply hc, if_neg hname]

/-- A name does what its last change has written. -/
theorem behaviour_afterAll_of_lastChange? {t before : FunctionTable σ} {c : Change σ}
    {cs : List (Change σ)} {name : String} (h : t.lastChange? cs name = some (before, c)) :
    ((t.afterAll cs).find? name).map SheetFunction.behaviour = c.written before := by
  induction cs generalizing t with
  | nil => cases h
  | cons d cs ih =>
      rw [afterAll_cons]
      cases hd : d.apply t with
      | error e =>
          rw [lastChange?_of_error hd] at h
          rw [after_of_error hd]
          exact ih h
      | ok t' =>
          rw [after_of_ok hd]
          by_cases hname : d.IsAbout name
          · rw [lastChange?_of_isAbout hd cs hname] at h
            cases hlater : t'.lastChange? cs name with
            | some later =>
                rw [hlater] at h
                cases h
                exact ih hlater
            | none =>
                rw [hlater] at h
                cases h
                rw [find?_afterAll_of_lastChange?_eq_none hlater, Change.find?_of_apply hd,
                  if_pos hname, Change.behaviour_entry]
          · rw [lastChange?_of_not_isAbout hd cs hname] at h
            exact ih h

/-- After any history a name, in any letter case, does what the last change about it that was not
    refused has given it to do, and without one it finds what it found first.  A change is refused
    for what is wrong with it and for nothing else, and then the table stays as it is. -/
theorem lastChange_decides (t : FunctionTable σ) (cs : List (Change σ)) :
    (∀ name, match t.lastChange? cs name with
      | none => (t.afterAll cs).find? name = t.find? name
      | some (before, c) =>
        ((t.afterAll cs).find? name).map SheetFunction.behaviour = c.written before) ∧
      ∀ c e, (c.apply (t.afterAll cs) = .error e ↔ Change.Refuses (t.afterAll cs) c e) ∧
        (Change.Refuses (t.afterAll cs) c e → (t.afterAll cs).after c = t.afterAll cs) := by
  constructor
  · intro name
    cases hlast : t.lastChange? cs name with
    | none => exact find?_afterAll_of_lastChange?_eq_none hlast
    | some last => exact behaviour_afterAll_of_lastChange? hlast
  · intro c e
    exact ⟨Change.apply_eq_error_iff, fun h => after_of_error (Change.apply_eq_error_iff.mpr h)⟩

end FunctionTable

end SheetFormula
