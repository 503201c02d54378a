/-
  SheetFormula.FunctionTable

  Functions by name.  Names are told apart without letter case: a function is
  kept under its name in small letters.  Functions of the library may be
  replaced, and stay marked as the library's, but not removed.
-/
import Std.Data.TreeMap
import SheetFormula.Library.Basic

namespace SheetFormula

/-- Functions under their names in small letters. -/
structure FunctionTable (σ : Type) where
  entries : Std.TreeMap String (SheetFunction σ)

/-- What a function says about itself. -/
structure FunctionInfo where
  name : String
  minArgs : Nat
  maxArgs : Option Nat
  builtin : Bool
  deriving DecidableEq, Repr

/-- What the function says about itself. -/
def SheetFunction.info {σ : Type} (f : SheetFunction σ) : FunctionInfo :=
  ⟨f.name, f.minArgs, f.maxArgs, f.builtin⟩

/-- Whether a name belongs to the functions of operators. -/
def isReservedName (name : String) : Bool := ['_', '_'].isPrefixOf name.toList

namespace FunctionTable

variable {σ : Type}

/-- A table that holds functions under their own names. -/
def ofList (fs : List (SheetFunction σ)) : FunctionTable σ :=
  ⟨fs.foldl (fun entries f => entries.insert f.name f) ∅⟩

/-- The table with the functions of the operators alone. -/
def operators : FunctionTable σ := ofList Library.operators

/-- The table with all functions of the library. -/
def standard : FunctionTable σ := ofList Library.standard

/-! ## Looking up -/

/-- The function with a name in any letter case. -/
def find? (t : FunctionTable σ) (name : String) : Option (SheetFunction σ) :=
  t.entries[Text.lower name]?

/-- Whether a function has the name. -/
def contains (t : FunctionTable σ) (name : String) : Bool := t.entries.contains (Text.lower name)

/-- What the function with a name says about itself. -/
def describe? (t : FunctionTable σ) (name : String) : Option FunctionInfo :=
  (t.find? name).map SheetFunction.info

/-- The names of all functions but those of operators, in order. -/
def names (t : FunctionTable σ) : List String := t.entries.keys.filter fun name => !isReservedName name

/-- How many functions there are, those of operators included. -/
def size (t : FunctionTable σ) : Nat := t.entries.size

/-- Whether there is no function. -/
def isEmpty (t : FunctionTable σ) : Bool := t.entries.isEmpty

/-! ## Changing -/

/-- Adds a function in place of an older one with its name, whose mark it takes over. -/
def add (t : FunctionTable σ) (f : SheetFunction σ) : Except Error (FunctionTable σ) :=
  if Text.isAllBlank f.name.toList then .error .blankFunctionName
  else
    let key := Text.lower f.name
    let builtin := ((t.entries[key]?).map (·.builtin)).getD f.builtin
    .ok ⟨t.entries.insert key { f with name := key, builtin := builtin }⟩

/-- Gives a second name to what is now the function `target`; later changes to one of the two leave
the other alone. -/
def addAlias (t : FunctionTable σ) (name target : String) : Except Error (FunctionTable σ) :=
  match t.find? target with
  | some f => t.add { f with name := name, builtin := false }
  | none => .error .notAFunction

/-- Removes the function with a name and says whether there was one. -/
def remove (t : FunctionTable σ) (name : String) : Except Error (Bool × FunctionTable σ) :=
  let key := Text.lower name
  match t.entries[key]? with
  | none => .ok (false, t)
  | some f => if f.builtin then .error (.builtinFunction key) else .ok (true, ⟨t.entries.erase key⟩)

/-! ## Looking up after a change -/

theorem contains_eq_isSome_find? (t : FunctionTable σ) (name : String) :
    t.contains name = (t.find? name).isSome := by
  simp [contains, find?]

theorem contains_eq_true_iff {t : FunctionTable σ} {name : String} :
    t.contains name = true ↔ ∃ f, t.find? name = some f := by
  rw [contains_eq_isSome_find?, Option.isSome_iff_exists]

theorem contains_eq_false_iff {t : FunctionTable σ} {name : String} :
    t.contains name = false ↔ t.find? name = none := by
  rw [contains_eq_isSome_find?, Option.isSome_eq_false_iff, Option.isNone_iff_eq_none]

/-- Adding changes what the added name finds, and nothing else. -/
theorem find?_of_add {t t' : FunctionTable σ} {f : SheetFunction σ} (h : t.add f = .ok t')
    (name : String) :
    t'.find? name =
      if Text.lower f.name = Text.lower name then
        some { f with
          name := Text.lower f.name
          builtin := ((t.find? f.name).map (·.builtin)).getD f.builtin }
      else t.find? name := by
  unfold add at h
  split at h
  · cases h
  · cases h
    simp [find?, Std.TreeMap.getElem?_insert, Std.LawfulEqCmp.compare_eq_iff_eq]

/-- Removing changes what the removed name finds, and nothing else. -/
theorem find?_of_remove {t t' : FunctionTable σ} {key : String} {found : Bool}
    (h : t.remove key = .ok (found, t')) (name : String) :
    t'.find? name = if Text.lower key = Text.lower name then none else t.find? name := by
  unfold remove at h
  simp only at h
  split at h
  · next hn =>
    cases h
    split
    · next he => rw [find?, ← he, hn]
    · rfl
  · split at h
    · cases h
    · cases h
      simp [find?, Std.TreeMap.getElem?_erase, Std.LawfulEqCmp.compare_eq_iff_eq]

end FunctionTable

end SheetFormula
