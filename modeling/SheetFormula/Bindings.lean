/-
  SheetFormula.Bindings

  Named values, and a scope that looks in local bindings before global ones.
  Names are told apart by letter case.
-/
import Std.Data.TreeMap
import SheetFormula.Value

namespace SheetFormula

/-- Values by name, in the order of the names. -/
structure Bindings where
  values : Std.TreeMap String Value

namespace Bindings

/-- No value has a name. -/
def empty : Bindings := ⟨∅⟩

instance : Inhabited Bindings := ⟨empty⟩

instance : EmptyCollection Bindings := ⟨empty⟩

/-- The value of a name. -/
def get? (b : Bindings) (name : String) : Option Value := b.values[name]?

/-- Whether the name has a value. -/
def contains (b : Bindings) (name : String) : Bool := b.values.contains name

/-- Gives the name a value, in place of an older one. -/
def insert (b : Bindings) (name : String) (v : Value) : Bindings := ⟨b.values.insert name v⟩

/-- Takes the name's value away. -/
def erase (b : Bindings) (name : String) : Bindings := ⟨b.values.erase name⟩

/-- Gives names values one after the other; the last value of a name stays. -/
def extend (b : Bindings) (pairs : List (String × Value)) : Bindings :=
  pairs.foldl (fun b p => b.insert p.1 p.2) b

/-- The bindings of a list; the last value of a name stays. -/
def ofList (pairs : List (String × Value)) : Bindings := empty.extend pairs

/-- Names and values in the order of the names. -/
def toList (b : Bindings) : List (String × Value) := b.values.toList

/-- How many names have a value. -/
def size (b : Bindings) : Nat := b.values.size

/-- Whether no name has a value. -/
def isEmpty (b : Bindings) : Bool := b.values.isEmpty

/-- Whether the same names have strictly equal values. -/
def sameAs (a b : Bindings) : Bool :=
  a.size == b.size && a.toList.all fun (name, v) => (b.get? name).any v.strictEq

/-! ## Looking up after a change -/

@[simp] theorem get?_empty (name : String) : empty.get? name = none := by
  simp [get?, empty]

theorem get?_insert (b : Bindings) (k name : String) (v : Value) :
    (b.insert k v).get? name = if k = name then some v else b.get? name := by
  simp [get?, insert, Std.TreeMap.getElem?_insert, Std.LawfulEqCmp.compare_eq_iff_eq]

@[simp] theorem get?_insert_self (b : Bindings) (name : String) (v : Value) :
    (b.insert name v).get? name = some v := by simp [get?_insert]

theorem get?_erase (b : Bindings) (k name : String) :
    (b.erase k).get? name = if k = name then none else b.get? name := by
  simp [get?, erase, Std.TreeMap.getElem?_erase, Std.LawfulEqCmp.compare_eq_iff_eq]

theorem contains_eq_isSome_get? (b : Bindings) (name : String) :
    b.contains name = (b.get? name).isSome := by
  simp [contains, get?]

@[simp] theorem extend_nil (b : Bindings) : b.extend [] = b := rfl

@[simp] theorem extend_cons (b : Bindings) (p : String × Value) (ps : List (String × Value)) :
    b.extend (p :: ps) = (b.insert p.1 p.2).extend ps := rfl

end Bindings

/-! ## Scopes -/

/-- Local bindings in front of global ones. -/
structure Scope where
  locals : Bindings
  globals : Bindings

namespace Scope

/-- The value of a name, the local one if there is one. -/
def get? (s : Scope) (name : String) : Option Value := s.locals.get? name <|> s.globals.get? name

/-- Whether the name has a value. -/
def contains (s : Scope) (name : String) : Bool :=
  s.locals.contains name || s.globals.contains name

theorem contains_eq_isSome_get? (s : Scope) (name : String) :
    s.contains name = (s.get? name).isSome := by
  simp [contains, get?, Bindings.contains_eq_isSome_get?, Option.isSome_or]

end Scope

end SheetFormula
