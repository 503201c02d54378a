/-
  SheetFormula.Library.Texts

  Functions on texts.  Arguments count as the texts that show them, and
  characters are code points.
-/
import SheetFormula.Binary64.Integral
import SheetFormula.Error
import SheetFormula.Text.Case
import SheetFormula.Value

namespace SheetFormula.Library

/-- How many characters show the value. -/
def length (v : Value) : Nat := v.display.toList.length

/-- The texts of all values one after the other. -/
def concat (args : List Value) : String := String.join (args.map Value.display)

/-- The text without white space at its ends. -/
def trimmed (v : Value) : String := String.ofList (Text.trim v.display.toList)

/-- The greatest count of characters, `2 ^ 64 - 1`. -/
def countLimit : Nat := 0xFFFFFFFFFFFFFFFF

/-- The count of characters that an optional argument asks for: one if it is absent, else its integer
part.  `function` names the function that refuses a negative count. -/
def count (function : String) : Option Value → Except Error Nat
  | none => .ok 1
  | some v =>
    if v.toNumber.isNaN || v.toNumber < Binary64.ofNat 0 then
      .error (.invalidArgument
        (function ++ " expects a non-negative character count, got " ++ v.display))
    else .ok (Binary64.toIntWithin 0 countLimit v.toNumber).toNat

/-- The first characters. -/
def left (v : Value) (n : Nat) : String := String.ofList (v.display.toList.take n)

/-- The last characters. -/
def right (v : Value) (n : Nat) : String :=
  String.ofList (v.display.toList.drop (v.display.toList.length - n))

/-- Whether the characters `part` stand next to each other somewhere in a text. -/
def occursIn (part : List Char) : List Char → Bool
  | [] => part.isEmpty
  | c :: cs => part.isPrefixOf (c :: cs) || occursIn part cs

theorem occursIn_iff {part cs : List Char} :
    occursIn part cs = true ↔ ∃ before after, cs = before ++ part ++ after := by
  induction cs with
  | nil =>
    simp only [occursIn, List.isEmpty_iff]
    constructor
    · rintro rfl
      exact ⟨[], [], rfl⟩
    · rintro ⟨before, after, h⟩
      simp_all
  | cons c cs ih =>
    simp only [occursIn, Bool.or_eq_true, List.isPrefixOf_iff_prefix, ih]
    constructor
    · rintro (⟨after, h⟩ | ⟨before, after, rfl⟩)
      · exact ⟨[], after, by simpa using h.symm⟩
      · exact ⟨c :: before, after, rfl⟩
    · rintro ⟨before, after, h⟩
      cases before with
      | nil => exact .inl ⟨after, by simpa using h.symm⟩
      | cons b before =>
        simp only [List.cons_append, List.cons.injEq] at h
        exact .inr ⟨before, after, h.2⟩

end SheetFormula.Library
