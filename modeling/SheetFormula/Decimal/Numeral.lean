/-
  SheetFormula.Decimal.Numeral

  Reading numbers.  A decimal numeral is an optional sign, digits with an
  optional point among or beside them, and an optional exponent; at least one
  digit stands before the exponent and at least one in it.  A number literal is
  a decimal numeral or, after an optional sign and in any letter case, the name
  of an infinity or of "not a number".
-/
import SheetFormula.Decimal.Basic

namespace SheetFormula.Numeral

/-- Takes a leading sign off; whether it was a minus comes first. -/
def splitSign : List Char → Bool × List Char
  | '-' :: cs => (true, cs)
  | '+' :: cs => (false, cs)
  | cs => (false, cs)

/-- Splits after the leading digits. -/
def splitDigits (cs : List Char) : List Char × List Char :=
  (cs.takeWhile Char.isDigit, cs.dropWhile Char.isDigit)

/-- A fraction is a point and any number of digits, or nothing. -/
def splitFraction : List Char → List Char × List Char
  | '.' :: cs => splitDigits cs
  | cs => ([], cs)

/-- The number that digits spell. -/
def ofDigits (ds : List Char) : Nat := Nat.ofDigitChars 10 ds 0

/-- The digits of an exponent after its mark, which fill the rest of the text. -/
def exponentDigits? (cs : List Char) : Option Int :=
  let (negative, ds) := splitSign cs
  if ds ≠ [] ∧ ds.all Char.isDigit then
    some (if negative then -(ofDigits ds : Int) else ofDigits ds)
  else none

/-- An exponent with its mark, or nothing, which fills the rest of the text. -/
def exponent? : List Char → Option Int
  | [] => some 0
  | c :: cs => if c = 'e' ∨ c = 'E' then exponentDigits? cs else none

/-- A decimal numeral. -/
def decimal? (cs : List Char) : Option Decimal :=
  let (negative, cs) := splitSign cs
  let (whole, cs) := splitDigits cs
  let (fraction, cs) := splitFraction cs
  if whole = [] ∧ fraction = [] then none
  else (exponent? cs).map fun e => ⟨negative, ofDigits (whole ++ fraction), e - fraction.length⟩

/-- The double that a decimal numeral stands for. -/
def double? (cs : List Char) : Option Float := (decimal? cs).map Decimal.toFloat

/-- The doubles that have names. -/
def named? (cs : List Char) : Option Float :=
  let (negative, cs) := splitSign cs
  let name := String.ofList (cs.map Char.toLower)
  if name = "inf" ∨ name = "infinity" then some (Binary64.infinity negative)
  else if name = "nan" then some Binary64.nan
  else none

/-- The double that a number literal stands for. -/
def literal? (cs : List Char) : Option Float := named? cs <|> double? cs

end SheetFormula.Numeral
