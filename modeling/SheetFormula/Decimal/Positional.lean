/-
  SheetFormula.Decimal.Positional

  Decimals as digits around a point, and the text of a double: digits around
  a point for middling magnitudes, one digit before the point and an exponent
  for the others.
-/
import SheetFormula.Decimal.Shortest

namespace SheetFormula

/-- The digits of a decimal before and after the point; at least one comes before it. -/
structure Positional where
  negative : Bool
  whole : List Char
  fraction : List Char
  deriving DecidableEq, Repr

namespace Decimal

/-- The digits of the significand. -/
def digits (d : Decimal) : List Char := Nat.toDigits 10 d.significand

/-- The decimal as digits around a point. -/
def positional (d : Decimal) : Positional :=
  let places := (-d.exponent).toNat
  let padded := List.replicate (places + 1 - d.digits.length) '0' ++ d.digits
    ++ List.replicate d.exponent.toNat '0'
  ⟨d.negative, padded.take (padded.length - places), padded.drop (padded.length - places)⟩

end Decimal

/-! ## Texts -/

/-- The sign of a negative number. -/
def signText (negative : Bool) : List Char := if negative then ['-'] else []

/-- A fraction with its point; no fraction has no point. -/
def fractionText : List Char → List Char
  | [] => []
  | c :: cs => '.' :: c :: cs

/-- Digits around a point. -/
def Positional.text (p : Positional) : List Char :=
  signText p.negative ++ p.whole ++ fractionText p.fraction

/-- An exponent, whose sign is always written. -/
def exponentText (e : Int) : List Char :=
  (if e < 0 then '-' else '+') :: Nat.toDigits 10 e.natAbs

/-- One digit before the point, the others after it, and an exponent. -/
def Decimal.scientificText (d : Decimal) : List Char :=
  signText d.negative ++ d.digits.take 1 ++ fractionText (d.digits.drop 1)
    ++ 'e' :: exponentText (d.exponent + (d.digits.length - 1 : Nat))

/-- Where digits around a point end and exponents begin, and the names of the doubles that have no
digits. -/
structure NumberLayout where
  /-- Smaller magnitudes other than zero are written with an exponent. -/
  leastPlain : Float
  /-- Magnitudes from here on are written with an exponent. -/
  plainLimit : Float
  notANumber : String
  infinity : String

/-- The text of a double; zero has no sign. -/
def NumberLayout.text (layout : NumberLayout) (x : Float) : List Char :=
  match Binary64.shape x with
  | .notANumber => layout.notANumber.toList
  | .infinite negative => signText negative ++ layout.infinity.toList
  | .finite _ 0 => ['0']
  | .finite _ (_ + 1) =>
    let d := Decimal.shortest x
    if x.abs < layout.leastPlain || layout.plainLimit ≤ x.abs then d.scientificText
    else d.positional.text

end SheetFormula
