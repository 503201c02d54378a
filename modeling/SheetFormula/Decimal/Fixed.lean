/-
  SheetFormula.Decimal.Fixed

  Fixed-point decimals: a mantissa of at most 96 bits with at most 28 places.
  Numbers are read into them digit by digit, rounded to a number of places half
  away from zero, and turned back into doubles.
-/
import SheetFormula.Binary64.Integral
import SheetFormula.Binary64.Power
import SheetFormula.Decimal.Positional

namespace SheetFormula

/-- The number `mantissa / 10 ^ scale` with a sign. -/
structure Fixed where
  negative : Bool
  mantissa : Nat
  scale : Nat
  deriving DecidableEq, Repr

namespace Fixed

/-- Mantissas stay below this bound, `2 ^ 96`. -/
def mantissaLimit : Nat := 0x1000000000000000000000000

/-- The most places. -/
def maxScale : Nat := 28

/-- Zero has no sign. -/
def ofParts (negative : Bool) (mantissa scale : Nat) : Fixed :=
  ⟨negative && mantissa != 0, mantissa, scale⟩

/-- Takes fraction digits in while there is room for them; the first one that has none rounds the
mantissa and ends the reading.  A mantissa that rounds up to the bound gives up its last place. -/
def readFraction? (mantissa scale : Nat) : List Char → Option (Nat × Nat)
  | [] => some (mantissa, scale)
  | c :: cs =>
    let digit := Nat.ofDigitChars 10 [c] 0
    let longer := 10 * mantissa + digit
    if scale < maxScale ∧ longer < mantissaLimit then readFraction? longer (scale + 1) cs
    else if digit < 5 then some (mantissa, scale)
    else if mantissa + 1 < mantissaLimit then some (mantissa + 1, scale)
    -- The mantissa is the bound itself: its last digit is rounded away, a half up.
    else if scale = 0 then none
    else some ((mantissa + 1 + 4) / 10, scale - 1)

/-- The fixed-point decimal of digits around a point; too many digits before the point have none. -/
def ofPositional? (p : Positional) : Option Fixed :=
  let whole := Nat.ofDigitChars 10 p.whole 0
  if whole < mantissaLimit then
    (readFraction? whole 0 p.fraction).map fun (mantissa, scale) => ofParts p.negative mantissa scale
  else none

/-- The nearest number of at most `places` places, a half away from zero. -/
def roundTo (d : Fixed) (places : Nat) : Fixed :=
  if d.scale ≤ places then d
  else ofParts d.negative (roundDiv .up d.mantissa (Nat.pow 10 (d.scale - places))) places

/-- The double next to the number: whole part and fraction are converted apart, added, and the sum is
rounded to the number's places once more. -/
def toFloat (d : Fixed) : Float :=
  let one := Nat.pow 10 d.scale
  let whole := Binary64.ofNat (d.mantissa / one)
  let fraction := Binary64.ofNat (d.mantissa % one) / Binary64.ofNat one
  let magnitude :=
    if d.mantissa % one = 0 then whole
    else
      let power := Binary64.powInt (Binary64.ofNat 10) d.scale
      Binary64.roundHalfAway ((whole + fraction) * power) / power
  if d.negative then -magnitude else magnitude

end Fixed

end SheetFormula
