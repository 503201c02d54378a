/-
  SheetFormula.Library.Rounding

  Rounding a number to decimal places.  To the right of the point a number is
  rounded the way it reads: its shortest decimal is rounded, a half away from
  zero.  To the left of the point, and where the decimal has too many digits,
  the number is scaled by a power of ten.
-/
import SheetFormula.Decimal.Fixed

namespace SheetFormula.Library

open Binary64

/-- The bounds of the places to which numbers are rounded; places left of the point are negative. -/
def leastPlaces : Int := -308

@[inherit_doc leastPlaces] def mostPlaces : Int := 28

/-- From here on every double is an integer: the significand has no places left. -/
def integralFrom : Float := ofNat fieldWeight

/-- Rounds by scaling with a power of ten; a number that becomes too large stays as it is. -/
def roundScaled (x : Float) (places : Int) : Float :=
  let power := powInt (ofNat 10) places
  let half := ofRatio false 1 2
  if !(x * power).isFinite then x
  else if ofNat 0 ≤ x then floor (x * power + half) / power
  else ceil (x * power - half) / power

/-- Rounds the shortest decimal of a finite number, if that has few enough digits. -/
def roundDecimal? (x : Float) (places : Nat) : Option Float :=
  (Fixed.ofPositional? (Decimal.shortest x).positional).map fun d => (d.roundTo places).toFloat

/-- Rounds to a whole number of places between the bounds. -/
def roundTo (x : Float) (places : Int) : Float :=
  if 0 ≤ places then
    match roundDecimal? x places.toNat with
    | some y => y
    -- Too many digits before the point.  A double that large is an integer, so it stays.
    | none => if integralFrom ≤ x.abs then x else roundScaled x places
  else roundScaled x places

/-- Rounds to places given by a number, whose fraction is dropped. -/
def round (x places : Float) : Float :=
  if places.isNaN then nan
  else if !x.isFinite then x
  else roundTo x (toIntWithin leastPlaces mostPlaces places)

end SheetFormula.Library
