/-
  SheetFormula.Decimal.Basic

  Decimal numbers: a sign, a significand and a power of ten.  `toFloat` gives
  the nearest double; very large and very small exponents are settled without
  computing the power.
-/
import SheetFormula.Binary64.Basic

namespace SheetFormula

/-- The number `significand * 10 ^ exponent` with a sign; zero has a sign too. -/
structure Decimal where
  negative : Bool
  significand : Nat
  exponent : Int
  deriving DecidableEq, Repr

/-- How many decimal digits a natural number is written with. -/
def digitCount (n : Nat) : Nat := (Nat.toDigits 10 n).length

theorem digitCount_pos (n : Nat) : 0 < digitCount n := Nat.length_toDigits_pos

/-- A number with `k` digits is below `10 ^ k`. -/
theorem lt_ten_pow_digitCount (n : Nat) : n < Nat.pow 10 (digitCount n) :=
  (Nat.length_toDigits_le_iff (by decide) (digitCount_pos n)).mp (Nat.le_refl _)

namespace Decimal

/-- The magnitude as a quotient, its numerator. -/
def num (d : Decimal) : Nat := d.significand * Nat.pow 10 d.exponent.toNat

/-- The magnitude as a quotient, its denominator. -/
def den (d : Decimal) : Nat := Nat.pow 10 (-d.exponent).toNat

theorem den_pos (d : Decimal) : 0 < d.den := Nat.pow_pos (by decide)

/-- From this exponent of ten on a number exceeds every double. -/
def overflowPlaces : Int := 310

/-- Up to this exponent of ten a number is less than half the smallest positive double. -/
def underflowPlaces : Int := -324

/-- The magnitude bits of the nearest double. -/
def word (d : Decimal) : Nat :=
  if d.significand = 0 then 0
  else
    let places : Int := d.exponent + digitCount d.significand
    if overflowPlaces ≤ places then Binary64.infinityWord
    else if places ≤ underflowPlaces then 0
    else Binary64.nearestWord d.num d.den

/-- The nearest double. -/
def toFloat (d : Decimal) : Float := Binary64.ofWord d.negative d.word

/-- How many zeros end the decimal digits of a number. -/
def trailingZeros (n : Nat) : Nat := ((Nat.toDigits 10 n).reverse.takeWhile (· == '0')).length

/-- The same number with no zero at the end of the significand. -/
def trimZeros (d : Decimal) : Decimal :=
  let zeros := trailingZeros d.significand
  { d with significand := d.significand / Nat.pow 10 zeros, exponent := d.exponent + zeros }

end Decimal

end SheetFormula
