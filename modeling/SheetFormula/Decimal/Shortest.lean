/-
  SheetFormula.Decimal.Shortest

  The shortest decimal of a double: of all decimals that read back as the
  double those with the fewest digits, and of these the nearest; an exact tie
  goes to the larger.  The search tries one digit, two digits and so on, and
  looks at the two neighbours of the value among the decimals of that length.
-/
import SheetFormula.Decimal.Basic

namespace SheetFormula.Decimal

open Binary64

/-- The exponent of the leading decimal digit of a positive number of units. -/
def leadingPlace (units : Nat) : Int :=
  if unitsPerOne ≤ units then (digitCount (units / unitsPerOne) : Int) - 1
  else -(digitCount ((unitsPerOne - 1) / units) : Int)

/-- The decimal of at most `count` digits that is nearest to a positive magnitude among its two
neighbours that read back, if one does. -/
def ofDigitCount? (word count : Nat) : Option Decimal :=
  let units := unitsOf word
  let exponent := leadingPlace units + 1 - count
  let num := units * Nat.pow 10 (-exponent).toNat
  let den := unitsPerOne * Nat.pow 10 exponent.toNat
  let below : Decimal := ⟨false, num / den, exponent⟩
  let above : Decimal := ⟨false, num / den + 1, exponent⟩
  -- Where both neighbours read back, the nearer one wins, and the larger one an exact tie.
  if below.word = word then
    if above.word = word ∧ den ≤ 2 * (num % den) then some above else some below
  else if above.word = word then some above
  else none

/-- All digits of a magnitude. -/
def exact (word : Nat) : Decimal :=
  ⟨false, unitsOf word * Nat.pow 5 unitPlaces, -(unitPlaces : Int)⟩

/-- The most digits that a double can need. -/
def maxDigits : Nat := 17

/-- The shortest decimal of a positive magnitude.  Every digit is written where `maxDigits` digits
do not read back. -/
def shortestOfWord (word : Nat) : Decimal :=
  ((List.range maxDigits).findSome? fun k => ofDigitCount? word (k + 1)).getD (exact word) |>.trimZeros

/-- The shortest decimal of a finite double. -/
def shortest (x : Float) : Decimal :=
  if magnitudeWord x = 0 then ⟨isNegative x, 0, 0⟩
  else { shortestOfWord (magnitudeWord x) with negative := isNegative x }

/-! ## A hit reads back -/

theorem word_of_ofDigitCount? {word count : Nat} {d : Decimal}
    (h : ofDigitCount? word count = some d) : d.word = word := by
  simp only [ofDigitCount?] at h
  split at h
  · split at h
    · next ha => cases h; exact ha.1
    · next hb _ => cases h; exact hb
  · split at h
    · next ha => cases h; exact ha
    · cases h

end SheetFormula.Decimal
