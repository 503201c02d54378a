/-
  SheetFormula.Binary64.Basic

  Doubles as exact numbers.  Every finite double is a sign and a whole number
  of units, a unit being the smallest positive double `2 ^ -1074`; so its
  arithmetic is arithmetic on natural numbers.  `ofRatio` goes the other way
  and rounds a quotient to the nearest double, a half to the even significand.

  Main statement: rounding the value of a word gives the word back
  (`nearestWord_unitsOf`).
-/
import SheetFormula.Rounding

namespace SheetFormula.Binary64

/-- The binary places of the smallest positive double, the unit. -/
def unitPlaces : Nat := 1074

/-- How many units make one. -/
def unitsPerOne : Nat := Nat.pow 2 unitPlaces

/-- The weight of the sign bit, `2 ^ 63`. -/
def signWeight : Nat := 0x8000000000000000

/-- The weight `2 ^ 52` of the lowest bit of the exponent field, and the least significand of a double
whose exponent field is not zero. -/
def fieldWeight : Nat := 0x10000000000000

/-- The magnitude bits of an infinity: the exponent field is all ones, the rest is zero. -/
def infinityWord : Nat := 2047 * fieldWeight

/-! ## Words and units -/

/-- The binary exponent, in units, of a magnitude: fields zero and one share the exponent zero. -/
def exponentOf (word : Nat) : Nat := word / fieldWeight - 1

/-- The significand of a magnitude: from field one on the leading bit is not stored. -/
def significandOf (word : Nat) : Nat :=
  if word < fieldWeight then word else word % fieldWeight + fieldWeight

/-- The magnitude in units that magnitude bits stand for. -/
def unitsOf (word : Nat) : Nat := significandOf word * Nat.pow 2 (exponentOf word)

/-- The magnitude bits of the double nearest to `num / den`.  A significand that rounds up to
`2 ^ 53` carries into the exponent field, which is what the next double needs. -/
def nearestWord (num den : Nat) : Nat :=
  let units := num * unitsPerOne
  let exponent := (units / den).log2 - 52
  min infinityWord (exponent * fieldWeight + roundDiv .toEven units (den * Nat.pow 2 exponent))

/-! ## Doubles -/

/-- What a double stands for. -/
inductive Shape where
  | notANumber
  | infinite (negative : Bool)
  /-- A number of units with a sign; zero has a sign too. -/
  | finite (negative : Bool) (units : Nat)
  deriving DecidableEq, Repr

/-- The double's bits without the sign. -/
def magnitudeWord (x : Float) : Nat := x.toBits.toNat % signWeight

/-- Whether the sign bit is set. -/
def isNegative (x : Float) : Bool := signWeight ≤ x.toBits.toNat

/-- The double as an exact number. -/
def shape (x : Float) : Shape :=
  let word := magnitudeWord x
  if word < infinityWord then .finite (isNegative x) (unitsOf word)
  else if word = infinityWord then .infinite (isNegative x)
  else .notANumber

/-- The double with the given sign and magnitude bits. -/
def ofWord (negative : Bool) (word : Nat) : Float :=
  Float.ofBits (.ofNat (word + if negative then signWeight else 0))

/-- The double nearest to the quotient `num / den` with a sign; too large a quotient gives an
infinity. -/
def ofRatio (negative : Bool) (num den : Nat) : Float := ofWord negative (nearestWord num den)

/-- The double nearest to a natural number. -/
def ofNat (n : Nat) : Float := ofRatio false n 1

/-- The double nearest to an integer; zero is positive. -/
def ofInt (n : Int) : Float := ofRatio (n < 0) n.natAbs 1

/-- The canonical "not a number". -/
def nan : Float := Float.ofBits 0x7FF8000000000000

/-- The infinity with the given sign. -/
def infinity (negative : Bool) : Float := ofWord negative infinityWord

/-- Negative zero, the neutral element of addition. -/
def negZero : Float := ofWord true 0

/-! ## A word rounds to itself -/

theorem fieldWeight_pos : 0 < fieldWeight := by decide

theorem pow_two_pos (n : Nat) : 0 < Nat.pow 2 n := Nat.two_pow_pos n

theorem unitsPerOne_pos : 0 < unitsPerOne := by
  unfold unitsPerOne
  exact pow_two_pos unitPlaces

/-- The exponent and the significand of a word add up to it. -/
theorem exponentOf_mul_add_significandOf (word : Nat) :
    exponentOf word * fieldWeight + significandOf word = word := by
  unfold exponentOf significandOf
  have hd := Nat.div_add_mod word fieldWeight
  by_cases h : word < fieldWeight
  · simp [h, Nat.div_eq_of_lt h]
  · have h1 : 1 ≤ word / fieldWeight :=
      (Nat.one_le_div_iff fieldWeight_pos).mpr (Nat.le_of_not_lt h)
    rw [Nat.mul_comm] at hd
    have h2 : (word / fieldWeight - 1) * fieldWeight + fieldWeight
        = word / fieldWeight * fieldWeight := by
      rw [← Nat.succ_mul]; congr 1; omega
    simp only [h, if_false]
    omega

theorem significandOf_lt (word : Nat) : significandOf word < 2 * fieldWeight := by
  have h := Nat.mod_lt word fieldWeight_pos
  unfold significandOf
  split <;> omega

/-- A significand without its leading bit comes with the exponent zero. -/
theorem exponentOf_eq_zero_of_lt {word : Nat} (h : significandOf word < fieldWeight) :
    exponentOf word = 0 := by
  unfold significandOf at h
  split at h
  · next hw => simp [exponentOf, Nat.div_eq_of_lt hw]
  · omega

theorem log2_mul_two_pow {n : Nat} (h : n ≠ 0) (k : Nat) :
    (n * Nat.pow 2 k).log2 = n.log2 + k := by
  simp only [Nat.pow_eq]
  have h0 : n * 2 ^ k ≠ 0 := Nat.mul_ne_zero h (Nat.ne_of_gt (Nat.two_pow_pos k))
  have hlo : n.log2 + k ≤ (n * 2 ^ k).log2 := by
    rw [Nat.le_log2 h0, Nat.pow_add]
    exact Nat.mul_le_mul_right _ (Nat.log2_self_le h)
  have hhi : (n * 2 ^ k).log2 < n.log2 + k + 1 := by
    rw [Nat.log2_lt h0, Nat.add_right_comm, Nat.pow_add]
    exact Nat.mul_lt_mul_of_pos_right Nat.lt_log2_self (Nat.two_pow_pos k)
  omega

/-- The exponent of a word is read off the size of its units. -/
theorem log2_unitsOf_sub (word : Nat) : (unitsOf word).log2 - 52 = exponentOf word := by
  have hlt : significandOf word < 2 ^ 53 := significandOf_lt word
  unfold unitsOf
  by_cases h : significandOf word < fieldWeight
  -- Below the leading bit the exponent is zero, and so is the truncated difference.
  · rw [exponentOf_eq_zero_of_lt h]
    by_cases h0 : significandOf word = 0
    · simp [h0]
    · have := (Nat.log2_lt h0).mpr hlt
      simp only [Nat.pow_eq, Nat.pow_zero, Nat.mul_one]
      omega
  -- With the leading bit the significand has 53 bits.
  · have h0 : significandOf word ≠ 0 := by
      have := fieldWeight_pos
      omega
    have h52 : (significandOf word).log2 = 52 := by
      have h1 := (Nat.log2_lt h0).mpr hlt
      have h2 := (Nat.le_log2 h0).mpr (show 2 ^ 52 ≤ _ from Nat.le_of_not_lt h)
      omega
    rw [log2_mul_two_pow h0, h52]
    omega

/-- Rounding the value of a word gives the word back. -/
theorem nearestWord_unitsOf {word : Nat} (h : word ≤ infinityWord) :
    nearestWord (unitsOf word) unitsPerOne = word := by
  have hu := unitsPerOne_pos
  have he : significandOf word * Nat.pow 2 (exponentOf word) * unitsPerOne
      = significandOf word * (unitsPerOne * Nat.pow 2 (exponentOf word)) := by
    rw [Nat.mul_assoc, Nat.mul_comm (Nat.pow 2 (exponentOf word))]
  have hp : 0 < unitsPerOne * Nat.pow 2 (exponentOf word) := Nat.mul_pos hu (Nat.two_pow_pos _)
  simp only [nearestWord, Nat.mul_div_cancel _ hu, log2_unitsOf_sub]
  rw [unitsOf, he, roundDiv_mul_self _ _ hp, exponentOf_mul_add_significandOf]
  exact Nat.min_eq_right h

@[simp] theorem nearestWord_zero {den : Nat} (h : 0 < den) : nearestWord 0 den = 0 := by
  simp [nearestWord, h]

theorem nearestWord_le (num den : Nat) : nearestWord num den ≤ infinityWord := Nat.min_le_left ..

end SheetFormula.Binary64
