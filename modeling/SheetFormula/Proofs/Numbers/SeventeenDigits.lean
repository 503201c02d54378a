/-
  SheetFormula.Proofs.Numbers.SeventeenDigits

  Seventeen digits are enough for every double.  The search for the shortest
  decimal counts digits from the leading one (`leadingPlace_bounds`); at the
  seventeenth one of the two neighbours is off by less than one part in
  `2 ^ 54`, so it reads back (`ofDigitCount?_maxDigits`).  The search never
  falls back to writing all digits, and what it finds has a significand of at
  most seventeen (`significand_shortest_le`).
-/
import SheetFormula.Proofs.Numbers.FixedPoint
import SheetFormula.Proofs.Numbers.Integers

namespace SheetFormula

namespace Decimal

open Binary64

/-! ## The leading digit -/

theorem natCast_succ_le_ten_pow (n : Nat) : (n : ℚ) + 1 ≤ 10 ^ digitCount n := by
  have hlt := lt_ten_pow_digitCount n
  rw [Nat.pow_eq] at hlt
  exact_mod_cast Nat.succ_le_of_lt hlt

theorem ten_pow_le_natCast {n : Nat} (hn : n ≠ 0) : (10 : ℚ) ^ (digitCount n - 1) ≤ n := by
  exact_mod_cast ten_pow_le_significand hn

section Quotients

variable {num den : Nat}

/-- The leading digit of a quotient from one on is that of its whole part. -/
theorem div_bounds_of_le (hden : 0 < den) (hle : den ≤ num) :
    (10 : ℚ) ^ (digitCount (num / den) - 1) ≤ (num : ℚ) / den ∧
      (num : ℚ) / den < 10 ^ digitCount (num / den) := by
  have hne : num / den ≠ 0 := Nat.ne_of_gt (Nat.div_pos hle hden)
  have hbelow : den * (num / den) ≤ num := Nat.mul_div_le num den
  have habove : num < den * (num / den + 1) := Nat.lt_mul_div_succ num hden
  generalize num / den = whole at hne hbelow habove ⊢
  have hden' : (0 : ℚ) < den := by exact_mod_cast hden
  have hbelow' : (den * whole : ℚ) ≤ num := by exact_mod_cast hbelow
  have habove' : (num : ℚ) < den * (whole + 1) := by exact_mod_cast habove
  rw [le_div_iff₀' hden', div_lt_iff₀' hden']
  constructor
  · exact le_trans (mul_le_mul_of_nonneg_left (ten_pow_le_natCast hne) (le_of_lt hden')) hbelow'
  · exact lt_of_lt_of_le habove'
      (mul_le_mul_of_nonneg_left (natCast_succ_le_ten_pow whole) (le_of_lt hden'))

/-- That of a quotient below one is told by how many times the numerator fits below the
    denominator. -/
theorem div_bounds_of_lt (hnum : 0 < num) (hlt : num < den) :
    1 / (10 : ℚ) ^ digitCount ((den - 1) / num) ≤ (num : ℚ) / den ∧
      (num : ℚ) / den < 1 / 10 ^ (digitCount ((den - 1) / num) - 1) := by
  have hne : (den - 1) / num ≠ 0 := Nat.ne_of_gt (Nat.div_pos (by omega) hnum)
  have hbelow : num * ((den - 1) / num) < den := by
    have := Nat.mul_div_le (den - 1) num
    omega
  have habove : den ≤ num * ((den - 1) / num + 1) := by
    have := Nat.lt_mul_div_succ (den - 1) hnum
    omega
  generalize (den - 1) / num = times at hne hbelow habove ⊢
  have hnum' : (0 : ℚ) < num := by exact_mod_cast hnum
  have hden' : (0 : ℚ) < den := lt_trans hnum' (by exact_mod_cast hlt)
  have hbelow' : (num * times : ℚ) < den := by exact_mod_cast hbelow
  have habove' : (den : ℚ) ≤ num * (times + 1) := by exact_mod_cast habove
  rw [div_le_div_iff₀ (by positivity) hden', div_lt_div_iff₀ hden' (by positivity), one_mul]
  constructor
  · exact le_trans habove'
      (mul_le_mul_of_nonneg_left (natCast_succ_le_ten_pow times) (le_of_lt hnum'))
  · exact lt_of_le_of_lt
      (mul_le_mul_of_nonneg_left (ten_pow_le_natCast hne) (le_of_lt hnum')) hbelow'

end Quotients

/-- A positive double lies between the powers of ten at its leading place and the next. -/
theorem leadingPlace_bounds {word : Nat} (h : 0 < word) :
    (10 : ℚ) ^ leadingPlace (unitsOf word) ≤ valueOf word ∧
      valueOf word < 10 ^ (leadingPlace (unitsOf word) + 1) := by
  have hunits := unitsOf_pos h
  have hone := unitsPerOne_pos
  rw [leadingPlace, valueOf]
  generalize unitsOf word = units at hunits ⊢
  generalize unitsPerOne = one at hone ⊢
  by_cases hle : one ≤ units
  · have hbounds := div_bounds_of_le hone hle
    have hpos := digitCount_pos (units / one)
    have hplace : (digitCount (units / one) : ℤ) - 1 = (digitCount (units / one) - 1 : Nat) := by
      omega
    rw [if_pos hle, sub_add_cancel, hplace, zpow_natCast, zpow_natCast]
    exact hbounds
  · have hbounds := div_bounds_of_lt hunits (Nat.lt_of_not_le hle)
    have hpos := digitCount_pos ((one - 1) / units)
    have hplace : -(digitCount ((one - 1) / units) : ℤ) + 1 =
        -((digitCount ((one - 1) / units) - 1 : Nat) : ℤ) := by omega
    rw [if_neg hle, hplace, zpow_neg, zpow_neg, zpow_natCast, zpow_natCast, inv_eq_one_div,
      inv_eq_one_div]
    exact hbounds

/-! ## The two neighbours -/

/-- How many times a power of ten fits into a magnitude. -/
def timesOf (word : Nat) (e : ℤ) : Nat :=
  unitsOf word * Nat.pow 10 (-e).toNat / (unitsPerOne * Nat.pow 10 e.toNat)

theorem ten_zpow_eq (e : ℤ) : (10 : ℚ) ^ e = 10 ^ e.toNat / 10 ^ (-e).toNat := by
  have hvalue := value_eq_div ⟨false, 1, e⟩
  simp only [value, num, den, Nat.pow_eq, Nat.cast_one, one_mul, Nat.cast_pow, Nat.cast_ofNat] at hvalue
  exact hvalue

theorem timesOf_bounds (word : Nat) (e : ℤ) :
    (timesOf word e : ℚ) * 10 ^ e ≤ valueOf word ∧ valueOf word < (timesOf word e + 1) * 10 ^ e := by
  have hone := unitsPerOne_pos
  have hten : 0 < unitsPerOne * 10 ^ e.toNat := Nat.mul_pos hone (Nat.pow_pos (by decide))
  have hbelow := Nat.mul_div_le (unitsOf word * 10 ^ (-e).toNat) (unitsPerOne * 10 ^ e.toNat)
  have habove := Nat.lt_mul_div_succ (unitsOf word * 10 ^ (-e).toNat) hten
  rw [timesOf, valueOf, ten_zpow_eq, Nat.pow_eq, Nat.pow_eq]
  generalize unitsOf word * 10 ^ (-e).toNat / (unitsPerOne * 10 ^ e.toNat) = times at hbelow habove ⊢
  generalize unitsOf word = units at hbelow habove ⊢
  generalize unitsPerOne = one at hone hten hbelow habove ⊢
  have hone' : (0 : ℚ) < one := by exact_mod_cast hone
  have hbelow' : (one * 10 ^ e.toNat * times : ℚ) ≤ units * 10 ^ (-e).toNat := by exact_mod_cast hbelow
  have habove' : (units * 10 ^ (-e).toNat : ℚ) < one * 10 ^ e.toNat * (times + 1) := by
    exact_mod_cast habove
  rw [← mul_div_assoc, ← mul_div_assoc, div_le_div_iff₀ (by positivity) hone',
    div_lt_div_iff₀ hone' (by positivity)]
  constructor <;> linarith

section Search

variable {word count : Nat}

/-- The search takes one of the two neighbours. -/
theorem significand_of_ofDigitCount? {d : Decimal} (h : ofDigitCount? word count = some d) :
    d.significand ≤ timesOf word (leadingPlace (unitsOf word) + 1 - count) + 1 := by
  rw [ofDigitCount?] at h
  rw [timesOf]
  split at h
  · split at h
    · cases h; exact Nat.le_refl _
    · cases h; exact Nat.le_succ _
  · split at h
    · cases h; exact Nat.le_refl _
    · cases h

/-- The search goes on only where neither neighbour reads back. -/
theorem word_ne_of_ofDigitCount? (h : ofDigitCount? word count = none) :
    let e := leadingPlace (unitsOf word) + 1 - count
    (⟨false, timesOf word e, e⟩ : Decimal).word ≠ word ∧
      (⟨false, timesOf word e + 1, e⟩ : Decimal).word ≠ word := by
  rw [ofDigitCount?] at h
  split at h
  · split at h
    · cases h
    · cases h
  · next hbelow =>
    split at h
    · cases h
    · next habove => exact ⟨hbelow, habove⟩

/-- What is close enough to a double reads back. -/
theorem word_of_close {d : Decimal} (hle : word ≤ infinityWord)
    (h : 2 ^ 54 * |d.value - valueOf word| < valueOf word) : d.word = word :=
  d.isNearest_word.unique (.of_close hle h)

/-- At the seventeenth digit the search ends. -/
theorem ofDigitCount?_maxDigits (hpos : 0 < word) (hle : word ≤ infinityWord) :
    ofDigitCount? word maxDigits ≠ none := by
  intro hnone
  obtain ⟨hnotBelow, hnotAbove⟩ := word_ne_of_ofDigitCount? hnone
  obtain ⟨hleading, -⟩ := leadingPlace_bounds hpos
  obtain ⟨hbelow, habove⟩ := timesOf_bounds word (leadingPlace (unitsOf word) + 1 - maxDigits)
  have hten : (10 : ℚ) ≠ 0 := by norm_num
  have hplace : leadingPlace (unitsOf word) =
      16 + (leadingPlace (unitsOf word) + 1 - (maxDigits : ℤ)) := by
    rw [maxDigits]
    omega
  rw [hplace, zpow_add₀ hten] at hleading
  generalize leadingPlace (unitsOf word) + 1 - (maxDigits : ℤ) = e at *
  have hunit : (0 : ℚ) < 10 ^ e := by positivity
  have hlarge : (2 : ℚ) ^ 53 * 10 ^ e < valueOf word := by
    refine lt_of_lt_of_le (mul_lt_mul_of_pos_right ?_ hunit) hleading
    norm_num
  -- The nearer neighbour is half a unit away at most.
  rcases le_total (2 * valueOf word) ((2 * timesOf word e + 1) * 10 ^ e) with hnear | hnear
  · refine hnotBelow (word_of_close hle ?_)
    rw [value, abs_of_nonpos (sub_nonpos.mpr hbelow)]
    linarith
  · refine hnotAbove (word_of_close hle ?_)
    rw [value, Nat.cast_succ, abs_of_pos (sub_pos.mpr habove)]
    linarith

theorem significand_le_of_ofDigitCount? {d : Decimal} (hpos : 0 < word)
    (h : ofDigitCount? word count = some d) : d.significand ≤ 10 ^ count := by
  refine Nat.le_trans (significand_of_ofDigitCount? h) (Nat.succ_le_of_lt ?_)
  obtain ⟨-, hleading⟩ := leadingPlace_bounds hpos
  obtain ⟨hbelow, -⟩ := timesOf_bounds word (leadingPlace (unitsOf word) + 1 - count)
  have hplace : leadingPlace (unitsOf word) + 1 =
      count + (leadingPlace (unitsOf word) + 1 - (count : ℤ)) := by omega
  rw [hplace, zpow_add₀ (by norm_num), zpow_natCast] at hleading
  have hlt := lt_of_mul_lt_mul_right (lt_of_le_of_lt hbelow hleading) (by positivity)
  exact_mod_cast hlt

end Search

/-! ## The shortest decimal -/

theorem significand_shortestOfWord_le {word : Nat} (hpos : 0 < word) (hle : word ≤ infinityWord) :
    (shortestOfWord word).significand ≤ 10 ^ maxDigits := by
  rw [shortestOfWord]
  cases hfind : (List.range maxDigits).findSome? fun k => ofDigitCount? word (k + 1) with
  | none =>
      have hlast := List.findSome?_eq_none_iff.mp hfind 16 (by decide)
      exact absurd hlast (ofDigitCount?_maxDigits hpos hle)
  | some d =>
      obtain ⟨k, hk, hhit⟩ := List.exists_of_findSome?_eq_some hfind
      calc d.significand / Nat.pow 10 (trailingZeros d.significand) ≤ d.significand := Nat.div_le_self ..
        _ ≤ 10 ^ (k + 1) := significand_le_of_ofDigitCount? hpos hhit
        _ ≤ 10 ^ maxDigits := Nat.pow_le_pow_right (by decide) (List.mem_range.mp hk)

section Shortest

variable {x : Float} (h : x.isFinite = true)

include h

/-- The shortest decimal of a finite double has no more than seventeen digits. -/
theorem significand_shortest_le :
    (shortest x).significand ≤ 10 ^ maxDigits := by
  rw [shortest]
  split
  · exact Nat.zero_le _
  · next hne =>
    exact significand_shortestOfWord_le (Nat.pos_of_ne_zero hne) (Nat.le_of_lt (isFinite_iff.mp h))

theorem isNearest_shortest : IsNearest (shortest x).value (magnitudeWord x) := by
  have hnearest := (shortest x).isNearest_word
  rw [word_shortest (isFinite_iff.mp h)] at hnearest
  exact hnearest

theorem isRounded_shortest : IsRounded (withSign (isNegative x) (shortest x).value) x := by
  have hrounded := isRounded_withSign (isNegative x) (isNearest_shortest h) (value_nonneg _)
  rw [ofWord_magnitudeWord] at hrounded
  exact hrounded

/-- A number with many places is small. -/
theorem value_shortest_le {places : Nat} (hplaces : places < (-(shortest x).exponent).toNat) :
    (shortest x).value ≤ 10 ^ maxDigits / 10 ^ (places + 1) := by
  have hsignificand : ((shortest x).significand : ℚ) ≤ 10 ^ maxDigits := by
    exact_mod_cast significand_shortest_le h
  have hnone : (shortest x).exponent.toNat = 0 := by omega
  have hpow : (10 : ℚ) ^ (places + 1) ≤ 10 ^ (-(shortest x).exponent).toNat :=
    pow_le_pow_right₀ (by norm_num) hplaces
  rw [value_eq_natCast_div, hnone, Nat.pow_zero, Nat.mul_one]
  exact div_le_div₀ (by positivity) hsignificand (by positivity) hpow

end Shortest

end Decimal

end SheetFormula
