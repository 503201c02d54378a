/-
  SheetFormula.Proofs.Numbers.Shortest

  The shortest decimal of a finite double reads back as the double.  Where the
  search finds a decimal, it has been tried; where it finds none, all digits
  are written, and their value is exactly the double's.  Zeros at the end of a
  significand carry no value (`word_mul_pow`).
-/
import Mathlib
import SheetFormula.Decimal.Shortest

namespace SheetFormula

/-! ## Quotients -/

/-- A common factor does not change what a quotient is rounded to. -/
theorem roundDiv_mul_mul (tie : Tie) (num den : Nat) {k : Nat} (hk : 0 < k) :
    roundDiv tie (num * k) (den * k) = roundDiv tie num den := by
  have hq : num * k / (den * k) = num / den := Nat.mul_div_mul_right num den hk
  have hr : num * k % (den * k) = num % den * k := Nat.mul_mod_mul_right k num den
  have hbelow : 2 * (num % den * k) < den * k ↔ 2 * (num % den) < den := by
    rw [← Nat.mul_assoc]
    exact Nat.mul_lt_mul_right hk
  have habove : den * k < 2 * (num % den * k) ↔ den < 2 * (num % den) := by
    rw [← Nat.mul_assoc]
    exact Nat.mul_lt_mul_right hk
  simp only [roundDiv, hq, hr, hbelow, habove]

namespace Binary64

theorem nearestWord_mul_mul (num den : Nat) {k : Nat} (hk : 0 < k) :
    nearestWord (num * k) (den * k) = nearestWord num den := by
  have hunits : num * k * unitsPerOne = num * unitsPerOne * k := Nat.mul_right_comm ..
  simp only [nearestWord, hunits, Nat.mul_div_mul_right _ _ hk]
  rw [Nat.mul_right_comm den k, roundDiv_mul_mul _ _ _ hk]

/-- Equal quotients have the same nearest double. -/
theorem nearestWord_congr {num den num' den' : Nat} (hden : 0 < den) (hden' : 0 < den')
    (h : num * den' = num' * den) : nearestWord num den = nearestWord num' den' := by
  rw [← nearestWord_mul_mul num den hden', h, Nat.mul_comm den den',
    nearestWord_mul_mul num' den' hden]

theorem significandOf_eq_zero_iff {word : Nat} : significandOf word = 0 ↔ word = 0 := by
  have hsum := exponentOf_mul_add_significandOf word
  constructor
  · intro hzero
    have hnone := @exponentOf_eq_zero_of_lt word (by rw [hzero]; exact fieldWeight_pos)
    rw [hnone, hzero] at hsum
    exact hsum.symm
  · rintro rfl
    rfl

/-- A double is its sign and its magnitude. -/
theorem ofWord_magnitudeWord (x : Float) : ofWord (isNegative x) (magnitudeWord x) = x := by
  have hlt : x.toBits.toNat < 2 * signWeight := x.toBits.toNat_lt
  have hword : magnitudeWord x + (if isNegative x then signWeight else 0) = x.toBits.toNat := by
    unfold isNegative magnitudeWord
    by_cases h : signWeight ≤ x.toBits.toNat
    · have hmod : x.toBits.toNat % signWeight = x.toBits.toNat - signWeight := by
        rw [Nat.mod_eq_sub_mod h, Nat.mod_eq_of_lt (by omega)]
      simp only [h, decide_true, if_true, hmod]
      omega
    · simp only [h, decide_false, Bool.false_eq_true, if_false, Nat.add_zero]
      exact Nat.mod_eq_of_lt (Nat.lt_of_not_le h)
  rw [ofWord, hword, UInt64.ofNat_toNat, Float.ofBits_toBits]

end Binary64

/-! ## Digits -/

theorem digitCount_le_iff {n k : Nat} (hk : 0 < k) : digitCount n ≤ k ↔ n < 10 ^ k :=
  Nat.length_toDigits_le_iff (by decide) hk

/-- Zeros behind a positive number are digits. -/
theorem digitCount_mul_pow {n : Nat} (hn : 0 < n) (k : Nat) :
    digitCount (n * 10 ^ k) = digitCount n + k := by
  have hpos := digitCount_pos n
  have hk : 0 < 10 ^ k := Nat.pow_pos (by decide)
  apply Nat.le_antisymm
  · rw [digitCount_le_iff (by omega), Nat.pow_add]
    exact Nat.mul_lt_mul_of_pos_right (lt_ten_pow_digitCount n) hk
  · refine Nat.le_of_not_lt fun hlt => ?_
    obtain ⟨m, hm⟩ : ∃ m, digitCount n = m + 1 := ⟨digitCount n - 1, by omega⟩
    have hlong := digitCount_pos (n * 10 ^ k)
    have hle : digitCount (n * 10 ^ k) ≤ m + k := by omega
    rw [digitCount_le_iff (by omega), Nat.pow_add] at hle
    -- One digit less than counted would not hold `n` either.
    have hn' : n < 10 ^ m := Nat.lt_of_mul_lt_mul_right hle
    cases m with
    | zero => omega
    | succ m =>
        have := (digitCount_le_iff (Nat.succ_pos m)).mpr hn'
        omega

namespace Decimal

open Binary64

/-- Zeros moved from the exponent into the significand change nothing. -/
theorem word_mul_pow (negative negative' : Bool) (n k : Nat) (e : Int) :
    (⟨negative, n * 10 ^ k, e⟩ : Decimal).word = (⟨negative', n, e + k⟩ : Decimal).word := by
  have hk : 0 < 10 ^ k := Nat.pow_pos (by decide)
  by_cases hn : n = 0
  · simp [word, hn]
  · have hne : n * 10 ^ k ≠ 0 := Nat.mul_ne_zero hn (Nat.ne_of_gt hk)
    -- The guards look at the place of the first digit, which does not move.
    have hplaces : e + (digitCount (n * 10 ^ k) : Nat) = e + k + (digitCount n : Nat) := by
      rw [digitCount_mul_pow (Nat.pos_of_ne_zero hn)]
      omega
    have hvalue : (⟨negative, n * 10 ^ k, e⟩ : Decimal).num * (⟨negative', n, e + k⟩ : Decimal).den
        = (⟨negative', n, e + k⟩ : Decimal).num * (⟨negative, n * 10 ^ k, e⟩ : Decimal).den := by
      simp only [num, den, Nat.pow_eq, Nat.mul_assoc, ← Nat.pow_add]
      congr 2
      omega
    simp only [word, hn, hne, if_false, hplaces]
    rw [nearestWord_congr (den_pos _) (den_pos _) hvalue]

/-- The digits of a number end in as many zeros as are counted. -/
theorem mul_pow_trailingZeros (n : Nat) :
    n / 10 ^ trailingZeros n * 10 ^ trailingZeros n = n := by
  have hsplit : (Nat.toDigits 10 n).reverse
      = List.replicate (trailingZeros n) '0'
        ++ (Nat.toDigits 10 n).reverse.dropWhile (· == '0') := by
    have hzeros : (Nat.toDigits 10 n).reverse.takeWhile (· == '0')
        = List.replicate (trailingZeros n) '0' := by
      refine List.eq_replicate_iff.mpr ⟨rfl, fun c hc => ?_⟩
      simpa using List.all_eq_true.mp List.all_takeWhile c hc
    rw [← hzeros, List.takeWhile_append_dropWhile]
  have hdigits := congrArg List.reverse hsplit
  rw [List.reverse_reverse, List.reverse_append, List.reverse_replicate] at hdigits
  have hvalue := @Nat.ofDigitChars_ten_toDigits n
  rw [hdigits, Nat.ofDigitChars_append, Nat.ofDigitChars_replicate_zero] at hvalue
  -- The digits before the zeros spell the quotient.
  have hdvd : 10 ^ trailingZeros n ∣ n := ⟨_, hvalue.symm⟩
  exact Nat.div_mul_cancel hdvd

theorem word_trimZeros (d : Decimal) : d.trimZeros.word = d.word := by
  have h := word_mul_pow d.negative d.negative (d.significand / 10 ^ trailingZeros d.significand)
    (trailingZeros d.significand) d.exponent
  rw [mul_pow_trailingZeros] at h
  exact h.symm

/-! ## The shortest decimal reads back -/

theorem unitsOf_pos {word : Nat} (h : 0 < word) : 0 < unitsOf word := by
  have hsignificand : significandOf word ≠ 0 := mt significandOf_eq_zero_iff.mp (Nat.ne_of_gt h)
  exact Nat.mul_pos (Nat.pos_of_ne_zero hsignificand) (pow_two_pos _)

theorem pow_five_pos (n : Nat) : 0 < Nat.pow 5 n := Nat.pow_pos (by decide)

theorem unitsPerOne_eq : unitsPerOne = 2 ^ unitPlaces := by
  unfold unitsPerOne
  rw [Nat.pow_eq]

/-- The binary places of the least power of two that is no finite double. -/
def limitPlaces : Nat := 1024

theorem unitsOf_lt {word : Nat} (h : word < infinityWord) :
    unitsOf word < 2 ^ limitPlaces * unitsPerOne := by
  have hexp : 53 + exponentOf word ≤ limitPlaces + unitPlaces := by
    have hdiv : word / fieldWeight < 2047 :=
      (Nat.div_lt_iff_lt_mul fieldWeight_pos).mpr h
    unfold exponentOf limitPlaces unitPlaces
    omega
  have hsig : significandOf word < 2 ^ 53 := significandOf_lt word
  rw [unitsPerOne_eq, ← Nat.pow_add]
  calc significandOf word * 2 ^ exponentOf word
      < 2 ^ 53 * 2 ^ exponentOf word := Nat.mul_lt_mul_of_pos_right hsig (Nat.two_pow_pos _)
    _ = 2 ^ (53 + exponentOf word) := by rw [Nat.pow_add]
    _ ≤ 2 ^ (limitPlaces + unitPlaces) := Nat.pow_le_pow_right Nat.two_pos hexp

/-- Within the range of the doubles a decimal is rounded. -/
theorem word_eq_nearestWord {d : Decimal} (hne : d.significand ≠ 0)
    (hlow : underflowPlaces < d.exponent + digitCount d.significand)
    (hhigh : d.exponent + digitCount d.significand < overflowPlaces) :
    d.word = nearestWord d.num d.den := by
  have hlow' := Int.not_le.mpr hlow
  have hhigh' := Int.not_le.mpr hhigh
  simp only [word, hne, hlow', hhigh', if_false]

theorem ten_pow_eq (k : Nat) : 10 ^ k = 5 ^ k * 2 ^ k := Nat.mul_pow 5 2 k

/-- All digits of a magnitude read back. -/
theorem word_exact {word : Nat} (hpos : 0 < word) (hfin : word < infinityWord) :
    (exact word).word = word := by
  have hunits := unitsOf_pos hpos
  have hfive := pow_five_pos unitPlaces
  -- The least magnitude is one unit, `5 ^ 1074` of the last decimal place.
  have hlow : 750 < digitCount (unitsOf word * Nat.pow 5 unitPlaces) := by
    refine Nat.lt_of_not_le fun hle => ?_
    have hlt := (digitCount_le_iff (by decide)).mp hle
    have hmul : 1 * Nat.pow 5 unitPlaces ≤ unitsOf word * Nat.pow 5 unitPlaces :=
      Nat.mul_le_mul_right _ hunits
    have hbig : 10 ^ 750 ≤ 1 * Nat.pow 5 unitPlaces := by decide +kernel
    exact absurd hlt (Nat.not_lt.mpr (Nat.le_trans hbig hmul))
  have hhigh : digitCount (unitsOf word * Nat.pow 5 unitPlaces) ≤ 1383 := by
    rw [digitCount_le_iff (by decide)]
    have hmul : unitsOf word * Nat.pow 5 unitPlaces
        < 2 ^ limitPlaces * unitsPerOne * Nat.pow 5 unitPlaces :=
      Nat.mul_lt_mul_of_pos_right (unitsOf_lt hfin) hfive
    have hbig : 2 ^ limitPlaces * unitsPerOne * Nat.pow 5 unitPlaces ≤ 10 ^ 1383 := by
      decide +kernel
    exact Nat.lt_of_lt_of_le hmul hbig
  -- The quotient is that of the units, with a factor of `5 ^ 1074` above and below.
  have hvalue : (exact word).num * unitsPerOne = unitsOf word * (exact word).den := by
    simp only [num, den, exact, Int.neg_neg, Int.toNat_natCast, Int.toNat_neg_natCast, Nat.pow_eq,
      Nat.pow_zero, Nat.mul_one]
    rw [unitsPerOne_eq, ten_pow_eq, Nat.mul_assoc]
  have hplaces : (exact word).exponent + digitCount (exact word).significand
      = -1074 + digitCount (unitsOf word * Nat.pow 5 unitPlaces) := rfl
  rw [word_eq_nearestWord, nearestWord_congr (den_pos _) unitsPerOne_pos hvalue,
    nearestWord_unitsOf (Nat.le_of_lt hfin)]
  · exact Nat.ne_of_gt (Nat.mul_pos hunits hfive)
  · rw [hplaces, underflowPlaces]
    omega
  · rw [hplaces, overflowPlaces]
    omega

theorem word_shortestOfWord {word : Nat} (hpos : 0 < word) (hfin : word < infinityWord) :
    (shortestOfWord word).word = word := by
  rw [shortestOfWord, word_trimZeros]
  cases hfind : (List.range maxDigits).findSome? fun k => ofDigitCount? word (k + 1) with
  | none => exact word_exact hpos hfin
  | some d =>
      obtain ⟨k, _, hk⟩ := List.exists_of_findSome?_eq_some hfind
      exact word_of_ofDigitCount? hk

theorem negative_shortest (x : Float) : (shortest x).negative = isNegative x := by
  unfold shortest
  split <;> rfl

theorem word_shortest {x : Float} (h : magnitudeWord x < infinityWord) :
    (shortest x).word = magnitudeWord x := by
  unfold shortest
  by_cases h0 : magnitudeWord x = 0
  · rw [if_pos h0, h0]
    rfl
  · rw [if_neg h0]
    exact word_shortestOfWord (Nat.pos_of_ne_zero h0) h

/-- The shortest decimal of a finite double reads back as the double. -/
theorem toFloat_shortest {x : Float} (h : magnitudeWord x < infinityWord) :
    (shortest x).toFloat = x := by
  rw [toFloat, word_shortest h, negative_shortest, ofWord_magnitudeWord]

end Decimal

end SheetFormula
