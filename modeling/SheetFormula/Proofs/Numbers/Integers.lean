/-
  SheetFormula.Proofs.Numbers.Integers

  The shortest decimal of an integer has no digits behind the point
  (`exponent_shortest_nonneg`).  An integer of few digits reads back at the
  latest with all of them, and one of many has its place far to the left
  of what is searched; where all digits are written, the zeros behind the point
  are trimmed.
-/
import SheetFormula.Binary64.Integral
import SheetFormula.Proofs.Numbers.Order
import SheetFormula.Proofs.Numbers.Plain

namespace SheetFormula

namespace Decimal

open Binary64

/-! ## Zeros at the end -/

theorem toDigits_mul_pow {n : Nat} (hn : 0 < n) (k : Nat) :
    Nat.toDigits 10 (n * 10 ^ k) = Nat.toDigits 10 n ++ List.replicate k '0' := by
  induction k with
  | zero => simp
  | succ k ih =>
      have hpos : 0 < n * 10 ^ k := Nat.mul_pos hn (Nat.pow_pos (by decide))
      have hten : n * 10 ^ (k + 1) = 10 * (n * 10 ^ k) + 0 := by
        rw [Nat.pow_succ, ← Nat.mul_assoc, Nat.mul_comm, Nat.add_zero]
      rw [hten, ← Nat.toDigits_append_toDigits (by decide) hpos (by decide), ih, List.append_assoc,
        List.replicate_succ']
      rfl

theorem le_trailingZeros {n : Nat} (hn : 0 < n) (k : Nat) : k ≤ trailingZeros (n * 10 ^ k) := by
  have hzeros : ∀ c ∈ List.replicate k '0', (c == '0') = true := by
    intro c hc
    rw [(List.mem_replicate.mp hc).2]
    rfl
  rw [trailingZeros, toDigits_mul_pow hn, List.reverse_append, List.reverse_replicate,
    List.takeWhile_append_of_pos hzeros, List.length_append, List.length_replicate]
  exact Nat.le_add_right _ _

theorem exponent_le_trimZeros (d : Decimal) : d.exponent ≤ d.trimZeros.exponent := by
  show d.exponent ≤ d.exponent + trailingZeros d.significand
  omega

/-! ## The search -/

/-- The first hit of a search through numbers, and no hit before it. -/
theorem exists_first_of_findSome? {α : Type} {f : Nat → Option α} {n : Nat} {a : α}
    (h : (List.range n).findSome? f = some a) :
    ∃ k < n, f k = some a ∧ ∀ j < k, f j = none := by
  obtain ⟨before, k, after, hsplit, hk, hbefore⟩ := List.findSome?_eq_some_iff.mp h
  have hmem : k ∈ List.range n := by
    rw [hsplit]
    exact List.mem_append_right _ List.mem_cons_self
  refine ⟨k, List.mem_range.mp hmem, hk, fun j hj => hbefore j ?_⟩
  have hsorted : (before ++ k :: after).Pairwise (· < ·) := hsplit ▸ List.pairwise_lt_range
  have hj' : j ∈ before ++ k :: after := by
    rw [← hsplit]
    exact List.mem_range.mpr (Nat.lt_trans hj (List.mem_range.mp hmem))
  rcases List.mem_append.mp hj' with hleft | hright
  · exact hleft
  · have hge : ∀ i ∈ k :: after, k ≤ i := by
      intro i hi
      rcases List.mem_cons.mp hi with rfl | hi
      · exact Nat.le_refl _
      · exact Nat.le_of_lt (List.rel_of_pairwise_cons (List.pairwise_append.mp hsorted).2.1 hi)
    exact absurd hj (Nat.not_lt.mpr (hge j hright))

theorem exponent_of_ofDigitCount? {word count : Nat} {d : Decimal}
    (h : ofDigitCount? word count = some d) :
    d.exponent = leadingPlace (unitsOf word) + 1 - count := by
  simp only [ofDigitCount?] at h
  split at h
  · split at h
    · cases h; rfl
    · cases h; rfl
  · split at h
    · cases h; rfl
    · cases h

section Integers

variable {word n : Nat} (hunits : unitsOf word = n * unitsPerOne) (hn : 0 < n)

include hunits hn

theorem leadingPlace_integer : leadingPlace (unitsOf word) = (digitCount n : ℤ) - 1 := by
  have hle : unitsPerOne ≤ n * unitsPerOne := Nat.le_mul_of_pos_left _ hn
  rw [leadingPlace, hunits, if_pos hle, Nat.mul_div_cancel _ unitsPerOne_pos]

/-- An integer reads back from all its digits. -/
theorem word_integer (hword : word ≤ infinityWord) (hcount : digitCount n ≤ maxDigits) :
    (⟨false, n, 0⟩ : Decimal).word = word := by
  have hpos := digitCount_pos n
  unfold maxDigits at hcount
  have hvalue : (⟨false, n, 0⟩ : Decimal).num * unitsPerOne =
      unitsOf word * (⟨false, n, 0⟩ : Decimal).den := by
    rw [hunits, num, den, Nat.pow_eq, Nat.pow_eq]
    simp
  rw [word_eq_nearestWord, nearestWord_congr (den_pos _) unitsPerOne_pos hvalue,
    nearestWord_unitsOf hword]
  · exact Nat.ne_of_gt hn
  · show underflowPlaces < 0 + (digitCount n : ℤ)
    rw [underflowPlaces]
    omega
  · show 0 + (digitCount n : ℤ) < overflowPlaces
    rw [overflowPlaces]
    omega

theorem ofDigitCount?_integer (hword : word ≤ infinityWord) (hcount : digitCount n ≤ maxDigits) :
    ofDigitCount? word (digitCount n) ≠ none := by
  have hplace : leadingPlace (unitsOf word) + 1 - (digitCount n : ℤ) = 0 := by
    rw [leadingPlace_integer hunits hn]
    omega
  have hread := word_integer hunits hn hword hcount
  simp only [ofDigitCount?, hplace, Int.neg_zero, Int.toNat_zero, Nat.pow_eq, Nat.pow_zero,
    Nat.mul_one]
  rw [hunits, Nat.mul_div_cancel _ unitsPerOne_pos, if_pos hread]
  split
  · exact Option.some_ne_none _
  · exact Option.some_ne_none _

/-- All digits of an integer end in a zero for each place behind the point. -/
theorem exponent_trimZeros_exact : 0 ≤ (exact word).trimZeros.exponent := by
  have hdigits : unitsOf word * Nat.pow 5 unitPlaces = n * 10 ^ unitPlaces := by
    rw [hunits, unitsPerOne_eq, Nat.pow_eq, ten_pow_eq, Nat.mul_assoc, Nat.mul_comm (2 ^ unitPlaces)]
  have hzeros := le_trailingZeros hn unitPlaces
  simp only [trimZeros, exact, hdigits]
  omega

theorem exponent_shortestOfWord_nonneg (hword : word ≤ infinityWord) :
    0 ≤ (shortestOfWord word).exponent := by
  rw [shortestOfWord]
  cases hfind : (List.range maxDigits).findSome? fun k => ofDigitCount? word (k + 1) with
  | none => exact exponent_trimZeros_exact hunits hn
  | some d =>
      obtain ⟨k, hk, hhit, hbefore⟩ := exists_first_of_findSome? hfind
      have hexponent := exponent_of_ofDigitCount? hhit
      rw [leadingPlace_integer hunits hn] at hexponent
      -- The search does not go beyond the number of digits.
      have hle : k + 1 ≤ digitCount n := by
        refine Nat.le_of_not_lt fun hlt => ?_
        have hpos := digitCount_pos n
        have hnone := hbefore (digitCount n - 1) (by omega)
        rw [Nat.sub_add_cancel hpos] at hnone
        exact ofDigitCount?_integer hunits hn hword (by omega) hnone
      refine le_trans ?_ (exponent_le_trimZeros d)
      rw [hexponent]
      omega

end Integers

/-- The double of an integer is a whole number of ones. -/
theorem unitsOf_of_isIntegral {x : Float} (h : isIntegral x = true) :
    magnitudeWord x < infinityWord ∧
      unitsOf (magnitudeWord x) = unitsOf (magnitudeWord x) / unitsPerOne * unitsPerOne := by
  rw [isIntegral] at h
  rcases Nat.lt_trichotomy (magnitudeWord x) infinityWord with hfinite | hinfinite | hnan
  · rw [shape_of_lt hfinite] at h
    exact ⟨hfinite, (Nat.div_mul_cancel (Nat.dvd_of_mod_eq_zero (beq_iff_eq.mp h))).symm⟩
  · rw [shape_of_eq hinfinite] at h
    cases h
  · rw [shape_of_gt hnan] at h
    cases h

/-- Without its sign an integer is zero or at least one. -/
theorem whole_pos_of_isIntegral {x : Float} (h : isIntegral x = true) (hne : magnitudeWord x ≠ 0) :
    0 < unitsOf (magnitudeWord x) / unitsPerOne := by
  obtain ⟨-, hunits⟩ := unitsOf_of_isIntegral h
  have hpos := unitsOf_pos (Nat.pos_of_ne_zero hne)
  refine Nat.pos_of_ne_zero fun hzero => ?_
  rw [hzero, Nat.zero_mul] at hunits
  omega

/-- The shortest decimal of an integer has no place behind the point. -/
theorem exponent_shortest_nonneg {x : Float} (h : isIntegral x = true) :
    0 ≤ (shortest x).exponent := by
  obtain ⟨hfinite, hunits⟩ := unitsOf_of_isIntegral h
  rw [shortest]
  split
  · exact Int.le_refl 0
  · next hne =>
    exact exponent_shortestOfWord_nonneg hunits (whole_pos_of_isIntegral h hne)
      (Nat.le_of_lt hfinite)

/-- The shortest decimal of a small integer is the integer. -/
theorem significand_shortest {x : Float} (h : isIntegral x = true)
    (hsmall : unitsOf (magnitudeWord x) / unitsPerOne < 2 ^ 53) :
    (shortest x).significand * 10 ^ (shortest x).exponent.toNat =
      unitsOf (magnitudeWord x) / unitsPerOne := by
  obtain ⟨hfinite, hunits⟩ := unitsOf_of_isIntegral h
  have hnearest := (shortest x).isNearest_word
  rw [word_shortest hfinite] at hnearest
  have hvalue : (shortest x).value =
      ((shortest x).significand * 10 ^ (shortest x).exponent.toNat : Nat) := by
    have hexponent := Int.toNat_of_nonneg (exponent_shortest_nonneg h)
    rw [value, Nat.cast_mul, Nat.cast_pow, Nat.cast_ofNat, ← zpow_natCast, hexponent]
  rw [hvalue] at hnearest
  refine hnearest.eq_of_valueOf ?_ hsmall
  rw [valueOf, hunits, Nat.cast_mul, mul_div_cancel_right₀ _ (ne_of_gt unitsPerOne_cast_pos),
    Nat.mul_div_cancel _ unitsPerOne_pos]

/-- Without places behind the point the digits are those of a natural number. -/
theorem positional_text_of_nonneg {d : Decimal} (h : 0 ≤ d.exponent) (hne : 0 < d.significand) :
    d.positional.text =
      signText d.negative ++ Nat.toDigits 10 (d.significand * 10 ^ d.exponent.toNat) := by
  have hpadding : 0 + 1 - d.digits.length = 0 := by
    have hpos := digitCount_pos d.significand
    show 0 + 1 - digitCount d.significand = 0
    omega
  have hplaces : (-d.exponent).toNat = 0 := by omega
  have hdigits : Nat.toDigits 10 d.significand ++ List.replicate d.exponent.toNat '0' =
      Nat.toDigits 10 (d.significand * 10 ^ d.exponent.toNat) := (toDigits_mul_pow hne _).symm
  simp only [positional, Positional.text, hplaces, hpadding, List.replicate_zero, List.nil_append,
    Nat.sub_zero, List.take_length, List.drop_length, fractionText, List.append_nil]
  rw [digits, hdigits]

end Decimal

namespace Binary64

/-- Within its bounds the integer part of a finite double is that of its magnitude. -/
theorem toIntWithin_of_finite {x : Float} {lo hi : ℤ} (h : magnitudeWord x < infinityWord)
    (hlo : lo ≤ -((unitsOf (magnitudeWord x) / unitsPerOne : Nat) : ℤ))
    (hhi : ((unitsOf (magnitudeWord x) / unitsPerOne : Nat) : ℤ) ≤ hi) :
    toIntWithin lo hi x =
      if isNegative x then -((unitsOf (magnitudeWord x) / unitsPerOne : Nat) : ℤ)
      else (unitsOf (magnitudeWord x) / unitsPerOne : Nat) := by
  rw [toIntWithin, shape_of_lt h]
  generalize unitsOf (magnitudeWord x) = units at hlo hhi
  cases isNegative x with
  | false =>
      show max lo (min hi ((units / unitsPerOne : Nat) : ℤ)) = ((units / unitsPerOne : Nat) : ℤ)
      generalize units / unitsPerOne = n at hlo hhi ⊢
      omega
  | true =>
      show max lo (min hi (-((units / unitsPerOne : Nat) : ℤ))) = -((units / unitsPerOne : Nat) : ℤ)
      generalize units / unitsPerOne = n at hlo hhi ⊢
      omega

end Binary64

end SheetFormula
