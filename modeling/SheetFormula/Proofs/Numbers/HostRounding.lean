/-
  SheetFormula.Proofs.Numbers.HostRounding

  How the host rounds.  It keeps a significand and two of the bits behind it,
  which tell whether the number is on the significand, below, on or above the
  half to the next (`Represents`); shifting a bit out keeps them right.  What it
  rounds and packs in the end is the nearest double of the number
  (`pack_roundWithAccuracy`), with a carry into the next exponent and an
  overflow to an infinity where they belong.
-/
import SheetFormula.Proofs.Numbers.Rounded

namespace SheetFormula

namespace Binary64

open Float.Model
open Float.Model.UnpackedFloat (Accuracy ExtendedMantissa)

/-! ## Significands with the bits behind them -/

/-- What an accuracy says about the part of one by which a number exceeds its significand. -/
def Tells : Accuracy → ℚ → Prop
  | .exact, part => part = 0
  | .inexact .lt, part => 0 < part ∧ 2 * part < 1
  | .inexact .eq, part => 2 * part = 1
  | .inexact .gt, part => 1 < 2 * part ∧ part < 1

theorem Tells.bounds {accuracy : Accuracy} {part : ℚ} (h : Tells accuracy part) :
    0 ≤ part ∧ part < 1 := by
  unfold Tells at h
  split at h
  · exact ⟨le_of_eq h.symm, by linarith⟩
  · exact ⟨le_of_lt h.1, by linarith⟩
  · exact ⟨by linarith, by linarith⟩
  · exact ⟨by linarith, h.2⟩

theorem tells_exact (m : Nat) : Tells .exact ((m : ℚ) - m) := sub_self _

/-- A remainder tells the part that it is of the divisor. -/
theorem tells_accuracyOfFraction {num den : Nat} (h : num < den) :
    Tells (UnpackedFloat.accuracyOfFraction num den) (num / den) := by
  have hden : (0 : ℚ) < den := by exact_mod_cast Nat.zero_lt_of_lt h
  rw [UnpackedFloat.accuracyOfFraction]
  rcases Nat.eq_zero_or_pos num with rfl | hpos
  · rw [if_pos rfl, Nat.cast_zero, zero_div]
    rfl
  · have hpos' : (0 : ℚ) < num := by exact_mod_cast hpos
    rw [if_neg (Nat.ne_of_gt hpos)]
    rcases lt_trichotomy (2 * num) den with hlt | heq | hgt
    · rw [compare_lt_iff_lt.mpr hlt]
      refine ⟨div_pos hpos' hden, ?_⟩
      rw [← mul_div_assoc, div_lt_one hden]
      exact_mod_cast hlt
    · rw [compare_eq_iff_eq.mpr heq]
      show 2 * ((num : ℚ) / den) = 1
      rw [← mul_div_assoc, div_eq_one_iff_eq (ne_of_gt hden)]
      exact_mod_cast heq
    · rw [compare_gt_iff_gt.mpr hgt]
      constructor
      · rw [← mul_div_assoc, one_lt_div hden]
        exact_mod_cast hgt
      · rw [div_lt_one hden]
        exact_mod_cast h

/-- A significand with the bits that have been shifted out of it stands for the number. -/
def Represents (em : ExtendedMantissa) (v : ℚ) : Prop := Tells em.accuracy (v - em.mantissa)

namespace Represents

variable {em : ExtendedMantissa} {v : ℚ}

theorem ofMantissaAndAccuracy {m : Nat} {accuracy : Accuracy} (h : Tells accuracy (v - m)) :
    Represents (.ofMantissaAndAccuracy m accuracy) v := by
  cases accuracy with
  | exact => exact h
  | inexact half => cases half <;> exact h

/-- A bit that is shifted out halves the number. -/
theorem shiftRightOne (h : Represents em v) : Represents em.shiftRightOne (v / 2) := by
  obtain ⟨m, round, sticky⟩ := em
  have hm : (m : ℚ) = 2 * (m / 2 : Nat) + (m % 2 : Nat) := by
    exact_mod_cast (Nat.div_add_mod m 2).symm
  have h : Tells (ExtendedMantissa.accuracy ⟨m, round, sticky⟩) (v - m) := h
  show Tells (ExtendedMantissa.accuracy ⟨m / 2, m % 2 != 0, round || sticky⟩) (v / 2 - (m / 2 : Nat))
  rw [hm] at h
  generalize m / 2 = half at h ⊢
  -- The bit that comes out is the new first bit, and what was out before only sticks.
  rcases Nat.mod_two_eq_zero_or_one m with hbit | hbit <;> rw [hbit] at h ⊢ <;>
    cases round <;> cases sticky <;>
    simp only [ExtendedMantissa.accuracy, Tells, Nat.cast_zero, Nat.cast_one] at h <;>
    simp [ExtendedMantissa.accuracy, Tells] <;> first | linarith | constructor <;> linarith

theorem shiftRight (h : Represents em v) (n : Nat) : Represents (em >>> n) (v / 2 ^ n) := by
  induction n with
  | zero =>
      rw [pow_zero, div_one]
      exact h
  | succ n ih =>
      rw [pow_succ, ← div_div]
      exact ih.shiftRightOne

theorem roundedMantissa (h : Represents em v) :
    em.roundedMantissa = em.mantissa ∧
        (2 * (v - em.mantissa) < 1 ∨ 2 * (v - em.mantissa) = 1 ∧ em.mantissa % 2 = 0) ∨
      em.roundedMantissa = em.mantissa + 1 ∧
        (1 < 2 * (v - em.mantissa) ∨ 2 * (v - em.mantissa) = 1 ∧ (em.mantissa + 1) % 2 = 0) := by
  unfold Represents at h
  rw [ExtendedMantissa.roundedMantissa]
  generalize v - em.mantissa = part at h ⊢
  generalize em.mantissa = m
  generalize em.accuracy = accuracy at h ⊢
  cases accuracy with
  | exact =>
    have hpart : part = 0 := h
    refine .inl ⟨rfl, .inl ?_⟩
    rw [hpart]
    norm_num
  | inexact half =>
    cases half with
    | lt => exact .inl ⟨rfl, .inl h.2⟩
    | gt => exact .inr ⟨rfl, .inl h.1⟩
    | eq =>
      rcases Nat.mod_two_eq_zero_or_one m with heven | hodd
      · exact .inl ⟨by rw [Accuracy.roundToNearestEven, heven, Nat.add_zero], .inr ⟨h, heven⟩⟩
      · exact .inr ⟨by rw [Accuracy.roundToNearestEven, hodd], .inr ⟨h, by omega⟩⟩

end Represents

/-! ## Bits of a significand and an exponent -/

theorem toModel_ofWord {negative : Bool} {word : Nat} (h : word ≤ infinityWord) :
    (ofWord negative word).toModel = pack (unpackedOf negative word) := by
  have hunpack := unpack_eq_unpackedOf (bitsOf negative word)
  rw [mod_toNat_bitsOf h, signWeight_le_toNat_bitsOf h] at hunpack
  exact congrArg pack hunpack

theorem pack_overflow {sign : UnpackedFloat.Sign} {m : Nat} {e : ℤ} (hm : 0 < m) (h : 972 ≤ e) :
    pack (.finite sign m e hm) = pack (.infinity sign) := by
  have hlarge : 2 ^ Format.binary64.exponentBits ≤
      (e + Format.binary64.exponentBias + Format.binary64.mantissaBitsWithoutImplicit).toNat + 1 := by
    show 2 ^ 11 ≤ (e + 1023 + 52).toNat + 1
    omega
  have hbits : UnpackedFloat.pack .binary64 (.finite sign m e hm) =
      UnpackedFloat.pack .binary64 (.infinity sign) := if_pos hlarge
  unfold pack
  simp only [hbits]

theorem unpackedOf_add {negative : Bool} {exponent significand : Nat}
    (hlt : significand < 2 * fieldWeight) (hlead : exponent = 0 ∨ fieldWeight ≤ significand)
    (hpos : 0 < significand) (hfinite : exponent * fieldWeight + significand < infinityWord) :
    unpackedOf negative (exponent * fieldWeight + significand) =
      .finite (signOf negative) significand ((exponent : ℤ) - unitPlaces) hpos := by
  have hsignificand := significandOf_add hlt hlead
  have hne : ¬ significandOf (exponent * fieldWeight + significand) = 0 := by omega
  rw [unpackedOf, if_neg (by omega), if_neg (by omega), dif_neg hne]
  simp only [hsignificand, exponentOf_add hlt hlead]

/-- Bits are made of a significand and an exponent as a word is; too large a number is an infinity. -/
theorem pack_finite {negative : Bool} {exponent significand : Nat}
    (hlt : significand < 2 * fieldWeight) (hlead : exponent = 0 ∨ fieldWeight ≤ significand)
    (hpos : 0 < significand) :
    pack (.finite (signOf negative) significand ((exponent : ℤ) - unitPlaces) hpos) =
      (ofWord negative (min infinityWord (exponent * fieldWeight + significand))).toModel := by
  rw [toModel_ofWord (Nat.min_le_left ..)]
  rcases Nat.lt_or_ge (exponent * fieldWeight + significand) infinityWord with hfinite | hinfinite
  · rw [Nat.min_eq_right (Nat.le_of_lt hfinite), unpackedOf_add hlt hlead hpos hfinite]
  · have hexponent : 2046 ≤ exponent := by
      unfold infinityWord at hinfinite
      unfold fieldWeight at hinfinite hlt
      omega
    have hunpacked : unpackedOf negative infinityWord = .infinity (signOf negative) := by
      rw [unpackedOf, if_neg (Nat.lt_irrefl _), if_pos rfl]
    rw [Nat.min_eq_left hinfinite, hunpacked, pack_overflow hpos]
    unfold unitPlaces
    omega

/-- A number that may be zero. -/
def finiteOf (sign : UnpackedFloat.Sign) (m : Nat) (e : ℤ) : UnpackedFloat :=
  if h : m = 0 then .zero sign else .finite sign m e (Nat.pos_of_ne_zero h)

theorem pack_finiteOf {negative : Bool} {exponent significand : Nat}
    (hlt : significand < 2 * fieldWeight) (hlead : exponent = 0 ∨ fieldWeight ≤ significand) :
    pack (finiteOf (signOf negative) significand ((exponent : ℤ) - unitPlaces)) =
      (ofWord negative (min infinityWord (exponent * fieldWeight + significand))).toModel := by
  rcases Nat.eq_zero_or_pos significand with rfl | hpos
  · have hexponent : exponent = 0 := by
      have := fieldWeight_pos
      omega
    rw [hexponent, toModel_ofWord (Nat.min_le_left ..)]
    rfl
  · rw [finiteOf, dif_neg (Nat.ne_of_gt hpos)]
    exact pack_finite hlt hlead hpos

/-! ## Rounding to a format -/

theorem targetExponent_eq (m : Nat) (e : ℤ) :
    Format.binary64.targetExponent (totalExponent m e) = max (m.log2 + e - 52) (-unitPlaces) := by
  show max ((m.log2 : ℤ) + 1 + e - (1 + 52 : Nat)) (3 - 2 ^ (11 - 1) - (1 + 52 : Nat)) = _
  unfold unitPlaces
  congr 1
  omega

theorem mantissa_shiftRight (em : ExtendedMantissa) (n : Nat) :
    (em >>> n).mantissa = em.mantissa / 2 ^ n := by
  induction n with
  | zero => exact (Nat.div_one _).symm
  | succ n ih =>
      show (em >>> n).mantissa / 2 = _
      rw [ih, Nat.div_div_eq_div_mul, pow_succ]

/-- Enough bits are shifted out to leave a significand, if there are enough. -/
theorem exists_shift {m : Nat} {e : ℤ} (h : fieldWeight ≤ m ∨ e ≤ -unitPlaces) :
    ∃ k exponent : Nat,
      (Format.binary64.targetExponent (totalExponent m e) - e).toNat = k ∧
      e + k = (exponent : ℤ) - unitPlaces ∧ m / 2 ^ k < 2 * fieldWeight ∧
      (exponent = 0 ∨ fieldWeight ≤ m / 2 ^ k) := by
  have hfield : fieldWeight = 2 ^ 52 := by decide
  have hlog : fieldWeight ≤ m → 52 ≤ m.log2 := fun hm =>
    (Nat.le_log2 (by have := fieldWeight_pos; omega)).mpr (hfield ▸ hm)
  have hlt : m < 2 ^ (m.log2 + 1) := Nat.lt_log2_self
  rw [targetExponent_eq, hfield]
  unfold unitPlaces at h ⊢
  rcases le_or_gt ((m.log2 : ℤ) + e - 52) (-1074) with hleast | hmore
  · refine ⟨(-1074 - e).toNat, 0, ?_, ?_, ?_, .inl rfl⟩
    · omega
    · omega
    · rw [Nat.div_lt_iff_lt_mul (Nat.two_pow_pos _), ← Nat.pow_succ', ← Nat.pow_add]
      exact Nat.lt_of_lt_of_le hlt (Nat.pow_le_pow_right Nat.two_pos (by omega))
  · have hbits : 52 ≤ m.log2 := by
      rcases h with hm | he
      · exact hlog hm
      · omega
    have hne : m ≠ 0 := by
      rintro rfl
      rw [Nat.log2_zero] at hbits
      omega
    refine ⟨m.log2 - 52, (m.log2 + e - 52 + 1074).toNat, ?_, ?_, ?_, .inr ?_⟩
    · omega
    · omega
    · rw [Nat.div_lt_iff_lt_mul (Nat.two_pow_pos _), ← Nat.pow_succ', ← Nat.pow_add]
      exact Nat.lt_of_lt_of_le hlt (Nat.pow_le_pow_right Nat.two_pos (by omega))
    · rw [Nat.le_div_iff_mul_le (Nat.two_pow_pos _), ← Nat.pow_add]
      exact le_trans (Nat.pow_le_pow_right Nat.two_pos (by omega)) (Nat.log2_self_le hne)

/-- A significand that has been rounded up to the next power of two gives up its last bit. -/
theorem pack_carried {negative : Bool} {exponent significand : Nat}
    (hle : significand ≤ 2 * fieldWeight) (hlead : exponent = 0 ∨ fieldWeight ≤ significand) :
    pack (finiteOf (signOf negative)
        (UnpackedFloat.shiftToTargetExponent .binary64 significand ((exponent : ℤ) - unitPlaces)
          .exact).1.mantissa
        (UnpackedFloat.shiftToTargetExponent .binary64 significand ((exponent : ℤ) - unitPlaces)
          .exact).2) =
      (ofWord negative (min infinityWord (exponent * fieldWeight + significand))).toModel := by
  have hshift : ∀ k : Nat,
      (Format.binary64.targetExponent (totalExponent significand ((exponent : ℤ) - unitPlaces)) -
        ((exponent : ℤ) - unitPlaces)).toNat = k →
      UnpackedFloat.shiftToTargetExponent .binary64 significand ((exponent : ℤ) - unitPlaces) .exact =
        ((⟨significand, false, false⟩ : ExtendedMantissa) >>> k, (exponent : ℤ) - unitPlaces + k) := by
    rintro k rfl
    rfl
  rw [targetExponent_eq] at hshift
  rcases Nat.lt_or_eq_of_le hle with hlt | rfl
  · have hlog : significand.log2 ≤ 52 := by
      rcases Nat.eq_zero_or_pos significand with rfl | hpos
      · exact Nat.zero_le _
      · exact Nat.le_of_lt_succ ((Nat.log2_lt (Nat.ne_of_gt hpos)).mpr hlt)
    rw [hshift 0 (by omega), mantissa_shiftRight, pow_zero, Nat.div_one, Nat.cast_zero, add_zero]
    exact pack_finiteOf hlt hlead
  · have hlog : (2 * fieldWeight).log2 = 53 := by decide
    have hpos := fieldWeight_pos
    rw [hshift 1 (by rw [hlog]; omega), mantissa_shiftRight, pow_one,
      Nat.mul_div_cancel_left _ Nat.two_pos]
    have hword : exponent * fieldWeight + 2 * fieldWeight =
        (exponent + 1) * fieldWeight + fieldWeight := by
      rw [Nat.add_mul]
      omega
    have hexponent : (exponent : ℤ) - unitPlaces + (1 : Nat) = ((exponent + 1 : Nat) : ℤ) - unitPlaces := by
      omega
    rw [hword, hexponent]
    exact pack_finiteOf (by omega) (.inr (Nat.le_refl _))

theorem zpow_sub_unitPlaces (exponent : Nat) :
    (2 : ℚ) ^ ((exponent : ℤ) - unitPlaces) = 2 ^ exponent / unitsPerOne := by
  rw [zpow_sub₀ two_ne_zero, zpow_natCast, zpow_natCast, Decimal.unitsPerOne_eq]
  push_cast
  rfl

/-- The host rounds a number that it knows to the last place and a half to the nearest double. -/
theorem pack_roundWithAccuracy (negative : Bool) {m : Nat} {e : ℤ} {accuracy : Accuracy} {v : ℚ}
    (hv : Tells accuracy (v - m)) (h : fieldWeight ≤ m ∨ e ≤ -unitPlaces) :
    ∃ word, IsNearest (v * 2 ^ e) word ∧
      pack (UnpackedFloat.roundWithAccuracy .binary64 (signOf negative) m e accuracy) =
        (ofWord negative word).toModel := by
  obtain ⟨k, exponent, hk, he, hlt, hlead⟩ := exists_shift h
  have hrep := (Represents.ofMantissaAndAccuracy hv).shiftRight k
  have hmantissa : (ExtendedMantissa.ofMantissaAndAccuracy m accuracy >>> k).mantissa = m / 2 ^ k := by
    rw [mantissa_shiftRight]
    congr 1
    cases accuracy with
    | exact => rfl
    | inexact half => cases half <;> rfl
  have hbounds := Tells.bounds hrep
  have hround := hrep.roundedMantissa
  rw [hmantissa] at hbounds hround
  have hunfold : UnpackedFloat.roundWithAccuracy .binary64 (signOf negative) m e accuracy =
      finiteOf (signOf negative)
        (UnpackedFloat.shiftToTargetExponent .binary64
          (ExtendedMantissa.ofMantissaAndAccuracy m accuracy >>> k).roundedMantissa (e + k)
          .exact).1.mantissa
        (UnpackedFloat.shiftToTargetExponent .binary64
          (ExtendedMantissa.ofMantissaAndAccuracy m accuracy >>> k).roundedMantissa (e + k)
          .exact).2 := by
    subst hk
    rfl
  have hnumber : v * 2 ^ e =
      (((m / 2 ^ k : Nat) : ℚ) + (v / 2 ^ k - (m / 2 ^ k : Nat))) * (2 ^ exponent / unitsPerOne) := by
    rw [add_sub_cancel, ← zpow_sub_unitPlaces, ← he, zpow_add₀ two_ne_zero, zpow_natCast]
    field_simp
  rw [hunfold, he, hnumber]
  generalize (ExtendedMantissa.ofMantissaAndAccuracy m accuracy >>> k).roundedMantissa = significand
    at hround ⊢
  exact ⟨min infinityWord (exponent * fieldWeight + significand),
    .of_rounded hlt hlead hbounds.1 hbounds.2 hround, pack_carried (by omega) (by omega)⟩

/-- The host rounds a whole number of powers of two to the nearest double. -/
theorem pack_round (negative : Bool) {m : Nat} (e : ℤ) (hm : 0 < m) :
    ∃ word, IsNearest (m * 2 ^ e) word ∧
      pack (UnpackedFloat.round .binary64 (signOf negative) m e) = (ofWord negative word).toModel := by
  obtain ⟨k, hk⟩ : ∃ k, (e - Format.binary64.targetExponent (totalExponent m e)).toNat = k := ⟨_, rfl⟩
  have hround : UnpackedFloat.round .binary64 (signOf negative) m e =
      UnpackedFloat.roundWithAccuracy .binary64 (signOf negative) (m <<< k) (e - k) .exact := by
    subst hk
    rfl
  have hfield : fieldWeight = 2 ^ 52 := by decide
  have hroom : fieldWeight ≤ m <<< k ∨ e - k ≤ -unitPlaces := by
    rw [targetExponent_eq] at hk
    unfold unitPlaces at hk ⊢
    rcases Nat.lt_or_ge (m.log2 + k) 52 with hfew | hmany
    · exact .inr (by omega)
    · left
      rw [hfield, Nat.shiftLeft_eq]
      calc 2 ^ 52 ≤ 2 ^ (m.log2 + k) := Nat.pow_le_pow_right Nat.two_pos hmany
        _ = 2 ^ m.log2 * 2 ^ k := Nat.pow_add ..
        _ ≤ m * 2 ^ k := Nat.mul_le_mul_right _ (Nat.log2_self_le (Nat.ne_of_gt hm))
  have hnumber : (m : ℚ) * 2 ^ e = (m <<< k : Nat) * 2 ^ (e - k) := by
    rw [Nat.shiftLeft_eq, zpow_sub₀ two_ne_zero, zpow_natCast]
    push_cast
    field_simp
  rw [hround, hnumber]
  exact pack_roundWithAccuracy negative (tells_exact _) hroom

end Binary64

end SheetFormula
