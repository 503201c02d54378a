/-
  SheetFormula.Proofs.Library.Rounding

  Rounding numbers the way they read.  From `2 ^ 52` on numbers have no fraction
  and are rounded to themselves (`round_of_le_abs`).  A smaller number is
  rounded by its shortest decimal, which is read up to the twenty-eighth place
  and turned back into a double.  That gives the double nearest to the rounded
  decimal where reading loses nothing that matters and the decimal has few digits
  (`isRounded_round`); up to eleven places fifteen digits are few enough
  (`fewDigits_of_le`).  With more digits or places the nearest double can be
  missed (`round_misses_reading`).
-/
import SheetFormula.Proofs.Functions.Shipped
import SheetFormula.Proofs.Numbers.FixedDoubles
import SheetFormula.Proofs.Numbers.SeventeenDigits

namespace SheetFormula

namespace Library

open Binary64 Decimal

/-! ## The number as it reads -/

/-- The number's shortest decimal, rounded to decimal places with a half away from zero. -/
def roundedReading (x : Float) (places : Nat) : ℚ :=
  withSign (isNegative x) (roundedAt places (shortest x).value)

/-- How many digits the number's shortest decimal keeps behind the point. -/
def keptPlaces (x : Float) (places : Nat) : Nat := min places (-(shortest x).exponent).toNat

/-- The number can be rounded without a loss: the places that are read leave the rounding as it is,
    and what it is rounded to is whole or has no more than fifteen digits. -/
structure FewDigits (x : Float) (places : Nat) : Prop where
  keeps : roundedAt places (roundedAt Fixed.maxScale (shortest x).value) =
    roundedAt places (shortest x).value
  short : (∃ n : Nat, roundedAt places (shortest x).value = n) ∨
    keptPlaces x places ≤ 22 ∧ roundedAt places (shortest x).value * 10 ^ keptPlaces x places ≤ 10 ^ 15

/-! ## Numbers without a fraction -/

section Finite

variable {x : Float} (hx : x.isFinite = true)

include hx

theorem integralFrom_le_abs_iff : integralFrom ≤ x.abs ↔ 2 ^ 52 ≤ |ratOf x| := by
  have hfrom : integralFrom = ofWord false (1075 * fieldWeight) := by decide +kernel
  rw [hfrom, ofWord_le_abs_iff (Nat.le_of_lt (isFinite_iff.mp hx)) (by decide), le_abs_ratOf_iff]

variable {places : Nat} (hplaces : places ≤ 28)

include hplaces

theorem round_ofNat : round x (ofNat places) = roundTo x places := by
  have hinfinite : (!x.isFinite) = false := by rw [hx, Bool.not_true]
  have hnotANumber : (ofNat places).isNaN = false :=
    (isRounded_ofNat places).isNaN_eq_false
  have hbound : toIntWithin leastPlaces mostPlaces (ofNat places) = places :=
    toIntWithin_ofNat (by omega) (by rw [leastPlaces]; omega) (by rw [mostPlaces]; omega)
  rw [round, hnotANumber, hinfinite, if_neg Bool.false_ne_true, if_neg Bool.false_ne_true, hbound]

theorem round_of_some {y : Float} (h : roundDecimal? x places = some y) :
    round x (ofNat places) = y := by
  rw [round_ofNat hx hplaces, roundTo, if_pos (Int.natCast_nonneg places), Int.toNat_natCast, h]

theorem round_of_none (h : roundDecimal? x places = none) (hlarge : 2 ^ 52 ≤ |ratOf x|) :
    round x (ofNat places) = x := by
  rw [round_ofNat hx hplaces, roundTo, if_pos (Int.natCast_nonneg places), Int.toNat_natCast, h]
  exact if_pos ((integralFrom_le_abs_iff hx).mpr hlarge)

/-- A number that has no places for a fraction is rounded to itself. -/
theorem round_of_le_abs (hlarge : 2 ^ 52 ≤ |ratOf x|) : round x (ofNat places) = x := by
  have hexponent := exponent_shortest_nonneg (isIntegral_of_le_abs hx hlarge)
  have hread := Fixed.ofPositional?_of_nonneg hexponent
  have hvalue := value_eq_natCast_div (shortest x)
  have hself := isRounded_shortest hx
  rw [Int.toNat_of_nonpos (neg_nonpos.mpr hexponent), pow_zero, div_one] at hvalue
  generalize (shortest x).significand * 10 ^ (shortest x).exponent.toNat = n at hread hvalue
  by_cases hroom : n < Fixed.mantissaLimit
  · rw [if_pos hroom] at hread
    have hdecimal : roundDecimal? x places =
        some (Fixed.ofParts (isNegative x) n 0).toFloat := by
      rw [roundDecimal?, hread, negative_shortest]
      rfl
    have hrounded := Fixed.isRounded_toFloat (d := .ofParts (isNegative x) n 0) (.inl (Nat.mod_one n))
    rw [Fixed.withSign_ofParts (f := fun q => q) rfl, Fixed.value_ofParts, pow_zero, div_one,
      ← hvalue] at hrounded
    rw [round_of_some hx hplaces hdecimal]
    refine hrounded.unique hself fun hzero => ?_
    rw [hzero] at hself
    rw [ratOf_eq_zero_iff.mpr hself.magnitudeWord_eq_zero, abs_zero] at hlarge
    norm_num at hlarge
  · rw [if_neg hroom] at hread
    refine round_of_none hx hplaces ?_ hlarge
    rw [roundDecimal?, hread]
    rfl

/-! ## Numbers with a fraction -/

section Small

variable (hsmall : |ratOf x| < 2 ^ 52)

include hsmall

omit hplaces in
theorem value_shortest_lt : (shortest x).value < 2 ^ 52 := by
  by_contra hlarge
  have hfrom := isNearest_valueOf (w := 1075 * fieldWeight) (by decide)
  rw [valueOf_integralFrom] at hfrom
  have hle := hfrom.mono (isNearest_shortest hx) (not_lt.mp hlarge)
  exact absurd (le_abs_ratOf_iff.mpr hle) (not_le.mpr hsmall)

omit hplaces in
/-- The digits of a small number have room in a fixed-point decimal. -/
theorem digits_lt :
    (shortest x).significand * 10 ^ (shortest x).exponent.toNat + 1 < Fixed.mantissaLimit := by
  have hlt := value_shortest_lt hx hsmall
  rcases le_or_gt 0 (shortest x).exponent with hnonneg | hneg
  · rw [value_eq_natCast_div, Int.toNat_of_nonpos (neg_nonpos.mpr hnonneg), pow_zero, div_one] at hlt
    have hlt' : (shortest x).significand * 10 ^ (shortest x).exponent.toNat < 2 ^ 52 := by
      exact_mod_cast hlt
    rw [Fixed.mantissaLimit]
    omega
  · have hle := significand_shortest_le hx
    rw [Int.toNat_of_nonpos (le_of_lt hneg), Nat.pow_zero, Nat.mul_one, Fixed.mantissaLimit]
    rw [maxDigits] at hle
    omega

theorem roundDecimal?_of_small :
    ∃ d : Fixed, roundDecimal? x places = some d.toFloat ∧ d.scale = keptPlaces x places ∧
      d.value = roundedAt places (roundedAt Fixed.maxScale (shortest x).value) ∧
      withSign d.negative d.value = withSign (isNegative x) d.value := by
  have hread := Fixed.ofPositional?_positional (digits_lt hx hsmall)
  have hvalue := roundedAt_div Fixed.maxScale
    ((shortest x).significand * 10 ^ (shortest x).exponent.toNat) (-(shortest x).exponent).toNat
  rw [← value_eq_natCast_div, ← Fixed.value_ofParts (isNegative x)] at hvalue
  rw [negative_shortest] at hread
  refine ⟨_, by rw [roundDecimal?, hread, Option.map_some], ?_, ?_, ?_⟩
  · rw [Fixed.scale_roundTo, Fixed.ofParts, keptPlaces, ← Nat.min_assoc, Fixed.maxScale,
      Nat.min_eq_left hplaces]
  · rw [Fixed.value_roundTo, hvalue]
  · rw [Fixed.withSign_roundTo, Fixed.withSign_ofParts (roundedAt_zero places), Fixed.value_roundTo]

/-- A number of few digits is rounded to the double nearest to its rounded decimal. -/
theorem isRounded_round (hfew : FewDigits x places) :
    IsRounded (roundedReading x places) (round x (ofNat places)) := by
  obtain ⟨d, hdecimal, hscale, hvalue, hsign⟩ := roundDecimal?_of_small hx hplaces hsmall
  rw [hfew.keeps] at hvalue
  rw [round_of_some hx hplaces hdecimal, roundedReading, ← hvalue, ← hsign]
  apply Fixed.isRounded_toFloat
  have hpow : (10 : ℚ) ^ d.scale ≠ 0 := by positivity
  rcases hfew.short with ⟨n, hwhole⟩ | ⟨hle, hdigits⟩
  · rw [← hvalue, Fixed.value, div_eq_iff hpow] at hwhole
    have hmultiple : d.mantissa = n * 10 ^ d.scale := by exact_mod_cast hwhole
    rw [hmultiple]
    exact .inl (Nat.mul_mod_left ..)
  · rw [← hvalue, ← hscale, Fixed.value, div_mul_cancel₀ _ hpow] at hdigits
    rw [← hscale] at hle
    exact .inr ⟨hle, by exact_mod_cast hdigits⟩

end Small

end Finite

/-! ## Numbers of few digits -/

/-- Up to eleven places what is lost behind the last place that is read is too little to matter, as
    no double has more than seventeen digits. -/
theorem roundedAt_roundedAt {x : Float} (hx : x.isFinite = true) {places : Nat} (hle : places ≤ 11) :
    roundedAt places (roundedAt Fixed.maxScale (shortest x).value) =
      roundedAt places (shortest x).value := by
  rcases Nat.lt_or_ge Fixed.maxScale (-(shortest x).exponent).toNat with hmany | hfew
  · -- The number is so small that it is rounded to zero one way and the other.
    have htiny := value_shortest_le hx hmany
    have hnonneg := value_nonneg (shortest x)
    have hread := roundedAt_le (shortest x).value Fixed.maxScale
    have hreadNonneg := roundedAt_nonneg hnonneg Fixed.maxScale
    have hscale : (10 : ℚ) ^ places ≤ 10 ^ 11 := pow_le_pow_right₀ (by norm_num) hle
    generalize (shortest x).value = v at htiny hnonneg hread hreadNonneg ⊢
    rw [Fixed.maxScale] at htiny hread hreadNonneg ⊢
    rw [maxDigits] at htiny
    generalize roundedAt 28 v = r at hread hreadNonneg ⊢
    rw [roundedAt_eq_zero hnonneg, roundedAt_eq_zero hreadNonneg]
    · refine lt_of_le_of_lt (mul_le_mul_of_nonneg_left hscale hreadNonneg) ?_
      linarith
    · refine lt_of_le_of_lt (mul_le_mul_of_nonneg_left hscale hnonneg) ?_
      linarith
  · rw [value_eq_natCast_div, roundedAt_eq_self _ hfew]

theorem fewDigits_of_le {x : Float} (hx : x.isFinite = true) {places : Nat} (hle : places ≤ 11)
    (hdigits : roundedAt places (shortest x).value * 10 ^ places ≤ 10 ^ 15) : FewDigits x places where
  keeps := roundedAt_roundedAt hx hle
  short := by
    have hkept : keptPlaces x places ≤ places := Nat.min_le_left ..
    have hpow : (10 : ℚ) ^ keptPlaces x places ≤ 10 ^ places := pow_le_pow_right₀ (by norm_num) hkept
    have hnonneg := roundedAt_nonneg (value_nonneg (shortest x)) places
    exact .inr ⟨by omega, le_trans (mul_le_mul_of_nonneg_left hpow hnonneg) hdigits⟩

/-! ## The function of the library -/

theorem computes_round :
    Computes "round" fun args => .number (round (arg args 0).toNumber (arg args 1).toNumber) := by
  have hmem : ∀ σ : Type, total "round" 1 (some 2) (fun args =>
      .number (round (arg args 0).toNumber (arg args 1).toNumber)) ∈
        (standard : List (SheetFunction σ)) := by
    simp [standard, numberFunctions]
  exact computes_of_mem hmem

/-- The library's `round` rounds numbers from `2 ^ 52` on to themselves, and smaller ones to the
    double nearest to their rounded decimal if that can be done without a loss, which up to eleven
    places takes no more than that it has no more than fifteen digits. -/
theorem round_reads {x : Float} (hx : x.isFinite = true) {places : Nat} (hplaces : places ≤ 28) :
    Computes "round" (fun args => .number (round (arg args 0).toNumber (arg args 1).toNumber)) ∧
      (2 ^ 52 ≤ |ratOf x| → round x (ofNat places) = x) ∧
      (|ratOf x| < 2 ^ 52 → FewDigits x places →
        IsRounded (roundedReading x places) (round x (ofNat places))) ∧
      (places ≤ 11 → roundedAt places (shortest x).value * 10 ^ places ≤ 10 ^ 15 →
        FewDigits x places) :=
  ⟨computes_round, round_of_le_abs hx hplaces, isRounded_round hx hplaces, fewDigits_of_le hx⟩

theorem round_reads_cents :
    IsRounded (268 / 100) (round 2.675 (ofNat 2)) ∧
      round 9007199254740992 (ofNat 2) = 9007199254740992 := by
  have hcents := (round_reads (x := 2.675) (by decide +kernel) (by decide : 2 ≤ 28)).2
  have hlarge :=
    (round_reads (x := 9007199254740992) (by decide +kernel) (by decide : 2 ≤ 28)).2
  have hshortest : shortest 2.675 = ⟨false, 2675, -(3 : Nat)⟩ := by decide +kernel
  have hsign : isNegative 2.675 = false := by decide +kernel
  have hdigits : roundDiv .up 2675 (10 ^ (3 - 2)) = 268 := by decide
  have hvalue : roundedAt 2 (shortest 2.675).value = 268 / 100 := by
    rw [hshortest, value_places, roundedAt_div, hdigits]
    norm_num
  have hreading : roundedReading 2.675 2 = 268 / 100 := by
    rw [roundedReading, hsign, withSign_false, hvalue]
  have hsmall : |ratOf 2.675| < 2 ^ 52 := by
    rw [← not_le, le_abs_ratOf_iff]
    decide +kernel
  constructor
  · rw [← hreading]
    refine hcents.2.1 hsmall (hcents.2.2 (by decide) ?_)
    rw [hvalue]
    norm_num
  · refine hlarge.1 ?_
    rw [le_abs_ratOf_iff]
    decide +kernel

/-- Two numbers that are not rounded the way they read.  The first has fifteen places, which should
    all stay, but with its sixteen digits it comes back as another double.  The second reads `0.45`
    in units of the twenty-seventh place; its last digit has no room and rounds it to a half first. -/
theorem round_misses_reading :
    ((2.911764705882353 : Float).isFinite = true ∧ |ratOf 2.911764705882353| < 2 ^ 52 ∧
        ¬ IsRounded (roundedReading 2.911764705882353 15) (round 2.911764705882353 (ofNat 15))) ∧
      (4.5e-28 : Float).isFinite = true ∧ |ratOf 4.5e-28| < 2 ^ 52 ∧
        ¬ IsRounded (roundedReading 4.5e-28 27) (round 4.5e-28 (ofNat 27)) := by
  constructor
  · have hfinite : (2.911764705882353 : Float).isFinite = true := by decide +kernel
    have hshortest : shortest 2.911764705882353 = ⟨false, 2911764705882353, -(15 : Nat)⟩ := by
      decide +kernel
    have hsign : isNegative 2.911764705882353 = false := by decide +kernel
    have hchanged : round 2.911764705882353 (ofNat 15) ≠ 2.911764705882353 := by decide +kernel
    refine ⟨hfinite, ?_, fun hrounded => hchanged ?_⟩
    · rw [← not_le, le_abs_ratOf_iff]
      decide +kernel
    -- There is only one double that the decimal is rounded to.
    · have hself := isRounded_shortest hfinite
      rw [hshortest, value_places] at hself
      rw [roundedReading, hshortest, value_places, roundedAt_eq_self _ (Nat.le_refl 15)] at hrounded
      refine hrounded.unique hself ?_
      rw [hsign, withSign_false]
      norm_num
  · have hshortest : shortest 4.5e-28 = ⟨false, 45, -(29 : Nat)⟩ := by decide +kernel
    have hword : magnitudeWord (round 4.5e-28 (ofNat 27)) ≠ 0 := by decide +kernel
    have hdigits : roundDiv .up 45 (10 ^ (29 - 27)) = 0 := by decide
    refine ⟨by decide +kernel, ?_, fun hrounded => hword ?_⟩
    · rw [← not_le, le_abs_ratOf_iff]
      decide +kernel
    · rw [roundedReading, hshortest, value_places, roundedAt_div, hdigits, Nat.cast_zero, zero_div,
        withSign_zero] at hrounded
      exact hrounded.magnitudeWord_eq_zero

end Library

end SheetFormula
