/-
  SheetFormula.Proofs.Numbers.FixedDoubles

  Doubles of fixed-point decimals.  Whole numbers are converted exactly.  A
  number with places is put together from two parts and scaled up by a power
  of ten, which rounds three times; as long as its digits number no more than
  fifteen, the sum is still nearest to the right whole number
  (`abs_scaled_sub_lt`), and the quotient by the power of ten, itself exact
  up to the twenty-second (`ratOf_powInt`), is the nearest double
  (`Fixed.isRounded_toFloat`).
-/
import SheetFormula.Proofs.Numbers.Arithmetic
import SheetFormula.Proofs.Numbers.FixedPoint
import SheetFormula.Proofs.Numbers.Integral

namespace SheetFormula

namespace Binary64

/-! ## Powers of ten -/

/-- Up to the twenty-second powers of ten are doubles. -/
theorem unitsOf_nearestWord_ten_pow :
    ∀ k < 23, unitsOf (nearestWord (10 ^ k) 1) = 10 ^ k * unitsPerOne := by
  decide +kernel

theorem ratOf_ofNat_ten_pow {k : Nat} (hk : k ≤ 22) : ratOf (ofNat (10 ^ k)) = 10 ^ k := by
  have hunits := unitsOf_nearestWord_ten_pow k (Nat.lt_succ_of_le hk)
  have hnearest := nearestWord_le (10 ^ k) 1
  rw [ofNat, ofRatio, ratOf_ofWord _ hnearest, signedValue_false, valueOf, hunits, Nat.cast_mul,
    mul_div_cancel_right₀ _ (ne_of_gt unitsPerOne_cast_pos), Nat.cast_pow, Nat.cast_ofNat]

theorem isFinite_of_ratOf_eq_ten_pow {x : Float} {k : Nat} (hk : k ≤ 22) (h : ratOf x = 10 ^ k) :
    x.isFinite = true := by
  have hle : (10 : ℚ) ^ k ≤ 10 ^ 23 := pow_le_pow_right₀ (by norm_num) (by omega)
  refine isFinite_of_abs_ratOf_le ?_
  rw [h, abs_of_nonneg (by positivity)]
  exact hle

theorem ratOf_mul_ten_pow {x y : Float} {a b : Nat} (hx : ratOf x = 10 ^ a) (hy : ratOf y = 10 ^ b)
    (hle : a + b ≤ 22) : ratOf (x * y) = 10 ^ (a + b) := by
  have hxfinite := isFinite_of_ratOf_eq_ten_pow (by omega) hx
  have hyfinite := isFinite_of_ratOf_eq_ten_pow (by omega) hy
  have hexact := ratOf_ofNat_ten_pow hle
  have hmul := isRounded_mul hxfinite hyfinite
  rw [hx, hy, ← pow_add, ← hexact] at hmul
  rw [hmul.ratOf_eq (isRounded_ofNat _).isNaN_eq_false, hexact]

/-- A factor is multiplied in for the lowest bit of the exponent. -/
theorem ratOf_takeBit {acc base : Float} {a b n : Nat} (hacc : ratOf acc = 10 ^ a)
    (hbase : ratOf base = 10 ^ b) (hle : a + b * (n % 2) ≤ 22) :
    ratOf (if n % 2 = 1 then acc * base else acc) = 10 ^ (a + b * (n % 2)) := by
  rcases Nat.mod_two_eq_zero_or_one n with hbit | hbit
  · rw [hbit, if_neg (by decide), Nat.mul_zero, Nat.add_zero, hacc]
  · rw [hbit, Nat.mul_one] at hle
    rw [hbit, if_pos rfl, Nat.mul_one]
    exact ratOf_mul_ten_pow hacc hbase hle

/-- The products and squares on the way to a power of ten are powers of ten too. -/
theorem ratOf_mulPow {acc base : Float} {a b n : Nat} (hacc : ratOf acc = 10 ^ a)
    (hbase : ratOf base = 10 ^ b) (hle : a + b * n ≤ 22) :
    ratOf (mulPow acc base n) = 10 ^ (a + b * n) := by
  fun_induction mulPow acc base n generalizing a b with
  | case1 acc base n taken =>
      rename_i hsmall
      rw [← Nat.mod_eq_of_lt hsmall] at hle ⊢
      exact ratOf_takeBit hacc hbase hle
  | case2 acc base n taken hlarge =>
      rename_i ih
      have hsplit : b * n = b * (n % 2) + (b + b) * (n / 2) := by
        rw [← Nat.two_mul, Nat.mul_comm 2 b, Nat.mul_assoc, ← Nat.mul_add, Nat.mod_add_div]
      have hhalf : (b + b) * 1 ≤ (b + b) * (n / 2) := Nat.mul_le_mul_left _ (by omega)
      have htaken : ratOf taken = 10 ^ (a + b * (n % 2)) := ratOf_takeBit hacc hbase (by omega)
      have hsquare := ratOf_mul_ten_pow hbase hbase (by omega)
      rw [hsplit, ← Nat.add_assoc] at hle ⊢
      exact ih htaken hsquare hle

theorem ratOf_powInt {k : Nat} (hk : k ≤ 22) : ratOf (powInt (ofNat 10) k) = 10 ^ k := by
  have hone := ratOf_ofNat_ten_pow (Nat.zero_le 22)
  have hten := ratOf_ofNat_ten_pow (k := 1) (by decide)
  rw [pow_one] at hten
  have hpow := ratOf_mulPow (n := k) hone hten (by omega)
  rw [Nat.zero_add, Nat.one_mul] at hpow
  rw [powInt, if_neg (by omega), Int.natAbs_natCast]
  exact hpow

/-! ## Rounding to the nearest integer -/

/-- What is nearest to a whole number is rounded to it. -/
theorem ratOf_roundHalfAway {x : Float} {n : Nat} (hx : x.isFinite = true) (hle : n ≤ 2 ^ 53)
    (h : |ratOf x - n| < 1 / 2) (hpos : 0 < n) : ratOf (roundHalfAway x) = n := by
  have hone : (1 : ℚ) ≤ n := by exact_mod_cast hpos
  have hnear := abs_lt.mp h
  have hsign : isNegative x = false :=
    (isRounded_ratOf (isNaN_of_isFinite hx)).positive (by linarith)
  have hvalue : valueOf (magnitudeWord x) = ratOf x := by rw [ratOf, hsign, signedValue_false]
  -- The nearest integer, a half away from zero, is the floor of the number and a half.
  have hwhole : roundDiv .up (unitsOf (magnitudeWord x)) unitsPerOne = n := by
    have hfloor := floor_add_half (unitsOf (magnitudeWord x)) unitsPerOne_pos
    rw [← valueOf, hvalue] at hfloor
    have hn : ⌊ratOf x + 1 / 2⌋ = n := by
      rw [Int.floor_eq_iff, Int.cast_natCast]
      constructor <;> linarith
    rw [hn] at hfloor
    exact_mod_cast hfloor.symm
  have hrounded := isRounded_toIntegral (fun _ units => roundDiv .up units unitsPerOne)
    (fun _ n => roundDiv_mul_self .up n unitsPerOne_pos) hx
  rw [hsign, withSign_false, hwhole] at hrounded
  exact hrounded.ratOf_of_int (z := n) (by rw [Nat.abs_cast]; exact_mod_cast hle)

/-! ## A number put together and scaled -/

/-- Three roundings move a number of fifteen digits by less than a half. -/
theorem abs_scaled_sub_lt {w f p F S T : ℚ} (hw : 0 ≤ w) (hp : 0 < p)
    (hle : w * p + f ≤ 10 ^ 15) (hF : 2 ^ 53 * |F - f / p| ≤ f / p)
    (hS : 2 ^ 53 * |S - (w + F)| ≤ w + F) (hT : 2 ^ 53 * |T - S * p| ≤ S * p) :
    |T - (w * p + f)| < 1 / 2 := by
  -- All errors are looked at where the number is scaled up.
  have hF' : 2 ^ 53 * |F * p - f| ≤ f := by
    have hmul := mul_le_mul_of_nonneg_right hF (le_of_lt hp)
    rw [mul_assoc, ← abs_of_pos hp, ← abs_mul, abs_of_pos hp, sub_mul,
      div_mul_cancel₀ _ (ne_of_gt hp)] at hmul
    exact hmul
  have hS' : 2 ^ 53 * |S * p - (w * p + F * p)| ≤ w * p + F * p := by
    have hmul := mul_le_mul_of_nonneg_right hS (le_of_lt hp)
    rw [mul_assoc, ← abs_of_pos hp, ← abs_mul, abs_of_pos hp, sub_mul, add_mul] at hmul
    exact hmul
  have hw' : 0 ≤ w * p := mul_nonneg hw (le_of_lt hp)
  generalize w * p = W at *
  generalize F * p = a at *
  generalize S * p = b at *
  rw [abs_lt]
  constructor
  · linarith [neg_abs_le (a - f), neg_abs_le (b - (W + a)), neg_abs_le (T - b)]
  · linarith [le_abs_self (a - f), le_abs_self (b - (W + a)), le_abs_self (T - b)]

/-- A positive number away from the ends is rounded to a finite double next to it. -/
theorem IsRounded.next_to {q : ℚ} {x : Float} (h : IsRounded q x) (hlo : 1 / 10 ^ 23 ≤ q)
    (hhi : q ≤ 10 ^ 23) :
    x.isFinite = true ∧ 2 ^ 53 * |ratOf x - q| ≤ q ∧ q / 2 ≤ ratOf x ∧ ratOf x ≤ 2 * q := by
  have habs : |q| = q := abs_of_nonneg (le_trans (by norm_num) hlo)
  have herror := h.error_le_of_bounds (by rw [habs]; exact hlo) (by rw [habs]; exact hhi)
  rw [habs] at herror
  have hbelow := neg_abs_le (ratOf x - q)
  have habove := le_abs_self (ratOf x - q)
  exact ⟨h.isFinite_of_le (by rw [habs]; exact hhi), herror, by linarith, by linarith⟩

section Parts

variable {w f p : ℚ} {x y z : Float} (hw : 0 ≤ w) (hf : 1 ≤ f) (hfp : f ≤ p) (hp : p ≤ 10 ^ 22)
  (hle : w * p + f ≤ 10 ^ 15) (hx : x.isFinite = true) (hxw : ratOf x = w)
  (hy : IsRounded (f / p) y) (hz : z.isFinite = true) (hzp : ratOf z = p)

include hw hf hfp hp hle hx hxw hy hz hzp

/-- The parts of a number with places, added and scaled up, are next to its digits. -/
theorem scaled_parts :
    ((x + y) * z).isFinite = true ∧ |ratOf ((x + y) * z) - (w * p + f)| < 1 / 2 := by
  have hp0 : 0 < p := by linarith
  have hw15 : w ≤ 10 ^ 15 := by
    have hmul := le_mul_of_one_le_right hw (by linarith : 1 ≤ p)
    linarith
  have hscaled : f / p * p = f := div_mul_cancel₀ _ (ne_of_gt hp0)
  have hlo : 1 / 10 ^ 22 ≤ f / p := by
    rw [div_le_div_iff₀ (by positivity) hp0, one_mul]
    linarith
  have hhi : f / p ≤ 1 := (div_le_one₀ hp0).mpr hfp
  obtain ⟨hyFinite, hyError, hyLo, hyHi⟩ := hy.next_to (by linarith) (by linarith)
  have hsum := isRounded_add hx hyFinite
  rw [hxw] at hsum
  obtain ⟨hsumFinite, hsumError, hsumLo, hsumHi⟩ := hsum.next_to (by linarith) (by linarith)
  have hproduct := isRounded_mul hsumFinite hz
  rw [hzp] at hproduct
  -- Scaled up, the sum lies between a fourth of its digits and four times as much.
  have hproductLo : f / p / 4 * p ≤ ratOf (x + y) * p :=
    mul_le_mul_of_nonneg_right (by linarith) (le_of_lt hp0)
  have hproductHi : ratOf (x + y) * p ≤ (2 * w + 4 * (f / p)) * p :=
    mul_le_mul_of_nonneg_right (by linarith) (le_of_lt hp0)
  obtain ⟨hfinite, herror, -, -⟩ := hproduct.next_to (by linarith) (by linarith)
  exact ⟨hfinite, abs_scaled_sub_lt hw hp0 hle hyError hsumError herror⟩

end Parts

theorem ratOf_roundHalfAway_parts {w f s : Nat} (hs : s ≤ 22) (hle : w * 10 ^ s + f ≤ 10 ^ 15)
    (hpos : 0 < f) (hlt : f < 10 ^ s) :
    ratOf (roundHalfAway ((ofNat w + ofNat f / ofNat (10 ^ s)) * powInt (ofNat 10) s)) =
      (w * 10 ^ s + f : Nat) := by
  have hw : w ≤ w * 10 ^ s := Nat.le_mul_of_pos_right w (Nat.pow_pos (by decide))
  have hf53 : f ≤ 2 ^ 53 := by omega
  have hw53 : w ≤ 2 ^ 53 := by omega
  have hone := ratOf_ofNat_ten_pow hs
  have hne : ratOf (ofNat (10 ^ s)) ≠ 0 := by
    rw [hone]
    positivity
  have hpower := ratOf_powInt hs
  have hquotient := isRounded_div (isFinite_ofNat hf53) (isFinite_of_ratOf_eq_ten_pow hs hone) hne
  rw [ratOf_ofNat hf53, hone] at hquotient
  obtain ⟨hfinite, hnear⟩ := scaled_parts (Nat.cast_nonneg w) (by exact_mod_cast hpos)
    (by exact_mod_cast le_of_lt hlt) (pow_le_pow_right₀ (by norm_num) hs) (by exact_mod_cast hle)
    (isFinite_ofNat hw53) (ratOf_ofNat hw53) hquotient (isFinite_of_ratOf_eq_ten_pow hs hpower) hpower
  refine ratOf_roundHalfAway hfinite (by omega) ?_ (by omega)
  push_cast
  exact hnear

end Binary64

namespace Fixed

open Binary64

/-! ## The double of a fixed-point decimal -/

/-- The double without the sign. -/
def magnitude (d : Fixed) : Float :=
  if d.mantissa % 10 ^ d.scale = 0 then ofNat (d.mantissa / 10 ^ d.scale)
  else
    roundHalfAway ((ofNat (d.mantissa / 10 ^ d.scale) +
        ofNat (d.mantissa % 10 ^ d.scale) / ofNat (10 ^ d.scale)) * powInt (ofNat 10) d.scale) /
      powInt (ofNat 10) d.scale

theorem toFloat_eq (d : Fixed) :
    d.toFloat = if d.negative then -d.magnitude else d.magnitude := by
  simp only [toFloat, magnitude, Nat.pow_eq]

section Conversion

variable {d : Fixed} (h : d.mantissa % 10 ^ d.scale = 0 ∨ d.scale ≤ 22 ∧ d.mantissa ≤ 10 ^ 15)

include h

theorem isRounded_magnitude : IsRounded d.value d.magnitude := by
  have hsplit := Nat.div_add_mod' d.mantissa (10 ^ d.scale)
  rw [value, magnitude]
  by_cases hwhole : d.mantissa % 10 ^ d.scale = 0
  · rw [if_pos hwhole]
    rw [hwhole, Nat.add_zero] at hsplit
    generalize d.mantissa / 10 ^ d.scale = n at hsplit ⊢
    have hvalue : (d.mantissa : ℚ) / 10 ^ d.scale = n := by
      rw [← hsplit]
      push_cast
      exact mul_div_cancel_right₀ _ (by positivity)
    rw [hvalue]
    exact isRounded_ofNat n
  · obtain ⟨hscale, hle⟩ := h.resolve_left hwhole
    have hdigits := ratOf_roundHalfAway_parts hscale (by rw [hsplit]; exact hle)
      (Nat.pos_of_ne_zero hwhole) (Nat.mod_lt _ (Nat.pow_pos (by decide)))
    have hpower := ratOf_powInt hscale
    rw [hsplit] at hdigits
    rw [if_neg hwhole, ← hdigits, ← hpower]
    refine isRounded_div (isFinite_of_abs_ratOf_le ?_) (isFinite_of_ratOf_eq_ten_pow hscale hpower) ?_
    · have hle' : (d.mantissa : ℚ) ≤ 10 ^ 15 := by exact_mod_cast hle
      rw [hdigits, Nat.abs_cast]
      linarith
    · rw [hpower]
      positivity

/-- Whole numbers, and numbers of fifteen digits with up to twenty-two places, are turned into the
    nearest double. -/
theorem isRounded_toFloat : IsRounded (withSign d.negative d.value) d.toFloat := by
  have hmagnitude := isRounded_magnitude h
  rw [toFloat_eq]
  cases d.negative with
  | false =>
      rw [if_neg Bool.false_ne_true, withSign_false]
      exact hmagnitude
  | true =>
      rw [if_pos rfl, withSign_true]
      exact isRounded_neg hmagnitude

end Conversion

end Fixed

end SheetFormula
