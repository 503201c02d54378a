/-
  SheetFormula.Proofs.Numbers.Integral

  Integers and doubles.  Integers up to `2 ^ 53` are doubles (`ratOf_ofInt`).
  Rounding a double to an integer takes the integer part of its units up or
  down and rounds that to a double (`isRounded_toIntegral`), which for `floor` is
  the greatest integer that is no greater (`isRounded_floor`).  From `2 ^ 52` on
  every finite double is an integer (`isIntegral_of_le_abs`).
-/
import SheetFormula.Binary64.Integral
import SheetFormula.Proofs.Numbers.Rounded

namespace SheetFormula

namespace Binary64

/-! ## Integers as doubles -/

theorem isNearest_natCast (n : Nat) : IsNearest n (nearestWord n 1) := by
  have hnearest := isNearest_nearestWord n Nat.one_pos
  rw [Nat.cast_one, div_one] at hnearest
  exact hnearest

theorem isRounded_ofRatio (negative : Bool) (n : Nat) :
    IsRounded (withSign negative n) (ofRatio negative n 1) :=
  isRounded_withSign negative (isNearest_natCast n) (Nat.cast_nonneg n)

theorem isRounded_ofNat (n : Nat) : IsRounded n (ofNat n) := isRounded_ofRatio false n

theorem isRounded_ofInt (z : ℤ) : IsRounded z (ofInt z) := by
  have hrounded := isRounded_ofRatio (z < 0) z.natAbs
  have hcast : withSign (z < 0) (z.natAbs : ℚ) = z := by
    rw [Nat.cast_natAbs]
    rcases lt_or_ge z 0 with hneg | hnonneg
    · rw [decide_eq_true hneg, withSign_true, abs_of_neg hneg, Int.cast_neg, neg_neg]
    · rw [decide_eq_false (not_lt.mpr hnonneg), withSign_false, abs_of_nonneg hnonneg]
  rw [hcast] at hrounded
  exact hrounded

section Exact

variable {x : Float} {z : ℤ}

/-- A small integer is rounded to itself. -/
theorem IsRounded.ratOf_of_int (h : IsRounded z x) (hz : |z| ≤ 2 ^ 53) : ratOf x = z := by
  have hnat : z.natAbs ≤ 2 ^ 53 := by
    rw [Int.abs_eq_natAbs] at hz
    exact_mod_cast hz
  obtain ⟨word, hle, hvalue⟩ := exists_valueOf_natCast hnat
  have habs : |(z : ℚ)| = z.natAbs := by rw [Nat.cast_natAbs, Int.cast_abs]
  have hnearest := h.nearest
  rw [habs, ← hvalue] at hnearest
  have hword : valueOf (magnitudeWord x) = |(z : ℚ)| := by
    rw [hnearest.unique (isNearest_valueOf hle), hvalue, habs]
  rcases le_or_gt 0 (z : ℚ) with hnonneg | hneg
  · rw [h.ratOf_of_nonneg hnonneg, hword, abs_of_nonneg hnonneg]
  · rw [h.ratOf_of_nonpos (le_of_lt hneg), hword, abs_of_neg hneg, neg_neg]

theorem IsRounded.isFinite_of_int (h : IsRounded z x) (hz : |z| ≤ 2 ^ 53) : x.isFinite = true := by
  have habs : |(z : ℚ)| ≤ 2 ^ 53 := by exact_mod_cast hz
  exact h.isFinite_of_le (le_trans habs (by norm_num))

theorem ratOf_ofInt (hz : |z| ≤ 2 ^ 53) : ratOf (ofInt z) = z := (isRounded_ofInt z).ratOf_of_int hz

theorem isFinite_ofInt (hz : |z| ≤ 2 ^ 53) : (ofInt z).isFinite = true :=
  (isRounded_ofInt z).isFinite_of_int hz

theorem ratOf_ofNat {n : Nat} (hn : n ≤ 2 ^ 53) : ratOf (ofNat n) = n :=
  (isRounded_ofNat n).ratOf_of_int (z := n) (by rw [Nat.abs_cast]; exact_mod_cast hn)

theorem isFinite_ofNat {n : Nat} (hn : n ≤ 2 ^ 53) : (ofNat n).isFinite = true :=
  (isRounded_ofNat n).isFinite_of_int (z := n) (by rw [Nat.abs_cast]; exact_mod_cast hn)

end Exact

/-! ## Doubles rounded to integers -/

theorem shape_of_isFinite {x : Float} (h : x.isFinite = true) :
    shape x = .finite (isNegative x) (unitsOf (magnitudeWord x)) :=
  shape_of_lt (isFinite_iff.mp h)

theorem toIntegral_of_isFinite (whole : Bool → Nat → Nat) {x : Float} (h : x.isFinite = true) :
    toIntegral whole x =
      if unitsOf (magnitudeWord x) % unitsPerOne = 0 then x
      else ofRatio (isNegative x) (whole (isNegative x) (unitsOf (magnitudeWord x))) 1 := by
  rw [toIntegral, shape_of_isFinite h]

/-- What becomes of the magnitude is rounded to a double, with the sign that was there. -/
theorem isRounded_toIntegral (whole : Bool → Nat → Nat)
    (hwhole : ∀ negative n, whole negative (n * unitsPerOne) = n) {x : Float}
    (h : x.isFinite = true) :
    IsRounded (withSign (isNegative x) (whole (isNegative x) (unitsOf (magnitudeWord x))))
      (toIntegral whole x) := by
  rw [toIntegral_of_isFinite whole h]
  by_cases hrest : unitsOf (magnitudeWord x) % unitsPerOne = 0
  · -- An integer stays.
    obtain ⟨n, hn⟩ := Nat.dvd_of_mod_eq_zero hrest
    rw [Nat.mul_comm] at hn
    have hvalue : valueOf (magnitudeWord x) = n := by
      rw [valueOf, hn, Nat.cast_mul, mul_div_cancel_right₀ _ (ne_of_gt unitsPerOne_cast_pos)]
    have hself := isRounded_ratOf (isNaN_of_isFinite h)
    rw [ratOf, signedValue, hvalue] at hself
    rw [if_pos hrest, hn, hwhole]
    exact hself
  · rw [if_neg hrest]
    exact isRounded_ofRatio _ _

theorem wholeBelow_mul (n : Nat) : wholeBelow (n * unitsPerOne) = n :=
  Nat.mul_div_cancel n unitsPerOne_pos

theorem wholeAbove_mul (n : Nat) : wholeAbove (n * unitsPerOne) = n := by
  have hpos := unitsPerOne_pos
  rw [wholeAbove, Nat.div_eq_iff hpos]
  omega

theorem floor_natCast_div (units : Nat) : ⌊(units : ℚ) / unitsPerOne⌋ = wholeBelow units := by
  rw [Rat.floor_natCast_div_natCast, wholeBelow, Int.natCast_ediv]

theorem ceil_natCast_div (units : Nat) :
    ⌈(units : ℚ) / unitsPerOne⌉ = wholeAbove units := by
  have hpos := unitsPerOne_pos
  rw [wholeAbove, Int.ceil_eq_iff, lt_div_iff₀ unitsPerOne_cast_pos, div_le_iff₀ unitsPerOne_cast_pos]
  generalize unitsPerOne = one at hpos ⊢
  have hdiv := Nat.div_add_mod (units + (one - 1)) one
  have hmod := Nat.mod_lt (units + (one - 1)) hpos
  rw [Nat.mul_comm] at hdiv
  generalize (units + (one - 1)) / one = whole at hdiv ⊢
  constructor
  · have hlt : whole * one < units + one := by omega
    have hcast : (whole * one : ℚ) < units + one := by exact_mod_cast hlt
    rw [Int.cast_natCast, sub_mul, one_mul, sub_lt_iff_lt_add]
    exact hcast
  · have hle : units ≤ whole * one := by omega
    exact_mod_cast hle

theorem floor_ratOf (x : Float) :
    ⌊ratOf x⌋ = if isNegative x then -(wholeAbove (unitsOf (magnitudeWord x)) : ℤ)
      else wholeBelow (unitsOf (magnitudeWord x)) := by
  rw [ratOf, signedValue, valueOf]
  generalize unitsOf (magnitudeWord x) = units
  cases isNegative x with
  | false => exact floor_natCast_div units
  | true => rw [if_pos rfl, withSign_true, Int.floor_neg, ceil_natCast_div]

/-- The greatest integer that is no greater than a double, rounded to a double. -/
theorem isRounded_floor {x : Float} (h : x.isFinite = true) : IsRounded (⌊ratOf x⌋ : ℤ) (floor x) := by
  have hwhole : ∀ (negative : Bool) (n : Nat),
      (if negative then wholeAbove (n * unitsPerOne) else wholeBelow (n * unitsPerOne)) = n := by
    intro negative n
    cases negative with
    | false => rw [if_neg Bool.false_ne_true, wholeBelow_mul]
    | true => rw [if_pos rfl, wholeAbove_mul]
  have hrounded := isRounded_toIntegral
    (fun negative units => if negative then wholeAbove units else wholeBelow units) hwhole h
  rw [floor_ratOf]
  cases hsign : isNegative x with
  | false =>
      simp only [hsign, Bool.false_eq_true, if_false, withSign_false] at hrounded
      rw [if_neg Bool.false_ne_true, Int.cast_natCast]
      exact hrounded
  | true =>
      simp only [hsign, if_true, withSign_true] at hrounded
      rw [if_pos rfl, Int.cast_neg, Int.cast_natCast]
      exact hrounded

/-- Integers within the bounds are their own integer parts. -/
theorem toIntWithin_ofNat {lo hi : ℤ} {n : Nat} (hn : n ≤ 2 ^ 53) (hlo : lo ≤ n) (hhi : n ≤ hi) :
    toIntWithin lo hi (ofNat n) = n := by
  have hsign : isNegative (ofNat n) = false := isNegative_ofWord (nearestWord_le n 1)
  have hvalue := ratOf_ofNat hn
  have hfloor := floor_natCast_div (unitsOf (magnitudeWord (ofNat n)))
  rw [ratOf, hsign, signedValue_false] at hvalue
  rw [← valueOf, hvalue, Int.floor_natCast] at hfloor
  rw [toIntWithin, shape_of_isFinite (isFinite_ofNat hn), hsign]
  dsimp only
  rw [← hfloor]
  omega

/-! ## Where fractions end -/

/-- Numbers stop having fractions at `2 ^ 52`. -/
theorem valueOf_integralFrom : valueOf (1075 * fieldWeight) = 2 ^ 52 := by
  have hunits : unitsOf (1075 * fieldWeight) = 2 ^ 52 * unitsPerOne := by decide +kernel
  rw [valueOf, hunits, Nat.cast_mul, mul_div_cancel_right₀ _ (ne_of_gt unitsPerOne_cast_pos)]
  push_cast
  rfl

theorem le_abs_ratOf_iff {x : Float} : 2 ^ 52 ≤ |ratOf x| ↔ 1075 * fieldWeight ≤ magnitudeWord x := by
  rw [abs_ratOf, ← valueOf_integralFrom, valueOf_strictMono.le_iff_le]

theorem isIntegral_of_le_abs {x : Float} (hx : x.isFinite = true) (h : 2 ^ 52 ≤ |ratOf x|) :
    isIntegral x = true := by
  have hfield := Nat.div_le_div_right (c := fieldWeight) (le_abs_ratOf_iff.mp h)
  rw [Nat.mul_div_cancel _ fieldWeight_pos] at hfield
  have hexponent : unitPlaces ≤ exponentOf (magnitudeWord x) := by
    rw [unitPlaces, exponentOf]
    omega
  have hdvd : unitsPerOne ∣ unitsOf (magnitudeWord x) := by
    rw [Decimal.unitsPerOne_eq, unitsOf, Nat.pow_eq]
    exact Dvd.dvd.mul_left (Nat.pow_dvd_pow 2 hexponent) _
  rw [isIntegral, shape_of_isFinite hx]
  exact beq_iff_eq.mpr (Nat.mod_eq_zero_of_dvd hdvd)

end Binary64

end SheetFormula
