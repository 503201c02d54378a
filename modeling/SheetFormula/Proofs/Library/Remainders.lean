/-
  SheetFormula.Proofs.Library.Remainders

  Remainders of divisions rounded down.  The quotient is rounded, then its floor
  is multiplied by the divisor, and that multiple is taken away from the number.
  The sign of the difference is exact, so the remainder follows the divisor just
  if the computed multiple has not gone past the number
  (`modulo_followsDivisor_iff`).  For whole numbers of at most 52 bits it has not,
  and the remainder is exact (`modulo_ofInt`); a quotient that is rounded up to an
  integer, or that is too large for a double, goes past.
-/
import SheetFormula.Proofs.Functions.Shipped
import SheetFormula.Proofs.Numbers.Arithmetic
import SheetFormula.Proofs.Numbers.Integral

namespace SheetFormula

namespace Binary64

/-! ## Differences that vanish -/

theorem exists_ratOf_eq (x : Float) : ∃ z : ℤ, ratOf x = z * valueOf 1 := by
  have hone : unitsOf 1 = 1 := by decide
  have hvalue : ∀ word, valueOf word = unitsOf word * valueOf 1 := by
    intro word
    rw [valueOf, valueOf, hone, Nat.cast_one, mul_one_div]
  rw [ratOf, signedValue, hvalue]
  cases isNegative x with
  | false => exact ⟨unitsOf (magnitudeWord x), by rw [withSign_false, Int.cast_natCast]⟩
  | true =>
      exact ⟨-unitsOf (magnitudeWord x), by rw [withSign_true, Int.cast_neg, Int.cast_natCast, neg_mul]⟩

/-- Only the difference of equal doubles is rounded to zero. -/
theorem ratOf_eq_of_sub {x y : Float} (hx : x.isFinite = true) (hy : y.isFinite = true)
    (h : ratOf (x - y) = 0) : ratOf x = ratOf y := by
  by_contra hne
  obtain ⟨a, ha⟩ := exists_ratOf_eq x
  obtain ⟨b, hb⟩ := exists_ratOf_eq y
  have hunit : 0 < valueOf 1 := valueOf_pos Nat.one_pos
  have hab : a - b ≠ 0 := by
    rintro hzero
    rw [ha, hb, sub_eq_zero.mp hzero] at hne
    exact hne rfl
  have hle : valueOf 1 ≤ |ratOf x - ratOf y| := by
    have hone : (1 : ℚ) ≤ |(a : ℚ) - b| := by exact_mod_cast Int.one_le_abs hab
    rw [ha, hb, ← sub_mul, abs_mul, abs_of_pos hunit]
    exact le_mul_of_one_le_left (le_of_lt hunit) hone
  have hnearest := (isRounded_sub hx hy).nearest
  rw [ratOf_eq_zero_iff.mp h] at hnearest
  exact absurd ((isNearest_valueOf (by decide)).mono hnearest hle) (by decide)

end Binary64

namespace Library

open Binary64

/-- The multiple of the divisor that is taken away from the number. -/
def multiple (x divisor : Float) : Float := divisor * floor (x / divisor)

/-- The number is finite, and zero or of the divisor's sign. -/
def FollowsDivisor (r divisor : Float) : Prop :=
  r.isFinite = true ∧ ((r == 0) = true ∨ 0 < r ∧ 0 < divisor ∨ r < 0 ∧ divisor < 0)

instance (r divisor : Float) : Decidable (FollowsDivisor r divisor) :=
  inferInstanceAs (Decidable (_ ∧ _))

/-- The multiple is finite, and on the number's side that a remainder with the divisor's sign has. -/
def StaysBehind (multiple x divisor : Float) : Prop :=
  multiple.isFinite = true ∧ (0 < divisor → multiple ≤ x) ∧ (divisor < 0 → x ≤ multiple)

instance (multiple x divisor : Float) : Decidable (StaysBehind multiple x divisor) :=
  inferInstanceAs (Decidable (_ ∧ _))

/-! ## Signs as products -/

/-- Of numbers with one sign the difference is no greater than the greater. -/
theorem abs_sub_le_max {p q : ℚ} (h : 0 ≤ p * q) : |q - p| ≤ max |q| |p| := by
  rcases mul_nonneg_iff.mp h with ⟨hp, hq⟩ | ⟨hp, hq⟩
  · rw [abs_of_nonneg hq, abs_of_nonneg hp]
    exact abs_sub_le_of_nonneg_of_le hq (le_max_left ..) hp (le_max_right ..)
  · rw [abs_of_nonpos hq, abs_of_nonpos hp, abs_sub_comm, ← neg_sub_neg]
    exact abs_sub_le_of_nonneg_of_le (neg_nonneg.mpr hq) (le_max_left ..) (neg_nonneg.mpr hp)
      (le_max_right ..)

section Signs

theorem ratOf_zero : ratOf 0 = 0 := by
  rw [ratOf_eq_zero_iff]
  decide +kernel

theorem ratOf_ne_zero {d : Float} (hne : (d == 0) = false) : ratOf d ≠ 0 := by
  rw [Ne, ratOf_eq_zero_iff, ← beq_zero_iff, hne]
  exact Bool.false_ne_true

variable {x d r m : Float} (hd : d.isFinite = true) (hne : (d == 0) = false)

include hd hne

theorem followsDivisor_iff (hr : r.isFinite = true) : FollowsDivisor r d ↔ 0 ≤ ratOf r * ratOf d := by
  have hzero : (0 : Float).isNaN = false := by decide +kernel
  have hr' := isNaN_of_isFinite hr
  have hd' := isNaN_of_isFinite hd
  have hdne := ratOf_ne_zero hne
  rw [FollowsDivisor, beq_zero_iff, ← ratOf_eq_zero_iff, lt_iff_ratOf hzero hr', lt_iff_ratOf hzero hd',
    lt_iff_ratOf hr' hzero, lt_iff_ratOf hd' hzero, ratOf_zero, mul_nonneg_iff]
  constructor
  · rintro ⟨-, hzero | ⟨hrpos, hdpos⟩ | ⟨hrneg, hdneg⟩⟩
    · rcases lt_or_gt_of_ne hdne with hneg | hpos
      · exact .inr ⟨le_of_eq hzero, le_of_lt hneg⟩
      · exact .inl ⟨le_of_eq hzero.symm, le_of_lt hpos⟩
    · exact .inl ⟨le_of_lt hrpos, le_of_lt hdpos⟩
    · exact .inr ⟨le_of_lt hrneg, le_of_lt hdneg⟩
  · rintro (⟨hrpos, hdpos⟩ | ⟨hrneg, hdneg⟩)
    · rcases eq_or_lt_of_le hrpos with heq | hlt
      · exact ⟨hr, .inl heq.symm⟩
      · exact ⟨hr, .inr (.inl ⟨hlt, lt_of_le_of_ne hdpos hdne.symm⟩)⟩
    · rcases eq_or_lt_of_le hrneg with heq | hlt
      · exact ⟨hr, .inl heq⟩
      · exact ⟨hr, .inr (.inr ⟨hlt, lt_of_le_of_ne hdneg hdne⟩)⟩

theorem staysBehind_iff (hx : x.isFinite = true) (hm : m.isFinite = true) :
    StaysBehind m x d ↔ 0 ≤ (ratOf x - ratOf m) * ratOf d := by
  have hzero : (0 : Float).isNaN = false := by decide +kernel
  have hx' := isNaN_of_isFinite hx
  have hm' := isNaN_of_isFinite hm
  have hd' := isNaN_of_isFinite hd
  rw [StaysBehind, lt_iff_ratOf hzero hd', lt_iff_ratOf hd' hzero, le_iff_ratOf hm' hx',
    le_iff_ratOf hx' hm', ratOf_zero]
  rcases lt_or_gt_of_ne (ratOf_ne_zero hne) with hneg | hpos
  · have hnot := not_lt.mpr (le_of_lt hneg)
    rw [← neg_mul_neg, mul_nonneg_iff_of_pos_right (neg_pos.mpr hneg), neg_sub, sub_nonneg]
    exact ⟨fun h => h.2.2 hneg, fun h => ⟨hm, fun hpos => absurd hpos hnot, fun _ => h⟩⟩
  · have hnot := not_lt.mpr (le_of_lt hpos)
    rw [mul_nonneg_iff_of_pos_right hpos, sub_nonneg]
    exact ⟨fun h => h.2.1 hpos, fun h => ⟨hm, fun _ => h, fun hneg => absurd hneg hnot⟩⟩

end Signs

/-! ## The computed multiple -/

section Multiple

variable {x d : Float} (hx : x.isFinite = true) (hd : d.isFinite = true) (hne : (d == 0) = false)

theorem modulo_eq (hne : (d == 0) = false) : modulo x d = x - multiple x d := by
  have hzero : ofNat 0 = 0 := by decide +kernel
  rw [modulo, hzero, hne]
  rfl

theorem floor_of_not_isFinite {y : Float} (h : y.isFinite = false) : (floor y).isFinite = false := by
  have hle : infinityWord ≤ magnitudeWord y := by
    rw [isFinite_eq, decide_eq_false_iff_not, Nat.not_lt] at h
    exact h
  have hself : floor y = y := by
    rw [floor, toIntegral]
    rcases Nat.lt_or_eq_of_le hle with hnan | hinfinity
    · rw [shape_of_gt hnan]
    · rw [shape_of_eq hinfinity.symm]
  rw [hself, h]

theorem isFinite_quotient (h : (multiple x d).isFinite = true) : (x / d).isFinite = true := by
  by_contra hquotient
  rw [Bool.not_eq_true] at hquotient
  have hfloor := floor_of_not_isFinite hquotient
  rw [isFinite_of_mul h] at hfloor
  cases hfloor

include hx hd hne

/-- The computed multiple has the number's sign, or is zero. -/
theorem multiple_sign (h : (multiple x d).isFinite = true) :
    0 ≤ ratOf (multiple x d) * ratOf x := by
  have hdne := ratOf_ne_zero hne
  have hquotient := isFinite_quotient h
  -- Quotient, floor and multiple keep a sign, or become zero.
  have hfirst : 0 ≤ ratOf (x / d) * (ratOf d * ratOf x) := by
    refine (isRounded_div hx hd hdne).mul_nonneg ?_
    rw [← mul_assoc, div_mul_cancel₀ _ hdne]
    exact mul_self_nonneg _
  have hsecond : 0 ≤ ratOf (floor (x / d)) * (ratOf d * ratOf x) := by
    refine (isRounded_floor hquotient).mul_nonneg ?_
    have hle : (⌊ratOf (x / d)⌋ : ℚ) ≤ ratOf (x / d) := Int.floor_le _
    rcases mul_nonneg_iff.mp hfirst with ⟨hnonneg, hprod⟩ | ⟨hnonpos, hprod⟩
    · have hfloor : (0 : ℚ) ≤ ⌊ratOf (x / d)⌋ := by exact_mod_cast Int.floor_nonneg.mpr hnonneg
      exact mul_nonneg hfloor hprod
    · exact mul_nonneg_of_nonpos_of_nonpos (le_trans hle hnonpos) hprod
  refine (isRounded_mul hd (isFinite_of_mul h)).mul_nonneg ?_
  rw [mul_right_comm, mul_comm]
  exact hsecond

/-- What is left is finite if the computed multiple is. -/
theorem isFinite_sub_multiple (h : (multiple x d).isFinite = true) :
    (x - multiple x d).isFinite = true := by
  have hsub := isRounded_sub hx h
  rcases le_max_iff.mp (abs_sub_le_max (multiple_sign hx hd hne h)) with hle | hle
  · exact hsub.isFinite hx hle
  · exact hsub.isFinite h hle

/-- The remainder follows the divisor just if the computed multiple stays behind the number. -/
theorem followsDivisor_modulo : FollowsDivisor (modulo x d) d ↔ StaysBehind (multiple x d) x d := by
  rw [modulo_eq hne]
  by_cases hm : (multiple x d).isFinite = true
  · have hsub := isRounded_sub hx hm
    rw [followsDivisor_iff hd hne (isFinite_sub_multiple hx hd hne hm), staysBehind_iff hd hne hx hm]
    constructor
    · intro h
      by_contra hlt
      have hnonpos : 0 ≤ ratOf (x - multiple x d) * -ratOf d := by
        refine hsub.mul_nonneg ?_
        rw [mul_neg, neg_nonneg]
        exact le_of_lt (not_le.mp hlt)
      have hzero : ratOf (x - multiple x d) * ratOf d = 0 := by
        rw [mul_neg, neg_nonneg] at hnonpos
        exact le_antisymm hnonpos h
      have heq := ratOf_eq_of_sub hx hm ((mul_eq_zero_iff_right (ratOf_ne_zero hne)).mp hzero)
      rw [heq, sub_self, zero_mul] at hlt
      exact hlt le_rfl
    · exact hsub.mul_nonneg
  · exact iff_of_false (fun h => hm (isFinite_of_sub h.1)) fun h => hm h.1

end Multiple

/-! ## Whole numbers -/

theorem floor_intCast_div (a : ℤ) {b : ℤ} (hne : b ≠ 0) : ⌊(a : ℚ) / b⌋ = a.fdiv b := by
  rcases lt_or_gt_of_ne hne with hneg | hpos
  · obtain ⟨n, rfl⟩ := Int.exists_eq_neg_ofNat (le_of_lt hneg)
    have hfloor := Rat.floor_intCast_div_natCast (-a) n
    rw [← Int.fdiv_eq_ediv_of_nonneg _ (Int.natCast_nonneg n), ← Int.neg_fdiv_neg, neg_neg] at hfloor
    rw [← hfloor]
    push_cast
    rw [neg_div, div_neg]
  · obtain ⟨n, rfl⟩ := Int.eq_ofNat_of_zero_le (le_of_lt hpos)
    rw [Int.cast_natCast, Rat.floor_intCast_div_natCast,
      Int.fdiv_eq_ediv_of_nonneg _ (Int.natCast_nonneg n)]

theorem abs_fmod_lt (a : ℤ) {b : ℤ} (hne : b ≠ 0) : |a.fmod b| < |b| := by
  rcases lt_or_gt_of_ne hne with hneg | hpos
  · have hnonneg := Int.fmod_nonneg_of_pos (-a) (neg_pos.mpr hneg)
    have hlt := Int.fmod_lt_of_pos (-a) (neg_pos.mpr hneg)
    rw [Int.neg_fmod_neg] at hnonneg hlt
    rw [abs_of_neg hneg, ← abs_neg, abs_of_nonneg hnonneg]
    exact hlt
  · rw [abs_of_pos hpos, abs_of_nonneg (Int.fmod_nonneg_of_pos a hpos)]
    exact Int.fmod_lt_of_pos a hpos

theorem fmod_mul_nonneg (a : ℤ) {b : ℤ} (hne : b ≠ 0) : 0 ≤ a.fmod b * b := by
  rcases lt_or_gt_of_ne hne with hneg | hpos
  · have hnonneg := Int.fmod_nonneg_of_pos (-a) (neg_pos.mpr hneg)
    rw [Int.neg_fmod_neg, neg_nonneg] at hnonneg
    exact mul_nonneg_of_nonpos_of_nonpos hnonneg (le_of_lt hneg)
  · exact mul_nonneg (Int.fmod_nonneg_of_pos a hpos) (le_of_lt hpos)

section Whole

variable {a b : ℤ} (ha : |a| ≤ 2 ^ 52) (hne : b ≠ 0)

include ha hne

theorem abs_quotient_le : |(a : ℚ) / b| ≤ 2 ^ 52 := by
  have hbpos : (1 : ℚ) ≤ |(b : ℚ)| := by exact_mod_cast Int.one_le_abs hne
  have hacast : |(a : ℚ)| ≤ 2 ^ 52 := by exact_mod_cast ha
  rw [abs_div]
  exact le_trans (div_le_self (abs_nonneg _) hbpos) hacast

theorem fdiv_bounds : |a.fdiv b| ≤ 2 ^ 53 ∧ |a.fdiv b + 1| ≤ 2 ^ 53 := by
  obtain ⟨hle, hlt⟩ := Int.floor_eq_iff.mp (floor_intCast_div a hne)
  obtain ⟨hlo, hhi⟩ := abs_le.mp (abs_quotient_le ha hne)
  have hnlo : (-(2 ^ 52) - 1 : ℤ) < a.fdiv b := by
    have : (-(2 ^ 52) - 1 : ℚ) < a.fdiv b := by linarith
    exact_mod_cast this
  have hnhi : a.fdiv b ≤ 2 ^ 52 := by
    have : (a.fdiv b : ℚ) ≤ 2 ^ 52 := by linarith
    exact_mod_cast this
  rw [abs_le, abs_le]
  omega

variable (hb : |b| ≤ 2 ^ 52)

include hb

/-- The rounded quotient of whole numbers is no greater integer: it would have to be off by the
    divisor's part in one, and it is off by less. -/
theorem rounded_quotient_ne {y : Float} (hy : IsRounded ((a : ℚ) / b) y) {n : ℤ}
    (hlt : (a : ℚ) / b < n) : ratOf y ≠ n := by
  intro heq
  have hbpos : (1 : ℚ) ≤ |(b : ℚ)| := by exact_mod_cast Int.one_le_abs hne
  have hbcast : |(b : ℚ)| ≤ 2 ^ 52 := by exact_mod_cast hb
  have hacast : |(a : ℚ)| ≤ 2 ^ 52 := by exact_mod_cast ha
  have hbne : (b : ℚ) ≠ 0 := by exact_mod_cast hne
  rcases eq_or_ne a 0 with rfl | hane
  · rw [Int.cast_zero, zero_div] at hy hlt
    rw [ratOf_eq_zero_iff.mpr hy.magnitudeWord_eq_zero] at heq
    exact absurd heq (ne_of_lt hlt)
  · have hapos : (1 : ℚ) ≤ |(a : ℚ)| := by exact_mod_cast Int.one_le_abs hane
    have hlo : 1 / 10 ^ 23 ≤ |(a : ℚ) / b| := by
      rw [abs_div, div_le_div_iff₀ (by positivity) (by linarith)]
      linarith
    have herror := hy.error_le_of_bounds hlo (le_trans (abs_quotient_le ha hne) (by norm_num))
    -- In parts of the divisor the error would be a whole number.
    have hwhole : n * b - a ≠ 0 := by
      intro hzero
      have hequal : (n : ℚ) * b - a = 0 := by exact_mod_cast hzero
      have hreached : (a : ℚ) / b = n := by
        rw [div_eq_iff hbne]
        linarith
      exact absurd hreached (ne_of_lt hlt)
    have hone : (1 : ℚ) ≤ |(n : ℚ) * b - a| := by exact_mod_cast Int.one_le_abs hwhole
    have hscaled : |(n : ℚ) - a / b| * |(b : ℚ)| = |(n : ℚ) * b - a| := by
      rw [← abs_mul, sub_mul, div_mul_cancel₀ _ hbne]
    have hquotient : |(a : ℚ) / b| * |(b : ℚ)| = |(a : ℚ)| := by
      rw [← abs_mul, div_mul_cancel₀ _ hbne]
    rw [heq] at herror
    have hfinal := mul_le_mul_of_nonneg_right herror (abs_nonneg (b : ℚ))
    rw [mul_assoc, hscaled, hquotient] at hfinal
    linarith

theorem floor_rounded_quotient {y : Float} (hy : IsRounded ((a : ℚ) / b) y) :
    ⌊ratOf y⌋ = a.fdiv b := by
  obtain ⟨hle, hlt⟩ := Int.floor_eq_iff.mp (floor_intCast_div a hne)
  have hnext : (a : ℚ) / b < (a.fdiv b + 1 : ℤ) := by exact_mod_cast hlt
  have hreach := rounded_quotient_ne ha hne hb hy hnext
  obtain ⟨hfirst, hsecond⟩ := fdiv_bounds ha hne
  have hbelow := hy.mono (isRounded_ofInt (a.fdiv b + 1)) (le_of_lt hnext)
  rw [ratOf_ofInt hsecond] at hbelow
  refine Int.floor_eq_iff.mpr ⟨?_, ?_⟩
  · rw [← ratOf_ofInt hfirst]
    exact (isRounded_ofInt _).mono hy hle
  · exact_mod_cast lt_of_le_of_ne hbelow hreach

/-- The remainder of whole numbers is exact. -/
theorem ratOf_modulo_ofInt :
    (modulo (ofInt a) (ofInt b)).isFinite = true ∧
      ratOf (modulo (ofInt a) (ofInt b)) = (a.fmod b : ℤ) := by
  have ha53 : |a| ≤ 2 ^ 53 := le_trans ha (by norm_num)
  have hb53 : |b| ≤ 2 ^ 53 := le_trans hb (by norm_num)
  have hnonzero : (ofInt b == 0) = false := by
    rw [← Bool.not_eq_true, beq_zero_iff, ← ratOf_eq_zero_iff, ratOf_ofInt hb53]
    exact_mod_cast hne
  have hdivision := Int.mul_fdiv_add_fmod a b
  have hrest := abs_fmod_lt a hne
  have hquotient := isRounded_div (isFinite_ofInt ha53) (isFinite_ofInt hb53) (ratOf_ne_zero hnonzero)
  rw [ratOf_ofInt ha53, ratOf_ofInt hb53] at hquotient
  have hfinite : (ofInt a / ofInt b).isFinite = true := by
    have hpower : |(2 ^ 52 : ℤ)| ≤ 2 ^ 53 := by norm_num
    refine hquotient.isFinite (isFinite_ofInt hpower) ?_
    rw [ratOf_ofInt hpower]
    exact le_trans (abs_quotient_le ha hne) (by norm_num)
  have hfloor := isRounded_floor hfinite
  rw [floor_rounded_quotient ha hne hb hquotient] at hfloor
  have hfloor53 := (fdiv_bounds ha hne).1
  -- The multiple is the whole number that it should be, and so is the difference.
  have hmultiple := isRounded_mul (isFinite_ofInt hb53) (hfloor.isFinite_of_int hfloor53)
  rw [ratOf_ofInt hb53, hfloor.ratOf_of_int hfloor53, ← Int.cast_mul] at hmultiple
  have hmultiple53 : |b * a.fdiv b| ≤ 2 ^ 53 := by
    have hrest52 := abs_le.mp (le_trans (le_of_lt hrest) hb)
    rw [abs_le] at ha ⊢
    omega
  have hsub := isRounded_sub (isFinite_ofInt ha53) (hmultiple.isFinite_of_int hmultiple53)
  have hdifference : a - b * a.fdiv b = a.fmod b := by omega
  rw [ratOf_ofInt ha53, hmultiple.ratOf_of_int hmultiple53, ← Int.cast_sub, hdifference] at hsub
  have hrest53 : |a.fmod b| ≤ 2 ^ 53 := le_trans (le_of_lt hrest) hb53
  rw [modulo_eq hnonzero]
  exact ⟨hsub.isFinite_of_int hrest53, hsub.ratOf_of_int hrest53⟩

end Whole

/-! ## The function of the library -/

theorem computes_modulo :
    Computes "mod" fun args => .number (modulo (arg args 0).toNumber (arg args 1).toNumber) := by
  have hmem : ∀ σ : Type, binaryNumber "mod" modulo ∈ (standard : List (SheetFunction σ)) := by
    simp [standard, numberFunctions]
  exact computes_of_mem hmem

/-- The remainder that the library's `mod` computes is finite, and zero or of the divisor's sign,
    just if the computed multiple stays behind the number; for whole numbers it does, and the
    remainder is exact. -/
theorem modulo_followsDivisor_iff {v w : Value} (hv : v.toNumber.isFinite = true)
    (hw : w.toNumber.isFinite = true) (hne : (w.toNumber == 0) = false) :
    Computes "mod" (fun args => .number (modulo (arg args 0).toNumber (arg args 1).toNumber)) ∧
      (FollowsDivisor (modulo v.toNumber w.toNumber) w.toNumber ↔
        StaysBehind (multiple v.toNumber w.toNumber) v.toNumber w.toNumber) ∧
      ∀ a b : ℤ, v.toNumber = ofInt a → w.toNumber = ofInt b → |a| ≤ 2 ^ 52 → |b| ≤ 2 ^ 52 →
        FollowsDivisor (modulo v.toNumber w.toNumber) w.toNumber ∧
          (modulo v.toNumber w.toNumber == ofInt (a.fmod b)) = true := by
  refine ⟨computes_modulo, followsDivisor_modulo hv hw hne, fun a b hva hwb ha hb => ?_⟩
  have hb53 : |b| ≤ 2 ^ 53 := le_trans hb (by norm_num)
  have hbne : b ≠ 0 := by
    have hzero := ratOf_ne_zero hne
    rw [hwb, ratOf_ofInt hb53] at hzero
    exact_mod_cast hzero
  have hrest53 : |a.fmod b| ≤ 2 ^ 53 := le_trans (le_of_lt (abs_fmod_lt a hbne)) hb53
  obtain ⟨hfinite, hvalue⟩ := ratOf_modulo_ofInt ha hbne hb
  rw [hva, hwb]
  rw [hwb] at hw hne
  constructor
  · rw [followsDivisor_iff hw hne hfinite, hvalue, ratOf_ofInt hb53]
    exact_mod_cast fmod_mul_nonneg a hbne
  · rw [beq_iff_ratOf (isNaN_of_isFinite hfinite) (isNaN_of_isFinite (isFinite_ofInt hrest53)), hvalue,
      ratOf_ofInt hrest53]

theorem modulo_followsDivisor_iff_seven :
    (FollowsDivisor (modulo 7 (-3)) (-3) ↔ StaysBehind (multiple 7 (-3)) 7 (-3)) ∧
      (modulo 7 (-3) == ofInt (Int.fmod 7 (-3))) = true := by
  have hsettled := (modulo_followsDivisor_iff (v := .number 7) (w := .number (-3))
    (by decide +kernel) (by decide +kernel) (by decide +kernel)).2
  have hseven : (7 : Float) = ofInt 7 := by decide +kernel
  have hthree : (-3 : Float) = ofInt (-3) := by decide +kernel
  exact ⟨hsettled.1, (hsettled.2 7 (-3) hseven hthree (by norm_num) (by norm_num)).2⟩

/-- The quotient of 1.7 and 0.1 is rounded up to 17, and 17 times 0.1 to more than 1.7. -/
theorem modulo_beyond_divisor :
    (1.7 : Float).isFinite = true ∧ (0.1 : Float).isFinite = true ∧ ((0.1 : Float) == 0) = false ∧
      ¬ FollowsDivisor (modulo 1.7 0.1) 0.1 := by
  decide +kernel

end Library

end SheetFormula
