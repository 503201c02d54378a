/-
  SheetFormula.Proofs.Numbers.Rounded

  Rounding numbers with signs.  The number that a double stands for
  (`ratOf`) has the order of the doubles (`lt_iff_ratOf`), and what a number is
  rounded to (`IsRounded`) is said by its magnitude and its sign.  Rounding
  keeps the order (`IsRounded.mono`) and the doubles (`IsRounded.ratOf_eq`), and
  between the least normal double and the infinities it is off by one part in
  `2 ^ 53` at most (`IsRounded.error_le`).
-/
import SheetFormula.Proofs.Numbers.Ranks

namespace SheetFormula

namespace Binary64

/-! ## Spacings -/

theorem valueOf_nonneg (word : Nat) : 0 ≤ valueOf word := by
  rw [← valueOf_zero]
  exact valueOf_strictMono.monotone (Nat.zero_le word)

theorem valueOf_pos {word : Nat} (h : 0 < word) : 0 < valueOf word := by
  rw [← valueOf_zero]
  exact valueOf_strictMono h

theorem valueOf_eq (word : Nat) :
    valueOf word = significandOf word * (2 ^ exponentOf word / unitsPerOne) := by
  rw [← valueOf_add (Nat.le_of_lt (significandOf_lt word)) (exponentOf_eq_zero_or word),
    exponentOf_mul_add_significandOf]

theorem valueOf_succ (word : Nat) :
    valueOf (word + 1) = (significandOf word + 1) * (2 ^ exponentOf word / unitsPerOne) := by
  have hlead := (exponentOf_eq_zero_or word).imp_right Nat.le_succ_of_le
  have hadd := valueOf_add (Nat.succ_le_of_lt (significandOf_lt word)) hlead
  rw [Nat.add_succ, exponentOf_mul_add_significandOf, Nat.cast_succ] at hadd
  exact hadd

/-- How far it is from a double to the next one. -/
def spacing (word : Nat) : ℚ := valueOf (word + 1) - valueOf word

theorem spacing_eq (word : Nat) : spacing word = 2 ^ exponentOf word / unitsPerOne := by
  rw [spacing, valueOf_succ, valueOf_eq]
  ring

theorem spacing_pos (word : Nat) : 0 < spacing word :=
  sub_pos.mpr (valueOf_strictMono (Nat.lt_succ_self word))

/-- A significand has 53 bits. -/
theorem valueOf_succ_le_spacing (word : Nat) : valueOf (word + 1) ≤ 2 ^ 53 * spacing word := by
  have hle : (significandOf word + 1 : ℚ) ≤ 2 ^ 53 := by exact_mod_cast significandOf_lt word
  rw [valueOf_succ, ← spacing_eq]
  exact mul_le_mul_of_nonneg_right hle (le_of_lt (spacing_pos word))

/-- From the least normal double on the first of them is one. -/
theorem spacing_le_valueOf {word : Nat} (h : fieldWeight ≤ word) :
    2 ^ 52 * spacing word ≤ valueOf word := by
  have hle : fieldWeight ≤ significandOf word := by
    rw [significandOf, if_neg (Nat.not_lt.mpr h)]
    exact Nat.le_add_left ..
  have hle' : (2 : ℚ) ^ 52 ≤ significandOf word := by exact_mod_cast hle
  rw [valueOf_eq, ← spacing_eq]
  exact mul_le_mul_of_nonneg_right hle' (le_of_lt (spacing_pos word))

/-! ## Nearest doubles -/

section Nearest

variable {q r : ℚ} {v w : Nat}

theorem isNearest_valueOf (h : w ≤ infinityWord) : IsNearest (valueOf w) w := by
  refine .of_ne h fun v hne => .inl ?_
  rw [sub_self, abs_zero, abs_pos]
  exact sub_ne_zero.mpr (valueOf_strictMono.injective.ne hne)

theorem IsNearest.mono (hv : IsNearest q v) (hw : IsNearest r w) (hle : q ≤ r) : v ≤ w := by
  refine Nat.le_of_not_lt fun hlt => ?_
  have hvalue : valueOf w < valueOf v := valueOf_strictMono hlt
  have hq := hv.nearest w hw.le
  have hr := hw.nearest v hv.le
  -- The middle of the two doubles is at most the first number and at least the second.
  have hmiddle : ∀ {a : ℚ}, |valueOf v - a| ≤ |valueOf w - a| ↔ valueOf v + valueOf w ≤ 2 * a := by
    intro a
    rw [← sq_le_sq]
    constructor <;> intro h <;> nlinarith
  have hmiddle' : ∀ {a : ℚ}, |valueOf w - a| ≤ |valueOf v - a| ↔ 2 * a ≤ valueOf v + valueOf w := by
    intro a
    rw [← sq_le_sq]
    constructor <;> intro h <;> nlinarith
  have heq : q = r := by linarith [hmiddle.mp hq, hmiddle'.mp hr]
  subst heq
  exact absurd (hv.unique hw) (Nat.ne_of_gt hlt)

/-- A double is nearest to what is off by less than one part in `2 ^ 54`. -/
theorem IsNearest.of_close (hw : w ≤ infinityWord) (h : 2 ^ 54 * |q - valueOf w| < valueOf w) :
    IsNearest q w := by
  rcases le_or_gt (valueOf w) q with hbelow | habove
  · have hhalf := valueOf_succ_le_spacing w
    have hspacing := spacing_pos w
    rw [abs_of_nonneg (sub_nonneg.mpr hbelow)] at h
    rw [spacing] at hhalf hspacing
    exact .of_below hw hbelow (by linarith) (.inl (by linarith))
  · obtain ⟨v, rfl⟩ : ∃ v, w = v + 1 := by
      refine Nat.exists_eq_succ_of_ne_zero fun hzero => ?_
      rw [hzero, valueOf_zero] at h
      linarith [abs_nonneg (q - 0)]
    have hhalf := valueOf_succ_le_spacing v
    rw [abs_of_neg (sub_neg.mpr habove)] at h
    rw [spacing] at hhalf
    exact .of_above hw (by linarith) habove (.inl (by linarith))

/-- The nearest double is off by half a spacing at most, which is one part in `2 ^ 53`. -/
theorem IsNearest.error_le (h : IsNearest q w) (hlo : valueOf fieldWeight ≤ q)
    (hhi : q < valueOf infinityWord) : 2 ^ 53 * |valueOf w - q| ≤ q := by
  rcases le_or_gt (valueOf w) q with hbelow | habove
  · have hlt : w < infinityWord :=
      valueOf_strictMono.lt_iff_lt.mp (lt_of_le_of_lt hbelow hhi)
    have hnext := h.nearest (w + 1) hlt
    rw [abs_of_nonpos (sub_nonpos.mpr hbelow)] at hnext ⊢
    have hspacing := spacing_pos w
    have hgap : valueOf (w + 1) = valueOf w + spacing w := by rw [spacing, add_sub_cancel]
    rcases abs_cases (valueOf (w + 1) - q) with ⟨habs, -⟩ | ⟨habs, -⟩
    · have hnormal : fieldWeight ≤ w := by
        have hlt' : valueOf fieldWeight < valueOf (w + 1) := by linarith
        exact Nat.le_of_lt_succ (valueOf_strictMono.lt_iff_lt.mp hlt')
      have hle := spacing_le_valueOf hnormal
      linarith
    · linarith
  · obtain ⟨v, rfl⟩ : ∃ v, w = v + 1 := by
      refine Nat.exists_eq_succ_of_ne_zero fun hzero => ?_
      rw [hzero, valueOf_zero] at habove
      linarith [valueOf_nonneg fieldWeight]
    have hprevious := h.nearest v (Nat.le_of_succ_le h.le)
    rw [abs_of_pos (sub_pos.mpr habove)] at hprevious ⊢
    have hspacing := spacing_pos v
    have hgap : valueOf (v + 1) = valueOf v + spacing v := by rw [spacing, add_sub_cancel]
    rcases abs_cases (valueOf v - q) with ⟨habs, -⟩ | ⟨habs, -⟩
    · linarith
    · have hnormal : fieldWeight ≤ v := by
        have hlt' : valueOf fieldWeight < valueOf (v + 1) := by linarith
        exact Nat.le_of_lt_succ (valueOf_strictMono.lt_iff_lt.mp hlt')
      have hle := spacing_le_valueOf hnormal
      linarith

end Nearest

/-! ## Numbers of doubles -/

/-- The number with a sign. -/
def withSign (negative : Bool) (q : ℚ) : ℚ := if negative then -q else q

theorem withSign_false (q : ℚ) : withSign false q = q := rfl

theorem withSign_true (q : ℚ) : withSign true q = -q := rfl

theorem withSign_zero (negative : Bool) : withSign negative 0 = 0 := by
  cases negative with
  | false => rfl
  | true => exact neg_zero

theorem withSign_mul (s t : Bool) (p q : ℚ) :
    withSign s p * withSign t q = withSign (s ^^ t) (p * q) := by
  cases s with
  | false =>
      cases t with
      | false => rfl
      | true => exact mul_neg p q
  | true =>
      cases t with
      | false => exact neg_mul p q
      | true => exact neg_mul_neg p q

theorem withSign_inv (s : Bool) (p : ℚ) : (withSign s p)⁻¹ = withSign s p⁻¹ := by
  cases s with
  | false => rfl
  | true => exact inv_neg

theorem withSign_div (s t : Bool) (p q : ℚ) :
    withSign s p / withSign t q = withSign (s ^^ t) (p / q) := by
  rw [div_eq_mul_inv, withSign_inv, withSign_mul, ← div_eq_mul_inv]

/-- The number of a sign and magnitude bits. -/
def signedValue (negative : Bool) (word : Nat) : ℚ := withSign negative (valueOf word)

theorem signedValue_false (word : Nat) : signedValue false word = valueOf word := rfl

theorem signedValue_true (word : Nat) : signedValue true word = -valueOf word := rfl

theorem signedValue_not (negative : Bool) (word : Nat) :
    signedValue (!negative) word = -signedValue negative word := by
  cases negative with
  | false => rfl
  | true => exact (neg_neg _).symm

theorem signedValue_zero (negative : Bool) : signedValue negative 0 = 0 := by
  rw [signedValue, valueOf_zero, withSign_zero]

theorem abs_signedValue (negative : Bool) (word : Nat) : |signedValue negative word| = valueOf word := by
  have hnonneg := valueOf_nonneg word
  cases negative with
  | false => exact abs_of_nonneg hnonneg
  | true => exact (abs_neg _).trans (abs_of_nonneg hnonneg)

/-- Numbers with signs are in the order of the ranks. -/
theorem signedValue_lt_iff (s t : Bool) (v w : Nat) :
    signedValue s v < signedValue t w ↔ signed s v < signed t w := by
  have hvalue : ∀ {a b : Nat}, valueOf a < valueOf b ↔ a < b := valueOf_strictMono.lt_iff_lt
  have hv := valueOf_nonneg v
  have hw := valueOf_nonneg w
  cases s with
  | false =>
      cases t with
      | false =>
          rw [signedValue_false, signedValue_false, hvalue, signed_false, signed_false, Nat.cast_lt]
      | true =>
          rw [signedValue_false, signedValue_true, signed_false, signed_true]
          exact iff_of_false (by linarith) (by omega)
  | true =>
      cases t with
      | false =>
          rw [signedValue_true, signedValue_false, signed_true, signed_false]
          rcases Nat.eq_zero_or_pos v with rfl | hpos
          · rw [valueOf_zero, neg_zero, ← valueOf_zero, hvalue]
            omega
          · exact iff_of_true (by linarith [valueOf_pos hpos]) (by omega)
      | true =>
          rw [signedValue_true, signedValue_true, neg_lt_neg_iff, hvalue, signed_true, signed_true,
            neg_lt_neg_iff, Nat.cast_lt]

/-- The number that a double stands for; the infinities stand for the powers of two that would come
    next. -/
def ratOf (x : Float) : ℚ := signedValue (isNegative x) (magnitudeWord x)

theorem ratOf_ofWord (negative : Bool) {word : Nat} (h : word ≤ infinityWord) :
    ratOf (ofWord negative word) = signedValue negative word := by
  rw [ratOf, isNegative_ofWord h, magnitudeWord_ofWord h]

theorem abs_ratOf (x : Float) : |ratOf x| = valueOf (magnitudeWord x) := abs_signedValue ..

theorem ratOf_lt_iff (x y : Float) : ratOf x < ratOf y ↔ rank x < rank y :=
  signedValue_lt_iff ..

section Order

variable {x y : Float} (hx : x.isNaN = false) (hy : y.isNaN = false)

include hx hy

theorem lt_iff_ratOf : x < y ↔ ratOf x < ratOf y := by
  rw [lt_iff, ratOf_lt_iff]
  exact ⟨fun h => h.2.2, fun h => ⟨hx, hy, h⟩⟩

theorem le_iff_ratOf : x ≤ y ↔ ratOf x ≤ ratOf y := by
  rw [le_iff, ← not_lt (a := ratOf y), ratOf_lt_iff, not_lt]
  exact ⟨fun h => h.2.2, fun h => ⟨hx, hy, h⟩⟩

theorem beq_iff_ratOf : (x == y) = true ↔ ratOf x = ratOf y := by
  have hrank : rank x = rank y ↔ ratOf x = ratOf y := by
    rw [le_antisymm_iff, le_antisymm_iff, ← not_lt, ← not_lt, ← not_lt, ← not_lt, ratOf_lt_iff,
      ratOf_lt_iff]
  rw [beq_iff, hrank]
  exact ⟨fun h => h.2.2, fun h => ⟨hx, hy, h⟩⟩

end Order

theorem isNaN_of_isFinite {x : Float} (h : x.isFinite = true) : x.isNaN = false := by
  rw [isFinite_eq, decide_eq_true_eq] at h
  exact isNaN_eq_false_iff.mpr (Nat.le_of_lt h)

theorem isFinite_iff {x : Float} :
    x.isFinite = true ↔ magnitudeWord x < infinityWord := by
  rw [isFinite_eq, decide_eq_true_eq]

theorem ratOf_eq_zero_iff {x : Float} : ratOf x = 0 ↔ magnitudeWord x = 0 := by
  rw [← abs_eq_zero, abs_ratOf, ← valueOf_zero]
  exact valueOf_strictMono.injective.eq_iff

/-! ## Rounding -/

/-- The double has the nearest magnitude to the number, and its sign unless the number is zero. -/
structure IsRounded (q : ℚ) (x : Float) : Prop where
  nearest : IsNearest |q| (magnitudeWord x)
  negative : q < 0 → isNegative x = true
  positive : 0 < q → isNegative x = false

section Rounding

variable {q r : ℚ} {x y : Float}

theorem isRounded_ofWord {negative : Bool} {word : Nat} (h : IsNearest |q| word)
    (hneg : q < 0 → negative = true) (hpos : 0 < q → negative = false) :
    IsRounded q (ofWord negative word) where
  nearest := by
    rw [magnitudeWord_ofWord h.le]
    exact h
  negative hq := by
    rw [isNegative_ofWord h.le]
    exact hneg hq
  positive hq := by
    rw [isNegative_ofWord h.le]
    exact hpos hq

theorem isRounded_withSign (negative : Bool) {word : Nat} (h : IsNearest q word) (hq : 0 ≤ q) :
    IsRounded (withSign negative q) (ofWord negative word) := by
  rw [← abs_of_nonneg hq] at h
  cases negative with
  | false => exact isRounded_ofWord h (fun hneg => absurd hq (not_le.mpr hneg)) fun _ => rfl
  | true =>
      rw [← abs_neg] at h
      exact isRounded_ofWord h (fun _ => rfl) fun hpos => absurd hq (not_le.mpr (neg_pos.mp hpos))

theorem isRounded_ratOf (h : x.isNaN = false) : IsRounded (ratOf x) x where
  nearest := by
    rw [abs_ratOf]
    exact isNearest_valueOf (isNaN_eq_false_iff.mp h)
  negative hneg := by
    by_contra hsign
    rw [Bool.not_eq_true] at hsign
    rw [ratOf, hsign, signedValue_false] at hneg
    exact absurd hneg (not_lt.mpr (valueOf_nonneg _))
  positive hpos := by
    by_contra hsign
    rw [Bool.not_eq_false] at hsign
    rw [ratOf, hsign, signedValue_true, neg_pos] at hpos
    exact absurd hpos (not_lt.mpr (valueOf_nonneg _))

namespace IsRounded

theorem isNaN_eq_false (h : IsRounded q x) : x.isNaN = false := isNaN_eq_false_iff.mpr h.nearest.le

theorem neg (h : IsRounded q x) (hy : magnitudeWord y = magnitudeWord x)
    (hsign : isNegative y = !isNegative x) : IsRounded (-q) y where
  nearest := by
    rw [abs_neg, hy]
    exact h.nearest
  negative hneg := by
    rw [hsign, h.positive (by linarith)]
    rfl
  positive hpos := by
    rw [hsign, h.negative (by linarith)]
    rfl

theorem magnitudeWord_eq_zero (h : IsRounded 0 x) : magnitudeWord x = 0 := by
  have hnearest := h.nearest
  rw [abs_zero, ← valueOf_zero] at hnearest
  exact hnearest.unique (isNearest_valueOf (Nat.zero_le _))

theorem ratOf_of_nonneg (h : IsRounded q x) (hq : 0 ≤ q) : ratOf x = valueOf (magnitudeWord x) := by
  rcases eq_or_lt_of_le hq with rfl | hpos
  · rw [h.magnitudeWord_eq_zero, valueOf_zero, ratOf_eq_zero_iff]
    exact h.magnitudeWord_eq_zero
  · rw [ratOf, h.positive hpos, signedValue_false]

theorem ratOf_of_nonpos (h : IsRounded q x) (hq : q ≤ 0) : ratOf x = -valueOf (magnitudeWord x) := by
  rcases eq_or_lt_of_le hq with rfl | hneg
  · rw [h.magnitudeWord_eq_zero, valueOf_zero, neg_zero, ratOf_eq_zero_iff]
    exact h.magnitudeWord_eq_zero
  · rw [ratOf, h.negative hneg, signedValue_true]

theorem ratOf_nonneg (h : IsRounded q x) (hq : 0 ≤ q) : 0 ≤ ratOf x := by
  rw [h.ratOf_of_nonneg hq]
  exact valueOf_nonneg _

theorem ratOf_nonpos (h : IsRounded q x) (hq : q ≤ 0) : ratOf x ≤ 0 := by
  rw [h.ratOf_of_nonpos hq, neg_nonpos]
  exact valueOf_nonneg _

/-- A number is rounded to one of its sign, or to zero. -/
theorem mul_nonneg (h : IsRounded q x) (hq : 0 ≤ q * r) : 0 ≤ ratOf x * r := by
  rcases mul_nonneg_iff.mp hq with ⟨hnonneg, hr⟩ | ⟨hnonpos, hr⟩
  · exact mul_nonneg_iff.mpr (.inl ⟨h.ratOf_nonneg hnonneg, hr⟩)
  · exact mul_nonneg_iff.mpr (.inr ⟨h.ratOf_nonpos hnonpos, hr⟩)

/-- Rounding keeps the order. -/
theorem mono (hx : IsRounded q x) (hy : IsRounded r y) (hle : q ≤ r) : ratOf x ≤ ratOf y := by
  rcases le_or_gt 0 q with hq | hq
  · have hr : 0 ≤ r := le_trans hq hle
    rw [hx.ratOf_of_nonneg hq, hy.ratOf_of_nonneg hr]
    refine valueOf_strictMono.monotone (hx.nearest.mono hy.nearest ?_)
    rw [abs_of_nonneg hq, abs_of_nonneg hr]
    exact hle
  · rcases le_or_gt 0 r with hr | hr
    · exact le_trans (hx.ratOf_nonpos (le_of_lt hq)) (hy.ratOf_nonneg hr)
    · rw [hx.ratOf_of_nonpos (le_of_lt hq), hy.ratOf_of_nonpos (le_of_lt hr), neg_le_neg_iff]
      refine valueOf_strictMono.monotone (hy.nearest.mono hx.nearest ?_)
      rw [abs_of_neg hq, abs_of_neg hr]
      linarith

/-- Doubles are rounded to themselves. -/
theorem ratOf_eq (h : IsRounded (ratOf y) x) (hy : y.isNaN = false) : ratOf x = ratOf y :=
  le_antisymm (h.mono (isRounded_ratOf hy) le_rfl) ((isRounded_ratOf hy).mono h le_rfl)

/-- There is one rounding of a number other than zero. -/
theorem unique (hx : IsRounded q x) (hy : IsRounded q y) (hq : q ≠ 0) : x = y := by
  have hword := hx.nearest.unique hy.nearest
  have hsign : isNegative x = isNegative y := by
    rcases lt_or_gt_of_ne hq with hneg | hpos
    · rw [hx.negative hneg, hy.negative hneg]
    · rw [hx.positive hpos, hy.positive hpos]
  rw [← ofWord_magnitudeWord x, ← ofWord_magnitudeWord y, hword, hsign]

/-- What is no greater than a finite double is rounded to a finite one. -/
theorem isFinite (h : IsRounded q x) (hy : y.isFinite = true) (hle : |q| ≤ |ratOf y|) :
    x.isFinite = true := by
  have hself := (isRounded_ratOf (isNaN_of_isFinite hy)).nearest
  exact isFinite_iff.mpr (Nat.lt_of_le_of_lt (h.nearest.mono hself hle) (isFinite_iff.mp hy))

theorem error_le (h : IsRounded q x) (hlo : valueOf fieldWeight ≤ |q|)
    (hhi : |q| < valueOf infinityWord) : 2 ^ 53 * |ratOf x - q| ≤ |q| := by
  have herror := h.nearest.error_le hlo hhi
  rcases le_or_gt 0 q with hq | hq
  · rw [h.ratOf_of_nonneg hq]
    rw [abs_of_nonneg hq] at herror ⊢
    exact herror
  · rw [h.ratOf_of_nonpos (le_of_lt hq), ← abs_neg]
    rw [abs_of_neg hq] at herror ⊢
    rw [neg_sub', neg_neg]
    exact herror

end IsRounded

/-! ## Away from the ends -/

/-- The least normal double is smaller than what is met in arithmetic with few digits. -/
theorem valueOf_fieldWeight_le : valueOf fieldWeight ≤ 1 / 10 ^ 23 := by
  have hle : unitsOf fieldWeight * 10 ^ 23 ≤ unitsPerOne := by decide +kernel
  have hcast : (unitsOf fieldWeight * 10 ^ 23 : ℚ) ≤ unitsPerOne := by exact_mod_cast hle
  rw [valueOf, div_le_div_iff₀ unitsPerOne_cast_pos (by positivity), one_mul]
  exact hcast

/-- The greatest finite double is greater. -/
theorem ten_pow_le_valueOf : (10 : ℚ) ^ 23 ≤ valueOf (infinityWord - 1) := by
  have hle : 10 ^ 23 * unitsPerOne ≤ unitsOf (infinityWord - 1) := by decide +kernel
  have hcast : (10 ^ 23 * unitsPerOne : ℚ) ≤ unitsOf (infinityWord - 1) := by exact_mod_cast hle
  rw [valueOf, le_div_iff₀ unitsPerOne_cast_pos]
  exact hcast

theorem ten_pow_lt_valueOf_infinityWord : (10 : ℚ) ^ 23 < valueOf infinityWord :=
  lt_of_le_of_lt ten_pow_le_valueOf (valueOf_strictMono (by decide))

theorem isFinite_of_abs_ratOf_le (h : |ratOf x| ≤ 10 ^ 23) : x.isFinite = true := by
  rw [abs_ratOf] at h
  rw [isFinite_iff, ← valueOf_strictMono.lt_iff_lt]
  exact lt_of_le_of_lt h ten_pow_lt_valueOf_infinityWord

theorem IsRounded.isFinite_of_le (h : IsRounded q x) (hq : |q| ≤ 10 ^ 23) : x.isFinite = true := by
  have hle : infinityWord - 1 ≤ infinityWord := Nat.sub_le ..
  have hvalue := ratOf_ofWord false hle
  refine h.isFinite (y := ofWord false (infinityWord - 1)) ?_ ?_
  · rw [isFinite_iff, magnitudeWord_ofWord hle]
    decide
  · rw [hvalue, signedValue_false, abs_of_nonneg (valueOf_nonneg _)]
    exact le_trans hq ten_pow_le_valueOf

theorem IsRounded.error_le_of_bounds (h : IsRounded q x) (hlo : 1 / 10 ^ 23 ≤ |q|)
    (hhi : |q| ≤ 10 ^ 23) : 2 ^ 53 * |ratOf x - q| ≤ |q| :=
  h.error_le (le_trans valueOf_fieldWeight_le hlo) (lt_of_le_of_lt hhi ten_pow_lt_valueOf_infinityWord)

end Rounding

end Binary64

end SheetFormula
