/-
  SheetFormula.Proofs.Numbers.Ranks

  The doubles in one row.  A double with a sign bit ranks as far below zero as
  the one without ranks above it, so the two zeros share a rank.  Comparing two
  doubles is comparing their ranks, except that "not a number" has no place in
  the row (`lt_iff`, `le_iff`, `beq_iff`); a rank settles the double up to the
  sign of zero (`eq_or_zeros_of_rank`).
-/
import SheetFormula.Proofs.Numbers.Order
import SheetFormula.Value

namespace SheetFormula

namespace Binary64

open Float.Model

/-! ## Signs in comparisons -/

/-- The rank of a sign and magnitude bits. -/
def signed (negative : Bool) (word : Nat) : ℤ := if negative then -(word : ℤ) else word

theorem unpackedOf_not (negative : Bool) (word : Nat) :
    unpackedOf (!negative) word = (unpackedOf negative word).neg := by
  unfold unpackedOf
  cases negative <;> split_ifs <;> rfl

theorem unpackedOf_true (word : Nat) : unpackedOf true word = (unpackedOf false word).neg :=
  unpackedOf_not false word

/-- Two changed signs turn a comparison around. -/
theorem compare_neg_neg (a b : UnpackedFloat) : a.neg.compare b.neg = b.compare a := by
  cases a with
  | notANumber => cases b <;> rfl
  | infinity s =>
      cases b with
      | notANumber => rfl
      | infinity t => cases s <;> cases t <;> rfl
      | zero t => cases s <;> rfl
      | finite t _ _ _ => cases s <;> cases t <;> rfl
  | zero s =>
      cases b with
      | notANumber => rfl
      | infinity t => cases t <;> rfl
      | zero t => rfl
      | finite t _ _ _ => cases t <;> rfl
  | finite s m e _ =>
      cases b with
      | notANumber => rfl
      | infinity t => cases s <;> cases t <;> rfl
      | zero t => cases s <;> rfl
      | finite t n f _ =>
          have hswap : ((compare e f).then (compare m n)).swap = (compare f e).then (compare n m) := by
            rw [Ordering.swap_then, Int.compare_swap, Nat.compare_swap]
          cases s with
          | positive =>
              cases t with
              | positive => exact congrArg some hswap
              | negative => rfl
          | negative =>
              cases t with
              | positive => rfl
              | negative =>
                  have := congrArg Ordering.swap hswap
                  rw [Ordering.swap_swap] at this
                  exact congrArg some this

theorem signed_false (word : Nat) : signed false word = word := rfl

theorem signed_true (word : Nat) : signed true word = -(word : ℤ) := rfl

theorem compare_natCast (v w : Nat) : compare v w = compare (v : ℤ) w := by
  rw [← cmp_eq_compare, ← cmp_eq_compare]
  exact (Nat.strictMono_cast.cmp_map_eq v w).symm

theorem compare_neg_natCast (v w : Nat) : compare w v = compare (-(v : ℤ)) (-w) := by
  have hneg : StrictAnti fun z : ℤ => -z := fun _ _ => neg_lt_neg
  rw [compare_natCast, ← cmp_eq_compare, ← cmp_eq_compare]
  exact (hneg.cmp_map_eq _ _).symm

section Signs

variable {v w : Nat} (hv : v ≤ infinityWord) (hw : w ≤ infinityWord)

include hv hw

/-- Of two magnitudes with different signs the one with the minus is less, unless both are zero. -/
theorem compare_opposite (hne : ¬ (v = 0 ∧ w = 0)) :
    (unpackedOf true v).compare (unpackedOf false w) = some .lt ∧
      (unpackedOf false v).compare (unpackedOf true w) = some .gt := by
  rw [unpackedOf_true, unpackedOf_true]
  rcases unpackedOf_cases hv with ⟨hvzero, hv'⟩ | ⟨-, hv'⟩ | ⟨-, -, _, hv'⟩
  · rcases unpackedOf_cases hw with ⟨hwzero, -⟩ | ⟨-, hw'⟩ | ⟨-, -, _, hw'⟩
    · exact absurd ⟨hvzero, hwzero⟩ hne
    · rw [hv', hw']
      exact ⟨rfl, rfl⟩
    · rw [hv', hw']
      exact ⟨rfl, rfl⟩
  · rw [hv']
    rcases unpackedOf_cases hw with ⟨-, hw'⟩ | ⟨-, hw'⟩ | ⟨-, -, _, hw'⟩ <;> rw [hw'] <;>
      exact ⟨rfl, rfl⟩
  · rw [hv']
    rcases unpackedOf_cases hw with ⟨-, hw'⟩ | ⟨-, hw'⟩ | ⟨-, -, _, hw'⟩ <;> rw [hw'] <;>
      exact ⟨rfl, rfl⟩

/-- Magnitudes with signs are compared as the integers are that they rank at. -/
theorem compare_signed (s t : Bool) :
    (unpackedOf s v).compare (unpackedOf t w) = some (compare (signed s v) (signed t w)) := by
  by_cases hzero : v = 0 ∧ w = 0
  · obtain ⟨rfl, rfl⟩ := hzero
    cases s <;> cases t <;> rfl
  · obtain ⟨hless, hgreater⟩ := compare_opposite hv hw hzero
    cases s with
    | false =>
        cases t with
        | false => rw [compare_unpackedOf hv hw, signed_false, signed_false, compare_natCast]
        | true =>
            rw [hgreater, signed_false, signed_true, compare_gt_iff_gt.mpr (by omega)]
    | true =>
        cases t with
        | false =>
            rw [hless, signed_false, signed_true, compare_lt_iff_lt.mpr (by omega)]
        | true =>
            rw [unpackedOf_true, unpackedOf_true, compare_neg_neg, compare_unpackedOf hw hv,
              signed_true, signed_true, compare_neg_natCast]

end Signs

/-! ## Ranks -/

/-- Where a double stands in the row: its magnitude bits, counted down from zero behind a sign. -/
def rank (x : Float) : ℤ := signed (isNegative x) (magnitudeWord x)

theorem isNaN_eq_false_iff {x : Float} : x.isNaN = false ↔ magnitudeWord x ≤ infinityWord := by
  rw [isNaN_eq, decide_eq_false_iff_not, Nat.not_lt]

theorem unpack_eq_notANumber {x : Float} (h : x.isNaN = true) :
    x.toModel.unpack = .notANumber := by
  rw [isNaN_eq, decide_eq_true_eq] at h
  rw [unpack_toModel, unpackedOf, if_pos h]

/-- The host compares two doubles by their ranks, if both have one. -/
theorem compare_unpack (x y : Float) :
    x.toModel.unpack.compare y.toModel.unpack =
      if x.isNaN ∨ y.isNaN then none else some (compare (rank x) (rank y)) := by
  cases hx : x.isNaN with
  | true =>
      rw [unpack_eq_notANumber hx, if_pos (.inl rfl)]
      rfl
  | false =>
      cases hy : y.isNaN with
      | true =>
          rw [unpack_eq_notANumber hy, if_pos (.inr rfl)]
          cases x.toModel.unpack <;> rfl
      | false =>
          have hle := isNaN_eq_false_iff.mp hx
          have hle' := isNaN_eq_false_iff.mp hy
          rw [unpack_toModel, unpack_toModel, compare_signed hle hle', if_neg (by simp), rank, rank]

section Relations

variable {x y : Float}

theorem lt_iff : x < y ↔ x.isNaN = false ∧ y.isNaN = false ∧ rank x < rank y := by
  rw [lt_iff_unpack_lt, UnpackedFloat.lt, compare_unpack]
  cases x.isNaN <;> cases y.isNaN <;> simp [compare_lt_iff_lt]

theorem le_iff : x ≤ y ↔ x.isNaN = false ∧ y.isNaN = false ∧ rank x ≤ rank y := by
  rw [le_iff_unpack_le, UnpackedFloat.le, compare_unpack]
  cases x.isNaN <;> cases y.isNaN <;> simp [Ordering.isLE_iff_ne_gt, compare_gt_iff_gt]

theorem beq_iff : (x == y) = true ↔ x.isNaN = false ∧ y.isNaN = false ∧ rank x = rank y := by
  show x.toModel.unpack.beq y.toModel.unpack = true ↔ _
  rw [UnpackedFloat.beq, compare_unpack]
  cases x.isNaN <;> cases y.isNaN <;> simp

/-- Doubles of one rank are the same double, or the two zeros. -/
theorem eq_or_zeros_of_rank (h : rank x = rank y) :
    x = y ∨ magnitudeWord x = 0 ∧ magnitudeWord y = 0 := by
  have hx := ofWord_magnitudeWord x
  have hy := ofWord_magnitudeWord y
  rw [rank, rank] at h
  by_cases hsign : isNegative x = isNegative y
  · have hword : magnitudeWord x = magnitudeWord y := by
      rw [hsign] at h
      cases hneg : isNegative y <;> rw [hneg] at h <;> simp only [signed_false, signed_true] at h <;>
        omega
    left
    rw [← hx, ← hy, hsign, hword]
  · right
    cases hneg : isNegative x <;> cases hneg' : isNegative y <;>
      rw [hneg, hneg'] at hsign h <;> simp only [signed_false, signed_true] at h
    · exact absurd rfl hsign
    · omega
    · omega
    · exact absurd rfl hsign

end Relations

end Binary64

namespace Value

open Binary64

/-- Two doubles have an order if both are numbers, and it is that of their ranks. -/
theorem compareNumbers_eq (x y : Float) :
    compareNumbers x y =
      if x.isNaN ∨ y.isNaN then none else some (Ord.compare (rank x) (rank y)) := by
  unfold compareNumbers
  simp only [lt_iff, beq_iff]
  cases hx : x.isNaN with
  | true => simp
  | false =>
      cases hy : y.isNaN with
      | true => simp
      | false =>
          rcases lt_trichotomy (rank x) (rank y) with hlt | heq | hgt
          · simp [hlt, compare_lt_iff_lt.mpr hlt]
          · simp [heq]
          · have hnot : ¬ rank x < rank y := not_lt.mpr (le_of_lt hgt)
            simp [hgt, hnot, ne_of_gt hgt, compare_gt_iff_gt.mpr hgt]

end Value

end SheetFormula
