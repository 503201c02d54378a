/-
  SheetFormula.Proofs.Numbers.Order

  The order of the doubles.  The host takes the bits of a double apart into a
  sign, a significand and an exponent, and the same are read off its word
  (`unpack_toModel`); so the word says what kind of double it is (`isNaN_eq`,
  `isFinite_eq`), and of two doubles without a sign the one with the smaller
  word is less (`lt_ofWord_iff`).
-/
import SheetFormula.Proofs.Numbers.Nearest

namespace SheetFormula

namespace Binary64

open Float.Model

/-! ## Fields of bits -/

/-- The sign for a sign bit. -/
def signOf (negative : Bool) : UnpackedFloat.Sign := if negative then .negative else .positive

/-- What a sign and magnitude bits stand for. -/
def unpackedOf (negative : Bool) (word : Nat) : UnpackedFloat :=
  if infinityWord < word then .notANumber
  else if word = infinityWord then .infinity (signOf negative)
  else if h : significandOf word = 0 then .zero (signOf negative)
  else .finite (signOf negative) (significandOf word) ((exponentOf word : ℤ) - unitPlaces)
    (Nat.pos_of_ne_zero h)

/-- A word above that of an infinity has all ones in the exponent field and other bits. -/
theorem infinityWord_lt_iff {word : Nat} (h : word < signWeight) :
    infinityWord < word ↔ word / fieldWeight = 2047 ∧ word % fieldWeight ≠ 0 := by
  unfold infinityWord fieldWeight
  unfold signWeight at h
  omega

theorem eq_infinityWord_iff {word : Nat} :
    word = infinityWord ↔ word / fieldWeight = 2047 ∧ word % fieldWeight = 0 := by
  unfold infinityWord fieldWeight
  omega

section Fields

variable (b : BitVec Format.binary64.numBits)

theorem toNat_unpackExponent :
    (UnpackedFloat.unpackExponent b).toNat = b.toNat % signWeight / fieldWeight := by
  rw [UnpackedFloat.unpackExponent_def, BitVec.extractLsb'_toNat, Nat.shiftRight_eq_div_pow]
  show b.toNat / 2 ^ 52 % 2 ^ 11 = b.toNat % 2 ^ 63 / 2 ^ 52
  omega

theorem toNat_unpackMantissa :
    (UnpackedFloat.unpackMantissa b).toNat = b.toNat % signWeight % fieldWeight := by
  rw [UnpackedFloat.unpackMantissa_def, BitVec.extractLsb'_toNat, Nat.shiftRight_eq_div_pow]
  show b.toNat / 2 ^ 0 % 2 ^ 52 = b.toNat % 2 ^ 63 % 2 ^ 52
  omega

theorem unpackExponent_eq_iff {n : Nat} (hn : n < 2 ^ 11) :
    UnpackedFloat.unpackExponent b = BitVec.ofNat 11 n ↔
      b.toNat % signWeight / fieldWeight = n := by
  rw [← toNat_unpackExponent]
  constructor
  · intro h
    rw [h]
    exact Nat.mod_eq_of_lt hn
  · intro h
    apply BitVec.eq_of_toNat_eq
    rw [h]
    exact (Nat.mod_eq_of_lt hn).symm

theorem unpackMantissa_eq_zero_iff :
    UnpackedFloat.unpackMantissa b = BitVec.ofNat 52 0 ↔
      b.toNat % signWeight % fieldWeight = 0 := by
  rw [← toNat_unpackMantissa]
  constructor
  · intro h
    rw [h]
    rfl
  · intro h
    exact BitVec.eq_of_toNat_eq h

theorem ofBitVec_unpackSign :
    UnpackedFloat.Sign.ofBitVec (UnpackedFloat.unpackSign b) = signOf (signWeight ≤ b.toNat) := by
  have hlt : b.toNat < 2 ^ 64 := b.isLt
  have hweight : signWeight = 2 ^ 63 := by decide
  have hsign : (UnpackedFloat.unpackSign b).toNat = b.toNat / 2 ^ 63 := by
    rw [UnpackedFloat.unpackSign_def, BitVec.extractLsb'_toNat, Nat.shiftRight_eq_div_pow]
    show b.toNat / 2 ^ 63 % 2 ^ 1 = b.toNat / 2 ^ 63
    omega
  rw [UnpackedFloat.Sign.ofBitVec, signOf, hweight]
  by_cases hneg : 2 ^ 63 ≤ b.toNat
  · have hone : UnpackedFloat.unpackSign b ≠ 0#1 := by
      intro hzero
      have hnone : (UnpackedFloat.unpackSign b).toNat = 0 := by
        rw [hzero]
        rfl
      omega
    rw [if_neg hone, if_pos (decide_eq_true hneg)]
  · have hzero : UnpackedFloat.unpackSign b = 0#1 := by
      apply BitVec.eq_of_toNat_eq
      rw [hsign]
      show b.toNat / 2 ^ 63 = 0
      omega
    have hfalse : ¬ decide (2 ^ 63 ≤ b.toNat) = true := by
      rw [decide_eq_true_eq]
      exact hneg
    rw [if_pos hzero, if_neg hfalse]

/-- The leading bit of a significand stands before the mantissa. -/
theorem toNat_leading_append :
    (1#1 ++ UnpackedFloat.unpackMantissa b).toNat =
      b.toNat % signWeight % fieldWeight + fieldWeight := by
  have hlt : (UnpackedFloat.unpackMantissa b).toNat < 2 ^ 52 := BitVec.isLt _
  have hfield : fieldWeight = 2 ^ 52 := by decide
  rw [BitVec.toNat_append, Nat.shiftLeft_eq]
  show 1 * 2 ^ 52 ||| (UnpackedFloat.unpackMantissa b).toNat = _
  rw [Nat.mul_comm, ← Nat.two_pow_add_eq_or_of_lt hlt, toNat_unpackMantissa, Nat.mul_one,
    Nat.add_comm, hfield]

theorem isNaNBits_eq :
    UnpackedFloat.isNaNBits b = decide (infinityWord < b.toNat % signWeight) := by
  have hword : b.toNat % signWeight < signWeight := Nat.mod_lt _ (by decide)
  have hones := unpackExponent_eq_iff b (show 2047 < 2 ^ 11 by decide)
  have hzero := unpackMantissa_eq_zero_iff b
  refine decide_eq_decide.mpr ?_
  rw [infinityWord_lt_iff hword]
  exact and_congr hones (not_congr hzero)

/-- The host takes bits apart as words are taken apart. -/
theorem unpack_eq_unpackedOf :
    UnpackedFloat.unpack .binary64 b =
      unpackedOf (signWeight ≤ b.toNat) (b.toNat % signWeight) := by
  have hones : UnpackedFloat.unpackExponent b = -1#11 ↔ b.toNat % signWeight / fieldWeight = 2047 :=
    unpackExponent_eq_iff b (show 2047 < 2 ^ 11 by decide)
  have hzeros := unpackExponent_eq_iff b (show 0 < 2 ^ 11 by decide)
  have hexponent := toNat_unpackExponent b
  have hmantissa := toNat_unpackMantissa b
  have hnone := unpackMantissa_eq_zero_iff b
  have hleading := toNat_leading_append b
  have hword : b.toNat % signWeight < signWeight := Nat.mod_lt _ (by decide)
  unfold UnpackedFloat.unpack
  simp only [ofBitVec_unpackSign, hexponent]
  generalize b.toNat % signWeight = word at *
  by_cases hlast : word / fieldWeight = 2047
  · rw [if_pos (hones.mpr hlast), unpackedOf]
    by_cases hrest : word % fieldWeight = 0
    · have hequal : word = infinityWord := eq_infinityWord_iff.mpr ⟨hlast, hrest⟩
      rw [if_pos (hnone.mpr hrest), if_neg (Nat.not_lt.mpr (Nat.le_of_eq hequal)), if_pos hequal]
    · rw [if_neg (mt hnone.mp hrest), if_pos ((infinityWord_lt_iff hword).mpr ⟨hlast, hrest⟩)]
  · have hnotAbove : ¬ infinityWord < word := fun h => hlast ((infinityWord_lt_iff hword).mp h).1
    have hnotEqual : ¬ word = infinityWord := fun h => hlast (eq_infinityWord_iff.mp h).1
    rw [if_neg (mt hones.mp hlast), unpackedOf, if_neg hnotAbove, if_neg hnotEqual]
    by_cases hfirst : word / fieldWeight = 0
    · -- The least field has no leading bit, and the exponent of the next.
      have hsmall : word < fieldWeight := (Nat.div_eq_zero_iff_lt fieldWeight_pos).mp hfirst
      have hsignificand : significandOf word = word := if_pos hsmall
      have hexponentOf : exponentOf word = 0 := by
        rw [exponentOf, hfirst]
      have hmantissa' : (UnpackedFloat.unpackMantissa b).toNat = word := by
        rw [hmantissa, Nat.mod_eq_of_lt hsmall]
      rw [if_pos (hzeros.mpr hfirst)]
      simp only [hnone, Nat.mod_eq_of_lt hsmall, hsignificand, hexponentOf, hmantissa', hfirst]
      rfl
    · have hlarge : ¬ word < fieldWeight := fun h => hfirst (Nat.div_eq_of_lt h)
      have hsignificand : significandOf word = word % fieldWeight + fieldWeight := if_neg hlarge
      have hpos : significandOf word ≠ 0 := by
        have hfield := fieldWeight_pos
        omega
      have hexponentOf : ((word / fieldWeight : Nat) : ℤ) - (Format.binary64.exponentBias + 52) =
          (exponentOf word : ℤ) - unitPlaces := by
        have hbias : Format.binary64.exponentBias = 1023 := rfl
        rw [hbias, exponentOf, unitPlaces]
        omega
      rw [if_neg (mt hzeros.mp hfirst), dif_neg hpos]
      simp only [hleading, hsignificand]
      exact congrArg (fun e => UnpackedFloat.finite _ _ e _) hexponentOf

end Fields

theorem unpack_toModel (x : Float) :
    x.toModel.unpack = unpackedOf (isNegative x) (magnitudeWord x) :=
  unpack_eq_unpackedOf x.toBits.toBitVec

/-! ## Kinds -/

section Shapes

variable {x : Float}

theorem shape_of_lt (h : magnitudeWord x < infinityWord) :
    shape x = .finite (isNegative x) (unitsOf (magnitudeWord x)) := if_pos h

theorem shape_of_eq (h : magnitudeWord x = infinityWord) : shape x = .infinite (isNegative x) := by
  rw [shape]
  simp only [h, Nat.lt_irrefl, if_false, if_true]

theorem shape_of_gt (h : infinityWord < magnitudeWord x) : shape x = .notANumber := by
  have hnotBelow : ¬ magnitudeWord x < infinityWord := Nat.not_lt.mpr (Nat.le_of_lt h)
  rw [shape]
  simp only [if_neg hnotBelow, if_neg (Nat.ne_of_gt h)]

end Shapes

theorem isNaN_eq (x : Float) : x.isNaN = decide (infinityWord < magnitudeWord x) := by
  show x.toModel.unpack.isNaN = _
  rw [unpack_toModel, unpackedOf]
  by_cases habove : infinityWord < magnitudeWord x
  · rw [if_pos habove, decide_eq_true habove]
    rfl
  · rw [if_neg habove, decide_eq_false habove]
    split
    · rfl
    · split
      · rfl
      · rfl

theorem isFinite_eq (x : Float) : x.isFinite = decide (magnitudeWord x < infinityWord) := by
  show x.toModel.unpack.isFinite = _
  rw [unpack_toModel, unpackedOf]
  by_cases habove : infinityWord < magnitudeWord x
  · rw [if_pos habove, decide_eq_false (by omega)]
    rfl
  · rw [if_neg habove]
    by_cases hequal : magnitudeWord x = infinityWord
    · rw [if_pos hequal, decide_eq_false (by omega)]
      rfl
    · rw [if_neg hequal, decide_eq_true (by omega)]
      split
      · rfl
      · rfl

/-- The doubles that equal zero are the two zeros. -/
theorem beq_zero_iff {x : Float} : (x == 0) = true ↔ magnitudeWord x = 0 := by
  constructor
  · intro h
    have hplus : magnitudeWord 0 = 0 := by decide +kernel
    have hminus : magnitudeWord (-0) = 0 := by decide +kernel
    obtain ⟨-, -, rfl | ⟨rfl, -⟩ | ⟨rfl, -⟩⟩ := Float.beq_iff_ne_nan_and_eq.mp h
    · exact hplus
    · exact hplus
    · exact hminus
  · intro h
    have hx := ofWord_magnitudeWord x
    rw [h] at hx
    rw [← hx]
    cases isNegative x with
    | false => decide +kernel
    | true => decide +kernel

/-! ## Words as bits -/

/-- The bits of a sign and a word. -/
def bitsOf (negative : Bool) (word : Nat) : BitVec Format.binary64.numBits :=
  BitVec.ofNat 64 (word + if negative then signWeight else 0)

section Words

variable {negative : Bool} {word : Nat} (h : word ≤ infinityWord)

include h

theorem toNat_bitsOf :
    (bitsOf negative word).toNat = word + if negative then signWeight else 0 := by
  have hlt : word < signWeight := Nat.lt_of_le_of_lt h (by decide)
  refine Nat.mod_eq_of_lt ?_
  unfold signWeight at hlt ⊢
  split <;> omega

theorem mod_toNat_bitsOf : (bitsOf negative word).toNat % signWeight = word := by
  have hlt : word < signWeight := Nat.lt_of_le_of_lt h (by decide)
  rw [toNat_bitsOf h]
  cases negative with
  | false => exact Nat.mod_eq_of_lt hlt
  | true => exact (Nat.add_mod_right word signWeight).trans (Nat.mod_eq_of_lt hlt)

theorem signWeight_le_toNat_bitsOf :
    decide (signWeight ≤ (bitsOf negative word).toNat) = negative := by
  have hlt : word < signWeight := Nat.lt_of_le_of_lt h (by decide)
  rw [toNat_bitsOf h]
  cases negative with
  | false => exact decide_eq_false (Nat.not_le.mpr hlt)
  | true => exact decide_eq_true (Nat.le_add_left signWeight word)

theorem toBits_ofWord : (ofWord negative word).toBits.toBitVec = bitsOf negative word := by
  have hnan : UnpackedFloat.isNaNBits (bitsOf negative word) = false := by
    rw [isNaNBits_eq, mod_toNat_bitsOf h]
    exact decide_eq_false (Nat.not_lt.mpr h)
  have hpack : UnpackedFloat.pack .binary64 (UnpackedFloat.unpack .binary64 (bitsOf negative word)) =
      bitsOf negative word := by
    rw [UnpackedFloat.pack_unpack, hnan]
    rfl
  exact hpack

theorem magnitudeWord_ofWord : magnitudeWord (ofWord negative word) = word := by
  have hbits : (ofWord negative word).toBits.toNat = (bitsOf negative word).toNat :=
    congrArg BitVec.toNat (toBits_ofWord h)
  rw [magnitudeWord, hbits, mod_toNat_bitsOf h]

theorem isNegative_ofWord : isNegative (ofWord negative word) = negative := by
  have hbits : (ofWord negative word).toBits.toNat = (bitsOf negative word).toNat :=
    congrArg BitVec.toNat (toBits_ofWord h)
  rw [isNegative, hbits, signWeight_le_toNat_bitsOf h]

theorem unpack_ofWord : (ofWord negative word).toModel.unpack = unpackedOf negative word := by
  rw [unpack_toModel, magnitudeWord_ofWord h, isNegative_ofWord h]

end Words

/-! ## Magnitudes -/

/-- Without a sign bit a double is zero, an infinity, or has a significand and an exponent. -/
theorem unpackedOf_cases {word : Nat} (hle : word ≤ infinityWord) :
    word = 0 ∧ unpackedOf false word = .zero .positive ∨
      word = infinityWord ∧ unpackedOf false word = .infinity .positive ∨
      0 < word ∧ word < infinityWord ∧ ∃ hpos, unpackedOf false word =
        .finite .positive (significandOf word) ((exponentOf word : ℤ) - unitPlaces) hpos := by
  have hnotAbove : ¬ infinityWord < word := Nat.not_lt.mpr hle
  rcases Nat.lt_or_eq_of_le hle with hlt | rfl
  · rw [unpackedOf, if_neg hnotAbove, if_neg (Nat.ne_of_lt hlt)]
    by_cases hzero : word = 0
    · rw [dif_pos (significandOf_eq_zero_iff.mpr hzero)]
      exact .inl ⟨hzero, rfl⟩
    · rw [dif_neg (mt significandOf_eq_zero_iff.mp hzero)]
      exact .inr (.inr ⟨Nat.pos_of_ne_zero hzero, hlt, _, rfl⟩)
  · rw [unpackedOf, if_neg hnotAbove, if_pos rfl]
    exact .inr (.inl ⟨rfl, rfl⟩)

/-- Words are in the order of their exponents, and of their significands where these are equal. -/
theorem compare_fields (v w : Nat) :
    (compare ((exponentOf v : ℤ) - unitPlaces) ((exponentOf w : ℤ) - unitPlaces)).then
      (compare (significandOf v) (significandOf w)) = compare v w := by
  have hv := exponentOf_mul_add_significandOf v
  have hw := exponentOf_mul_add_significandOf w
  have hvlt := significandOf_lt v
  have hwlt := significandOf_lt w
  have hvlead := exponentOf_eq_zero_or v
  have hwlead := exponentOf_eq_zero_or w
  generalize exponentOf v = e at *
  generalize exponentOf w = f at *
  generalize significandOf v = m at *
  generalize significandOf w = n at *
  rcases Nat.lt_trichotomy e f with hlt | rfl | hgt
  · -- From one exponent to the next the significands begin again at the leading bit.
    have hstep := Nat.mul_le_mul_right fieldWeight (Nat.succ_le_of_lt hlt)
    rw [Nat.succ_mul] at hstep
    rw [compare_lt_iff_lt.mpr (by omega : (e : ℤ) - unitPlaces < f - unitPlaces),
      compare_lt_iff_lt.mpr (by omega : v < w)]
    rfl
  · rw [compare_eq_iff_eq.mpr rfl, ← hv, ← hw]
    rcases Nat.lt_trichotomy m n with hlt | rfl | hgt
    · rw [compare_lt_iff_lt.mpr hlt, compare_lt_iff_lt.mpr (by omega)]
      rfl
    · rw [compare_eq_iff_eq.mpr rfl, compare_eq_iff_eq.mpr rfl]
      rfl
    · rw [compare_gt_iff_gt.mpr hgt, compare_gt_iff_gt.mpr (by omega)]
      rfl
  · have hstep := Nat.mul_le_mul_right fieldWeight (Nat.succ_le_of_lt hgt)
    rw [Nat.succ_mul] at hstep
    rw [compare_gt_iff_gt.mpr (by omega : (f : ℤ) - unitPlaces < e - unitPlaces),
      compare_gt_iff_gt.mpr (by omega : w < v)]
    rfl

/-- Magnitudes are compared as their words are. -/
theorem compare_unpackedOf {v w : Nat} (hv : v ≤ infinityWord) (hw : w ≤ infinityWord) :
    (unpackedOf false v).compare (unpackedOf false w) = some (compare v w) := by
  rcases unpackedOf_cases hv with ⟨rfl, hv'⟩ | ⟨rfl, hv'⟩ | ⟨hvpos, hvlt, _, hv'⟩
  · rcases unpackedOf_cases hw with ⟨rfl, hw'⟩ | ⟨rfl, hw'⟩ | ⟨hwpos, -, _, hw'⟩
    · rw [hv']
      rfl
    · rw [hv', hw']
      rfl
    · rw [hv', hw', compare_lt_iff_lt.mpr hwpos]
      rfl
  · rcases unpackedOf_cases hw with ⟨rfl, hw'⟩ | ⟨rfl, hw'⟩ | ⟨-, hwlt, _, hw'⟩
    · rw [hv', hw']
      rfl
    · rw [hv']
      rfl
    · rw [hv', hw', compare_gt_iff_gt.mpr hwlt]
      rfl
  · rcases unpackedOf_cases hw with ⟨rfl, hw'⟩ | ⟨rfl, hw'⟩ | ⟨-, -, _, hw'⟩
    · rw [hv', hw', compare_gt_iff_gt.mpr hvpos]
      rfl
    · rw [hv', hw', compare_lt_iff_lt.mpr hvlt]
      rfl
    · rw [hv', hw', ← compare_fields]
      rfl

theorem lt_iff_unpack_lt {x y : Float} :
    x < y ↔ x.toModel.unpack.lt y.toModel.unpack = true := by
  show decide (x.toModel < y.toModel) = true ↔ _
  rw [decide_eq_true_eq]
  rfl

theorem le_iff_unpack_le {x y : Float} :
    x ≤ y ↔ x.toModel.unpack.le y.toModel.unpack = true := by
  show decide (x.toModel ≤ y.toModel) = true ↔ _
  rw [decide_eq_true_eq]
  rfl

/-- Of two doubles without a sign the one with the smaller word is less. -/
theorem lt_ofWord_iff {v w : Nat} (hv : v ≤ infinityWord) (hw : w ≤ infinityWord) :
    ofWord false v < ofWord false w ↔ v < w := by
  rw [lt_iff_unpack_lt, unpack_ofWord hv, unpack_ofWord hw, UnpackedFloat.lt,
    compare_unpackedOf hv hw, beq_iff_eq, Option.some_inj, compare_lt_iff_lt]

theorem le_ofWord_iff {v w : Nat} (hv : v ≤ infinityWord) (hw : w ≤ infinityWord) :
    ofWord false v ≤ ofWord false w ↔ v ≤ w := by
  rw [le_iff_unpack_le, unpack_ofWord hv, unpack_ofWord hw, UnpackedFloat.le,
    compare_unpackedOf hv hw, Option.any_some, Ordering.isLE_iff_ne_gt, compare_gt_iff_gt,
    Nat.not_lt]

theorem pack_unpack_toModel (x : Float) : Float.Model.pack x.toModel.unpack = x.toModel := by
  have hbits : UnpackedFloat.pack .binary64 (UnpackedFloat.unpack .binary64 x.toBits.toBitVec) =
      x.toBits.toBitVec := UnpackedFloat.pack_unpack_of_valid x.toModel.valid
  exact congrArg Float.toModel (Float.toBits_inj.mp (congrArg UInt64.ofBitVec hbits))

/-- A double without its sign. -/
theorem abs_eq {x : Float} (h : magnitudeWord x ≤ infinityWord) :
    x.abs = ofWord false (magnitudeWord x) := by
  have hnotAbove : ¬ infinityWord < magnitudeWord x := Nat.not_lt.mpr h
  have habs : x.toModel.unpack.abs = (ofWord false (magnitudeWord x)).toModel.unpack := by
    rw [unpack_toModel, unpack_ofWord h, unpackedOf, unpackedOf, if_neg hnotAbove, if_neg hnotAbove]
    split
    · rfl
    · split
      · rfl
      · rfl
  have hmodel : x.abs.toModel = (ofWord false (magnitudeWord x)).toModel := by
    rw [← pack_unpack_toModel (ofWord false (magnitudeWord x)), ← habs]
    rfl
  exact congrArg Float.ofModel hmodel

theorem abs_lt_ofWord_iff {x : Float} {word : Nat} (h : magnitudeWord x ≤ infinityWord)
    (hword : word ≤ infinityWord) : x.abs < ofWord false word ↔ magnitudeWord x < word := by
  rw [abs_eq h, lt_ofWord_iff h hword]

theorem ofWord_le_abs_iff {x : Float} {word : Nat} (h : magnitudeWord x ≤ infinityWord)
    (hword : word ≤ infinityWord) : ofWord false word ≤ x.abs ↔ word ≤ magnitudeWord x := by
  rw [abs_eq h, le_ofWord_iff hword h]

end Binary64

end SheetFormula
