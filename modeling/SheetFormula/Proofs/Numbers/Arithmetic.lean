/-
  SheetFormula.Proofs.Numbers.Arithmetic

  The host's arithmetic is exact arithmetic, rounded once: sums, differences,
  products and quotients of finite doubles are the exact ones rounded to the
  nearest double (`isRounded_add`, `isRounded_sub`, `isRounded_mul`,
  `isRounded_div`).  Nothing that is not finite gives a finite number by
  subtraction or multiplication.
-/
import SheetFormula.Proofs.Numbers.HostRounding

namespace SheetFormula

namespace Binary64

open Float.Model

/-! ## Operations -/

theorem isRounded_of_pack {p q : ℚ} {negative : Bool} {word : Nat} {u : UnpackedFloat}
    (hp : 0 ≤ p) (hq : q = withSign negative p) (hword : IsNearest p word)
    (hu : pack u = (ofWord negative word).toModel) : IsRounded q (.ofModel (pack u)) := by
  have hofWord : Float.ofModel (pack u) = ofWord negative word := congrArg Float.ofModel hu
  rw [hofWord, hq]
  exact isRounded_withSign negative hword hp

theorem isRounded_zero (negative : Bool) : IsRounded 0 (.ofModel (pack (.zero (signOf negative)))) := by
  have hword := isNearest_valueOf (Nat.zero_le infinityWord)
  rw [valueOf_zero] at hword
  exact isRounded_of_pack le_rfl (withSign_zero negative).symm hword
    (toModel_ofWord (Nat.zero_le _)).symm

theorem isRounded_normalize (z e : ℤ) (negative : Bool) :
    IsRounded (z * 2 ^ e)
      (.ofModel (pack (UnpackedFloat.normalize .binary64 z e (signOf negative)))) := by
  rw [UnpackedFloat.normalize]
  rcases lt_trichotomy z 0 with hneg | rfl | hpos
  · obtain ⟨n, rfl⟩ := Int.exists_eq_neg_ofNat (le_of_lt hneg)
    obtain ⟨word, hword, hpack⟩ := pack_round true e (show 0 < n by omega)
    have hnat : (-(-(n : ℤ))).toNat = n := by omega
    rw [compare_lt_iff_lt.mpr hneg, hnat]
    refine isRounded_of_pack (by positivity) ?_ hword hpack
    rw [withSign_true, Int.cast_neg, Int.cast_natCast, neg_mul]
  · rw [Int.cast_zero, zero_mul]
    exact isRounded_zero negative
  · obtain ⟨n, rfl⟩ := Int.eq_ofNat_of_zero_le (le_of_lt hpos)
    obtain ⟨word, hword, hpack⟩ := pack_round false e (show 0 < n by omega)
    rw [compare_gt_iff_gt.mpr hpos, Int.toNat_natCast]
    refine isRounded_of_pack (by positivity) ?_ hword hpack
    rw [withSign_false, Int.cast_natCast]

/-- A finite double is a zero, or has a significand that has a leading bit or the least exponent. -/
theorem unpackedOf_finite (negative : Bool) {word : Nat} (h : word < infinityWord) :
    word = 0 ∧ unpackedOf negative word = .zero (signOf negative) ∨
      0 < word ∧ ∃ m e hm, unpackedOf negative word = .finite (signOf negative) m e hm ∧
        valueOf word = m * 2 ^ e ∧ (fieldWeight ≤ m ∨ e ≤ -unitPlaces) := by
  rw [unpackedOf, if_neg (by omega), if_neg (by omega)]
  by_cases hzero : word = 0
  · rw [dif_pos (significandOf_eq_zero_iff.mpr hzero)]
    exact .inl ⟨hzero, rfl⟩
  · rw [dif_neg (mt significandOf_eq_zero_iff.mp hzero)]
    refine .inr ⟨Nat.pos_of_ne_zero hzero, _, _, _, rfl, ?_, ?_⟩
    · rw [valueOf_eq, zpow_sub_unitPlaces]
    · rcases exponentOf_eq_zero_or word with hleast | hlead
      · right
        rw [hleast]
        omega
      · exact .inl hlead

/-- The number of a sign and a magnitude. -/
theorem cast_apply_signOf (negative : Bool) (z : ℤ) :
    (((signOf negative).apply z : ℤ) : ℚ) = withSign negative z := by
  cases negative with
  | false => rfl
  | true => exact Int.cast_neg z

theorem decreaseExponent_mul (m : Nat) {e target : ℤ} (h : target ≤ e) :
    ((UnpackedFloat.decreaseExponent m e target).1 : ℚ) * 2 ^ target = m * 2 ^ e := by
  obtain ⟨k, hk⟩ := Int.eq_ofNat_of_zero_le (sub_nonneg.mpr h)
  have hexponent : e = target + k := by omega
  have hshift : (UnpackedFloat.decreaseExponent m e target).1 = m <<< k := by
    show m <<< (e - target).toNat = _
    rw [hk, Int.toNat_natCast]
  rw [hshift, hexponent, zpow_add₀ two_ne_zero, Nat.shiftLeft_eq, zpow_natCast]
  push_cast
  ring

theorem signedValue_eq {negative : Bool} {word m : Nat} {e : ℤ} (h : valueOf word = m * 2 ^ e) :
    signedValue negative word = ((signOf negative).apply m : ℤ) * 2 ^ e := by
  rw [cast_apply_signOf, signedValue, h, Int.cast_natCast]
  cases negative with
  | false => rfl
  | true => exact (neg_mul _ _).symm

theorem natCast_div_sub (a : Nat) {n : Nat} (hn : 0 < n) :
    (a : ℚ) / n - (a / n : Nat) = (a % n : Nat) / n := by
  have hne : (n : ℚ) ≠ 0 := by exact_mod_cast hn.ne'
  rw [div_sub' hne, div_left_inj' hne, sub_eq_iff_eq_add']
  exact_mod_cast (Nat.div_add_mod a n).symm

/-- A quotient of significands, with the dividend moved to the place of the quotient. -/
theorem div_eq_shiftLeft_div (m n : Nat) {e f t : ℤ} {k : Nat} (h : t + k = e - f) :
    ((m : ℚ) * 2 ^ e) / (n * 2 ^ f) = ((m <<< k : Nat) : ℚ) / n * 2 ^ t := by
  have hpowers : (2 : ℚ) ^ k * 2 ^ t * 2 ^ f = 2 ^ e := by
    rw [← zpow_natCast, ← zpow_add₀ two_ne_zero, ← zpow_add₀ two_ne_zero]
    congr 1
    omega
  have hf : (2 : ℚ) ^ f ≠ 0 := by positivity
  rw [Nat.shiftLeft_eq, ← hpowers]
  push_cast
  field_simp

theorem fieldWeight_le_shiftLeft_div {m n k : Nat} (hm : 0 < m) (hn : 0 < n)
    (h : n.log2 + 53 ≤ m.log2 + k) : fieldWeight ≤ (m <<< k) / n := by
  have hfield : fieldWeight = 2 ^ 52 := by decide
  rw [Nat.le_div_iff_mul_le hn, hfield, Nat.shiftLeft_eq]
  calc 2 ^ 52 * n ≤ 2 ^ 52 * 2 ^ (n.log2 + 1) :=
        Nat.mul_le_mul_left _ (Nat.le_of_lt Nat.lt_log2_self)
    _ = 2 ^ (n.log2 + 53) := by rw [← Nat.pow_add]; congr 1; omega
    _ ≤ 2 ^ (m.log2 + k) := Nat.pow_le_pow_right Nat.two_pos h
    _ = 2 ^ m.log2 * 2 ^ k := Nat.pow_add ..
    _ ≤ m * 2 ^ k := Nat.mul_le_mul_right _ (Nat.log2_self_le (Nat.ne_of_gt hm))

/-- Enough bits are put behind the dividend for a quotient with a leading bit. -/
theorem pack_divided (negative : Bool) {m n : Nat} (e f : ℤ) (hm : 0 < m) (hn : 0 < n) :
    ∃ word, IsNearest ((m * 2 ^ e) / (n * 2 ^ f)) word ∧
      pack (UnpackedFloat.roundWithAccuracy .binary64 (signOf negative)
          (UnpackedFloat.divCore .binary64 m e n f).1
          (UnpackedFloat.divCore .binary64 m e n f).2.1
          (UnpackedFloat.divCore .binary64 m e n f).2.2) = (ofWord negative word).toModel := by
  obtain ⟨t, ht⟩ : ∃ t, min (e - f)
      (Format.binary64.targetExponent (totalExponent m e - totalExponent n f)) = t := ⟨_, rfl⟩
  obtain ⟨k, hk⟩ : ∃ k, (e - f - t).toNat = k := ⟨_, rfl⟩
  have hcore : UnpackedFloat.divCore .binary64 m e n f =
      ((m <<< k) / n, t, UnpackedFloat.accuracyOfFraction ((m <<< k) % n) n) := by
    subst hk ht
    rfl
  have htarget : Format.binary64.targetExponent (totalExponent m e - totalExponent n f) =
      max ((m.log2 : ℤ) - n.log2 + e - f - 53) (-unitPlaces) := by
    show max (((m.log2 : ℤ) + 1 + e) - ((n.log2 : ℤ) + 1 + f) - (1 + 52 : Nat))
      (3 - 2 ^ (11 - 1) - (1 + 52 : Nat)) = _
    unfold unitPlaces
    congr 1
    omega
  rw [htarget] at ht
  have hexponent : t + k = e - f := by omega
  have hroom : fieldWeight ≤ (m <<< k) / n ∨ t ≤ -unitPlaces := by
    rcases le_or_gt t (-unitPlaces) with hleast | hmore
    · exact .inr hleast
    · exact .inl (fieldWeight_le_shiftLeft_div hm hn (by omega))
  have htells := tells_accuracyOfFraction (Nat.mod_lt (m <<< k) hn)
  rw [← natCast_div_sub (m <<< k) hn] at htells
  rw [hcore, div_eq_shiftLeft_div m n hexponent]
  exact pack_roundWithAccuracy negative htells hroom

theorem unpacked_sub_eq_add_neg (a b : UnpackedFloat) :
    UnpackedFloat.sub .binary64 a b = UnpackedFloat.add .binary64 a b.neg := by
  cases a with
  | notANumber => rfl
  | infinity s => cases b <;> rfl
  | zero s => cases b <;> rfl
  | finite s m e hm =>
      cases b with
      | notANumber => rfl
      | infinity t => rfl
      | zero t => rfl
      | finite t n f hn =>
          obtain ⟨m', hm'⟩ : ∃ m', (UnpackedFloat.decreaseExponent m e (min e f)).1 = m' := ⟨_, rfl⟩
          obtain ⟨n', hn'⟩ : ∃ n', (UnpackedFloat.decreaseExponent n f (min e f)).1 = n' := ⟨_, rfl⟩
          have hneg : s.apply m' - t.apply n' = s.apply m' + (-t).apply n' := by
            cases t with
            | negative => exact Int.sub_neg _ _
            | positive => rfl
          subst hm' hn'
          exact congrArg (fun z => UnpackedFloat.normalize .binary64 z (min e f) .positive) hneg

section Operations

variable {v w : Nat} (s t : Bool)

theorem isRounded_pack_unpackedOf (hv : v < infinityWord) :
    IsRounded (signedValue s v) (.ofModel (pack (unpackedOf s v))) := by
  have hle := Nat.le_of_lt hv
  have hself := isRounded_ratOf (isNaN_eq_false_iff.mpr ((magnitudeWord_ofWord hle).le.trans hle) :
    (ofWord s v).isNaN = false)
  rw [ratOf_ofWord s hle] at hself
  rw [← toModel_ofWord hle]
  exact hself

/-- Two significands are brought to the smaller exponent, and nothing is lost by that. -/
theorem isRounded_add_finite {m n : Nat} {e f : ℤ} (hm : 0 < m) (hn : 0 < n)
    (hv : valueOf v = m * 2 ^ e) (hw : valueOf w = n * 2 ^ f) :
    IsRounded (signedValue s v + signedValue t w)
      (.ofModel (pack (UnpackedFloat.add .binary64 (.finite (signOf s) m e hm)
        (.finite (signOf t) n f hn)))) := by
  obtain ⟨m', hm'⟩ : ∃ m', (UnpackedFloat.decreaseExponent m e (min e f)).1 = m' := ⟨_, rfl⟩
  obtain ⟨n', hn'⟩ : ∃ n', (UnpackedFloat.decreaseExponent n f (min e f)).1 = n' := ⟨_, rfl⟩
  have hmvalue := decreaseExponent_mul m (min_le_left e f)
  have hnvalue := decreaseExponent_mul n (min_le_right e f)
  rw [hm', ← hv] at hmvalue
  rw [hn', ← hw] at hnvalue
  have hadd : UnpackedFloat.add .binary64 (.finite (signOf s) m e hm) (.finite (signOf t) n f hn) =
      UnpackedFloat.normalize .binary64 ((signOf s).apply m' + (signOf t).apply n') (min e f)
        (signOf false) := by
    rw [← hm', ← hn']
    rfl
  have hsum : signedValue s v + signedValue t w =
      (((signOf s).apply m' + (signOf t).apply n' : ℤ) : ℚ) * 2 ^ min e f := by
    rw [signedValue_eq hmvalue.symm, signedValue_eq hnvalue.symm]
    push_cast
    ring
  rw [hadd, hsum]
  exact isRounded_normalize _ _ _

variable (hv : v < infinityWord) (hw : w < infinityWord)

include hv hw

theorem isRounded_add_unpackedOf :
    IsRounded (signedValue s v + signedValue t w)
      (.ofModel (pack (UnpackedFloat.add .binary64 (unpackedOf s v) (unpackedOf t w)))) := by
  rcases unpackedOf_finite s hv with ⟨rfl, hv'⟩ | ⟨-, m, e, hm, hv', hvalue, -⟩
  · rw [signedValue_zero, zero_add]
    rcases unpackedOf_finite t hw with ⟨rfl, hw'⟩ | ⟨-, n, f, hn, hw', -⟩
    · have hadd : UnpackedFloat.add .binary64 (unpackedOf s 0) (unpackedOf t 0) =
          .zero (signOf (s && t)) := by
        rw [hv', hw']
        cases s <;> cases t <;> rfl
      rw [signedValue_zero, hadd]
      exact isRounded_zero _
    · have hadd : UnpackedFloat.add .binary64 (unpackedOf s 0) (unpackedOf t w) = unpackedOf t w := by
        rw [hv', hw']
        rfl
      rw [hadd]
      exact isRounded_pack_unpackedOf t hw
  · rcases unpackedOf_finite t hw with ⟨rfl, hw'⟩ | ⟨-, n, f, hn, hw', hvalue', -⟩
    · have hadd : UnpackedFloat.add .binary64 (unpackedOf s v) (unpackedOf t 0) = unpackedOf s v := by
        rw [hv', hw']
        rfl
      rw [signedValue_zero, add_zero, hadd]
      exact isRounded_pack_unpackedOf s hv
    · rw [hv', hw']
      exact isRounded_add_finite s t hm hn hvalue hvalue'

theorem isRounded_mul_unpackedOf :
    IsRounded (signedValue s v * signedValue t w)
      (.ofModel (pack (UnpackedFloat.mul .binary64 (unpackedOf s v) (unpackedOf t w)))) := by
  have hsign : signOf s * signOf t = signOf (s ^^ t) := by
    cases s <;> cases t <;> rfl
  rcases unpackedOf_finite s hv with ⟨rfl, hv'⟩ | ⟨-, m, e, hm, hv', hvalue, hlead⟩
  · have hmul : UnpackedFloat.mul .binary64 (unpackedOf s 0) (unpackedOf t w) =
        .zero (signOf (s ^^ t)) := by
      rw [hv', ← hsign]
      rcases unpackedOf_finite t hw with ⟨-, hw'⟩ | ⟨-, n, f, hn, hw', -⟩ <;> rw [hw'] <;> rfl
    rw [signedValue_zero, zero_mul, hmul]
    exact isRounded_zero _
  · rcases unpackedOf_finite t hw with ⟨rfl, hw'⟩ | ⟨-, n, f, hn, hw', hvalue', hlead'⟩
    · have hmul : UnpackedFloat.mul .binary64 (unpackedOf s v) (unpackedOf t 0) =
          .zero (signOf (s ^^ t)) := by
        rw [hv', hw', ← hsign]
        rfl
      rw [signedValue_zero, mul_zero, hmul]
      exact isRounded_zero _
    · have hmul : UnpackedFloat.mul .binary64 (unpackedOf s v) (unpackedOf t w) =
          UnpackedFloat.roundWithAccuracy .binary64 (signOf (s ^^ t)) (m * n) (e + f) .exact := by
        rw [hv', hw', ← hsign]
        rfl
      have hroom : fieldWeight ≤ m * n ∨ e + f ≤ -unitPlaces := by
        rcases hlead with hlead | hleast
        · exact .inl (le_trans hlead (Nat.le_mul_of_pos_right m hn))
        · rcases hlead' with hlead' | hleast'
          · exact .inl (le_trans hlead' (Nat.le_mul_of_pos_left n hm))
          · exact .inr (by unfold unitPlaces at *; omega)
      obtain ⟨word, hword, hpack⟩ := pack_roundWithAccuracy (s ^^ t) (tells_exact (m * n)) hroom
      rw [hmul]
      refine isRounded_of_pack (by positivity) ?_ hword hpack
      rw [Nat.cast_mul, zpow_add₀ two_ne_zero, mul_mul_mul_comm, ← hvalue, ← hvalue', signedValue,
        signedValue, withSign_mul]

theorem isRounded_div_unpackedOf (hwpos : 0 < w) :
    IsRounded (signedValue s v / signedValue t w)
      (.ofModel (pack (UnpackedFloat.div .binary64 (unpackedOf s v) (unpackedOf t w)))) := by
  have hsign : signOf s / signOf t = signOf (s ^^ t) := by
    cases s <;> cases t <;> rfl
  rcases unpackedOf_finite t hw with ⟨rfl, -⟩ | ⟨-, n, f, hn, hw', hvalue', -⟩
  · exact absurd hwpos (Nat.lt_irrefl 0)
  · rcases unpackedOf_finite s hv with ⟨rfl, hv'⟩ | ⟨-, m, e, hm, hv', hvalue, -⟩
    · have hdiv : UnpackedFloat.div .binary64 (unpackedOf s 0) (unpackedOf t w) =
          .zero (signOf (s ^^ t)) := by
        rw [hv', hw', ← hsign]
        rfl
      rw [signedValue_zero, zero_div, hdiv]
      exact isRounded_zero _
    · have hdiv : UnpackedFloat.div .binary64 (unpackedOf s v) (unpackedOf t w) =
          UnpackedFloat.roundWithAccuracy .binary64 (signOf (s ^^ t))
            (UnpackedFloat.divCore .binary64 m e n f).1
            (UnpackedFloat.divCore .binary64 m e n f).2.1
            (UnpackedFloat.divCore .binary64 m e n f).2.2 := by
        rw [hv', hw', ← hsign]
        rfl
      obtain ⟨word, hword, hpack⟩ := pack_divided (s ^^ t) e f hm hn
      rw [hdiv]
      refine isRounded_of_pack (by positivity) ?_ hword hpack
      rw [← hvalue, ← hvalue', signedValue, signedValue, withSign_div]

end Operations

section Arithmetic

variable {x y : Float} (hx : x.isFinite = true) (hy : y.isFinite = true)

include hx hy

/-- A sum is the exact sum, rounded. -/
theorem isRounded_add : IsRounded (ratOf x + ratOf y) (x + y) := by
  have hadd := isRounded_add_unpackedOf (isNegative x) (isNegative y) (isFinite_iff.mp hx)
    (isFinite_iff.mp hy)
  rw [← unpack_toModel, ← unpack_toModel] at hadd
  exact hadd

/-- A difference is the sum with the second number's sign changed. -/
theorem isRounded_sub : IsRounded (ratOf x - ratOf y) (x - y) := by
  have hsub := isRounded_add_unpackedOf (isNegative x) (!isNegative y) (isFinite_iff.mp hx)
    (isFinite_iff.mp hy)
  rw [unpackedOf_not, ← unpacked_sub_eq_add_neg, ← unpack_toModel, ← unpack_toModel, signedValue_not,
    ← sub_eq_add_neg] at hsub
  exact hsub

theorem isRounded_mul : IsRounded (ratOf x * ratOf y) (x * y) := by
  have hmul := isRounded_mul_unpackedOf (isNegative x) (isNegative y) (isFinite_iff.mp hx)
    (isFinite_iff.mp hy)
  rw [← unpack_toModel, ← unpack_toModel] at hmul
  exact hmul

theorem isRounded_div (hne : ratOf y ≠ 0) : IsRounded (ratOf x / ratOf y) (x / y) := by
  have hpos := Nat.pos_of_ne_zero (mt ratOf_eq_zero_iff.mpr hne)
  have hdiv := isRounded_div_unpackedOf (isNegative x) (isNegative y) (isFinite_iff.mp hx)
    (isFinite_iff.mp hy) hpos
  rw [← unpack_toModel, ← unpack_toModel] at hdiv
  exact hdiv

end Arithmetic

/-! ## Beyond the numbers -/

theorem isFinite_pack {u : UnpackedFloat} (h : u.isFinite = false) :
    (Float.ofModel (pack u)).isFinite = false := by
  cases u with
  | notANumber => decide +kernel
  | infinity sign => cases sign <;> decide +kernel
  | zero => cases h
  | finite => cases h

section NotFinite

variable (a : UnpackedFloat) {b : UnpackedFloat} (h : b.isFinite = false)

include h

theorem isFinite_unpacked_sub : (UnpackedFloat.sub .binary64 a b).isFinite = false := by
  cases b with
  | notANumber => cases a <;> rfl
  | infinity t =>
      cases a with
      | infinity s => cases s <;> cases t <;> rfl
      | _ => rfl
  | zero => cases h
  | finite => cases h

theorem isFinite_unpacked_mul : (UnpackedFloat.mul .binary64 a b).isFinite = false := by
  cases b with
  | notANumber => cases a <;> rfl
  | infinity t => cases a <;> rfl
  | zero => cases h
  | finite => cases h

end NotFinite

/-- A difference is finite only if what is taken away is. -/
theorem isFinite_of_sub {x y : Float} (h : (x - y).isFinite = true) : y.isFinite = true := by
  by_contra hy
  rw [Bool.not_eq_true] at hy
  have hsub : (x - y).isFinite = false := isFinite_pack (isFinite_unpacked_sub _ hy)
  rw [hsub] at h
  cases h

/-- A product is finite only if its second factor is. -/
theorem isFinite_of_mul {x y : Float} (h : (x * y).isFinite = true) : y.isFinite = true := by
  by_contra hy
  rw [Bool.not_eq_true] at hy
  have hmul : (x * y).isFinite = false := isFinite_pack (isFinite_unpacked_mul _ hy)
  rw [hmul] at h
  cases h

/-! ## Signs -/

theorem neg_ofWord (negative : Bool) {word : Nat} (h : word ≤ infinityWord) :
    -(ofWord negative word) = ofWord (!negative) word := by
  have hmodel : (-(ofWord negative word)).toModel = (ofWord (!negative) word).toModel := by
    rw [toModel_ofWord h, unpackedOf_not, ← unpack_ofWord h]
    rfl
  exact congrArg Float.ofModel hmodel

theorem isRounded_neg {q : ℚ} {x : Float} (h : IsRounded q x) : IsRounded (-q) (-x) := by
  have hneg := neg_ofWord (isNegative x) h.nearest.le
  rw [ofWord_magnitudeWord] at hneg
  rw [hneg]
  exact h.neg (magnitudeWord_ofWord h.nearest.le) (isNegative_ofWord h.nearest.le)

end Binary64

end SheetFormula
