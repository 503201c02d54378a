/-
  SheetFormula.Proofs.Numbers.Display

  Showing numbers and reading texts as numbers agree (`displaysAs_display`).
  Both layouts of a decimal are numerals that spell it, so both count for the
  double whose shortest decimal it is.  The texts tell the magnitudes apart:
  far from one they have an exponent, and integers that are not so far
  have neither a point nor an exponent.
-/
import SheetFormula.Proofs.Numbers.Coercion
import SheetFormula.Proofs.Numbers.Integers
import SheetFormula.Proofs.Numbers.Order

namespace SheetFormula

/-! ## Decimals as numerals -/

namespace Decimal

open Numeral

theorem isSign_signText (negative : Bool) : IsSign (signText negative) negative := by
  cases negative with
  | false => exact .absent
  | true => exact .minus

/-- Digits around a point spell the decimal. -/
theorem isNumeral_positional (d : Decimal) : IsNumeral d.positional.text d.negative d.value := by
  have hread := isNumeral_of_decimal? (decimal?_text d.isPlain_positional)
  rw [d.ofDigits_positional, d.length_fraction_positional] at hread
  -- A positive exponent has been written out as zeros.
  have hvalue : (⟨d.positional.negative, d.significand * 10 ^ d.exponent.toNat,
      -((-d.exponent).toNat : ℤ)⟩ : Decimal).value = d.value := by
    have hten : (10 : ℚ) ≠ 0 := by norm_num
    have hplaces : (d.exponent.toNat : ℤ) + -((-d.exponent).toNat : ℤ) = d.exponent := by omega
    simp only [value]
    rw [Nat.cast_mul, Nat.cast_pow, Nat.cast_ofNat, mul_assoc, ← zpow_natCast, ← zpow_add₀ hten,
      hplaces]
  rw [hvalue] at hread
  exact hread

theorem isMantissa_digits (d : Decimal) :
    IsMantissa (d.digits.take 1 ++ fractionText (d.digits.drop 1))
      (d.significand * 10 ^ (-((d.digits.length - 1 : Nat) : ℤ))) := by
  have hdigits : IsDigits d.digits := isDigits_toDigits d.significand
  have hspelled : ofDigits d.digits = d.significand := Nat.ofDigitChars_ten_toDigits
  obtain ⟨c, ds, hcons⟩ := List.exists_cons_of_ne_nil (toDigits_ne_nil d.significand)
  rw [digits, hcons] at hdigits hspelled ⊢
  obtain ⟨hc, hds⟩ := List.forall_mem_cons.mp hdigits
  have hfirst : IsDigits [c] := List.forall_mem_singleton.mpr hc
  have hvalue : (d.significand : ℚ) * 10 ^ (-(((c :: ds).length - 1 : Nat) : ℤ)) =
      pointValue [c] ds := by
    rw [pointValue_eq, ← hspelled]
    rfl
  rw [hvalue]
  cases ds with
  | nil => exact .whole (List.cons_ne_nil c []) hfirst
  | cons a as => exact .pointed (List.cons_ne_nil c []) hfirst hds

theorem isExponent_exponentText (e : ℤ) : IsExponent ('e' :: exponentText e) e := by
  have hspelled : ofDigits (Nat.toDigits 10 e.natAbs) = e.natAbs := Nat.ofDigitChars_ten_toDigits
  have hmarked {sign : Char} {negative : Bool} (hsign : IsSign [sign] negative) :=
    IsExponent.marked (.inl rfl : 'e' = 'e' ∨ 'e' = 'E') hsign (toDigits_ne_nil e.natAbs)
      (isDigits_toDigits e.natAbs)
  rw [exponentText]
  by_cases hneg : e < 0
  · have hpower : signedPower true (Nat.toDigits 10 e.natAbs) = e := by
      rw [signedPower, hspelled, if_pos rfl]
      omega
    have hminus := hmarked IsSign.minus
    rw [hpower] at hminus
    rw [if_pos hneg]
    exact hminus
  · have hpower : signedPower false (Nat.toDigits 10 e.natAbs) = e := by
      rw [signedPower, hspelled, if_neg Bool.false_ne_true]
      omega
    have hplus := hmarked IsSign.plus
    rw [hpower] at hplus
    rw [if_neg hneg]
    exact hplus

/-- One digit before the point, the others behind it and an exponent spell the decimal. -/
theorem isNumeral_scientific (d : Decimal) : IsNumeral d.scientificText d.negative d.value := by
  have hnumeral := IsNumeral.parts (isSign_signText d.negative) d.isMantissa_digits
    (isExponent_exponentText (d.exponent + (d.digits.length - 1 : Nat)))
  have hten : (10 : ℚ) ≠ 0 := by norm_num
  have hvalue : (d.significand : ℚ) * 10 ^ (-((d.digits.length - 1 : Nat) : ℤ)) *
      10 ^ (d.exponent + (d.digits.length - 1 : Nat)) = d.value := by
    rw [mul_assoc, ← zpow_add₀ hten, value]
    congr 2
    omega
  rw [hvalue, ← List.append_assoc] at hnumeral
  exact hnumeral

end Decimal

/-! ## Characters of a text -/

/-- A text that ends in an exponent whose sign is written. -/
def HasExponent (cs : List Char) : Prop :=
  ∃ mantissa sign ds, cs = mantissa ++ 'e' :: sign :: ds ∧ (sign = '+' ∨ sign = '-') ∧ ds ≠ [] ∧
    Numeral.IsDigits ds

theorem HasExponent.mem {cs : List Char} (h : HasExponent cs) : 'e' ∈ cs := by
  obtain ⟨mantissa, sign, ds, rfl, -⟩ := h
  exact List.mem_append_right _ List.mem_cons_self

theorem Decimal.hasExponent_scientificText (d : Decimal) : HasExponent d.scientificText := by
  refine ⟨_, _, _, rfl, ?_, Numeral.toDigits_ne_nil _, Numeral.isDigits_toDigits _⟩
  split
  · exact .inr rfl
  · exact .inl rfl

/-- Digits around a point have no other characters than a minus and, before a fraction, the point. -/
theorem Positional.IsPlain.not_mem_text {p : Positional} (h : p.IsPlain) {c : Char}
    (hdigit : c.isDigit = false) (hminus : c ≠ '-') (hpoint : c ≠ '.' ∨ p.fraction = []) :
    c ∉ p.text := by
  have hno {ds : List Char} (hds : ∀ c ∈ ds, c.isDigit = true) : c ∉ ds := by
    intro hmem
    rw [hds c hmem] at hdigit
    cases hdigit
  rw [Positional.text, List.mem_append, List.mem_append]
  rintro ((hsign | hwhole) | hfraction)
  · unfold signText at hsign
    split at hsign
    · exact hminus (List.mem_singleton.mp hsign)
    · cases hsign
  · exact hno h.whole_digit hwhole
  · unfold fractionText at hfraction
    split at hfraction
    · cases hfraction
    · next hds =>
      rw [hds] at hpoint
      rcases List.mem_cons.mp hfraction with heq | hmem
      · rcases hpoint with hne | hnil
        · exact hne heq
        · cases hnil
      · rw [← hds] at hmem
        exact hno h.fraction_digit hmem

namespace Value

open Binary64 Numeral

/-! ## Reading back -/

theorem trim_of_isNumeralChar {cs : List Char} (h : ∀ c ∈ cs, isNumeralChar c = true) :
    Text.trim cs = cs := by
  have hblank : ∀ c ∈ cs, Text.isBlank c = false := fun c hc => isBlank_of_isNumeralChar (h c hc)
  by_cases hne : cs = []
  · rw [hne]
    rfl
  · have htrim := @Text.trim_append [] cs [] rfl rfl
      (fun c hc => hblank c (List.mem_of_mem_head? hc))
      (fun c hc => hblank c (List.mem_of_mem_getLast? hc)) hne
    rw [List.nil_append, List.append_nil] at htrim
    exact htrim

/-- A numeral that spells a decimal counts for the decimal's nearest double. -/
theorem numberOfText_of_value {cs : List Char} {d : Decimal}
    (h : IsNumeral cs d.negative d.value) : numberOfText cs = d.toFloat := by
  have htrimmed := h
  rw [← trim_of_isNumeralChar h.isNumeralChar] at htrimmed
  obtain ⟨word, hread, hnearest⟩ := numberOfText_of_isNumeral htrimmed
  rw [hread, hnearest.unique d.isNearest_word, Decimal.toFloat]

/-- The text of a finite double that is not zero, in either layout. -/
theorem text_of_finite {x : Float} (hpos : 0 < magnitudeWord x)
    (hfinite : magnitudeWord x < infinityWord) :
    numberLayout.text x =
      if x.abs < 1e-6 ∨ 1e21 ≤ x.abs then (Decimal.shortest x).scientificText
      else (Decimal.shortest x).positional.text := by
  have hleast : numberLayout.leastPlain = 1e-6 := by decide +kernel
  have hlimit : numberLayout.plainLimit = 1e21 := by decide +kernel
  obtain ⟨k, hk⟩ := Nat.exists_eq_succ_of_ne_zero (Nat.ne_of_gt (Decimal.unitsOf_pos hpos))
  have hshape : shape x = .finite (isNegative x) (k + 1) := by
    rw [shape_of_lt hfinite, hk]
  simp only [NumberLayout.text, hshape, hleast, hlimit, Bool.or_eq_true, decide_eq_true_eq]

theorem text_of_infinite {x : Float} (h : magnitudeWord x = infinityWord) :
    ∃ negative, x = Binary64.infinity negative ∧
      numberLayout.text x = signText negative ++ "Infinity".toList := by
  refine ⟨isNegative x, ?_, ?_⟩
  · rw [Binary64.infinity, ← h, ofWord_magnitudeWord]
  · rw [NumberLayout.text, shape_of_eq h]
    rfl

theorem text_of_zero {x : Float} (h : magnitudeWord x = 0) :
    ∃ negative, x = ofWord negative 0 ∧ numberLayout.text x = ['0'] := by
  have hfinite : magnitudeWord x < infinityWord := by
    rw [h]
    decide
  have hunits : unitsOf 0 = 0 := by decide
  refine ⟨isNegative x, ?_, ?_⟩
  · rw [← h, ofWord_magnitudeWord]
  · rw [NumberLayout.text, shape_of_lt hfinite, h, hunits]

theorem text_of_notANumber {x : Float} (h : infinityWord < magnitudeWord x) :
    numberLayout.text x = "NaN".toList := by
  rw [NumberLayout.text, shape_of_gt h]
  rfl

/-- A number is read back from its text; zero has lost its sign. -/
theorem numberOfText_text {x : Float} (h : x.isNaN = false) :
    numberOfText (numberLayout.text x) = x ∨
      x = negZero ∧ numberOfText (numberLayout.text x) = Binary64.ofNat 0 := by
  rw [isNaN_eq, decide_eq_false_iff_not, Nat.not_lt] at h
  rcases Nat.lt_or_eq_of_le h with hfinite | hinfinite
  · rcases Nat.eq_zero_or_pos (magnitudeWord x) with hzero | hpos
    · obtain ⟨negative, hx, htext⟩ := text_of_zero hzero
      have hread : numberOfText ['0'] = Binary64.ofNat 0 := by decide +kernel
      rw [htext, hread, hx]
      cases negative with
      | false => exact .inl (by decide +kernel)
      | true => exact .inr ⟨rfl, rfl⟩
    · rw [text_of_finite hpos hfinite]
      split
      · exact .inl ((numberOfText_of_value (Decimal.shortest x).isNumeral_scientific).trans
          (Decimal.toFloat_shortest hfinite))
      · exact .inl ((numberOfText_of_value (Decimal.shortest x).isNumeral_positional).trans
          (Decimal.toFloat_shortest hfinite))
  · obtain ⟨negative, hx, htext⟩ := text_of_infinite hinfinite
    rw [htext, hx]
    cases negative with
    | false => exact .inl (by decide +kernel)
    | true => exact .inl (by decide +kernel)

theorem isNaN_numberOfText_text {x : Float} (h : x.isNaN = true) :
    (numberOfText (numberLayout.text x)).isNaN = true := by
  rw [isNaN_eq, decide_eq_true_eq] at h
  rw [text_of_notANumber h]
  decide +kernel

/-! ## Points and exponents -/

/-- A number that is too small or too large for digits around a point. -/
def IsFar (x : Float) : Prop :=
  x.isFinite = true ∧ (x == 0) = false ∧ (x.abs < 1e-6 ∨ 1e21 ≤ x.abs)

theorem not_isFar_of_infinite {x : Float} (h : infinityWord ≤ magnitudeWord x) : ¬ IsFar x := by
  rintro ⟨hfinite, -⟩
  rw [isFinite_eq, decide_eq_true_eq] at hfinite
  omega

theorem not_isFar_of_zero {x : Float} (h : magnitudeWord x = 0) : ¬ IsFar x := by
  rintro ⟨-, hzero, -⟩
  rw [beq_zero_iff.mpr h] at hzero
  cases hzero

theorem isFar_iff_of_finite {x : Float} (hpos : 0 < magnitudeWord x)
    (hfinite : magnitudeWord x < infinityWord) : IsFar x ↔ x.abs < 1e-6 ∨ 1e21 ≤ x.abs := by
  have hfin : x.isFinite = true := by
    rw [isFinite_eq, decide_eq_true hfinite]
  have hzero : (x == 0) = false := by
    rw [← Bool.not_eq_true, beq_zero_iff]
    exact Nat.ne_of_gt hpos
  rw [IsFar]
  simp only [hfin, hzero, true_and]

/-- Every text either ends in an exponent or has no letter of one, and far numbers have it. -/
theorem hasExponent_text (x : Float) :
    HasExponent (numberLayout.text x) ∧ IsFar x ∨
      'e' ∉ numberLayout.text x ∧ 'E' ∉ numberLayout.text x ∧ ¬ IsFar x := by
  rcases Nat.lt_trichotomy (magnitudeWord x) infinityWord with hfinite | hinfinite | hnan
  · rcases Nat.eq_zero_or_pos (magnitudeWord x) with hzero | hpos
    · obtain ⟨-, -, htext⟩ := text_of_zero hzero
      rw [htext]
      exact .inr ⟨by decide, by decide, not_isFar_of_zero hzero⟩
    · rw [text_of_finite hpos hfinite, isFar_iff_of_finite hpos hfinite]
      by_cases hfar : x.abs < 1e-6 ∨ 1e21 ≤ x.abs
      · rw [if_pos hfar]
        exact .inl ⟨Decimal.hasExponent_scientificText _, hfar⟩
      · rw [if_neg hfar]
        have hplain := (Decimal.shortest x).isPlain_positional
        exact .inr ⟨hplain.not_mem_text (by decide) (by decide) (.inl (by decide)),
          hplain.not_mem_text (by decide) (by decide) (.inl (by decide)), hfar⟩
  · obtain ⟨negative, -, htext⟩ := text_of_infinite hinfinite
    rw [htext]
    have hfar := not_isFar_of_infinite (Nat.le_of_eq hinfinite.symm)
    cases negative with
    | false => exact .inr ⟨by decide, by decide, hfar⟩
    | true => exact .inr ⟨by decide, by decide, hfar⟩
  · rw [text_of_notANumber hnan]
    exact .inr ⟨by decide, by decide, not_isFar_of_infinite (Nat.le_of_lt hnan)⟩

theorem nearestWord_one_le {x : Float} (h : isIntegral x = true) (hne : magnitudeWord x ≠ 0) :
    nearestWord 1 1 ≤ magnitudeWord x := by
  obtain ⟨-, hunits⟩ := Decimal.unitsOf_of_isIntegral h
  have hone : unitsOf (nearestWord 1 1) = unitsPerOne := by decide +kernel
  rw [← unitsOf_strictMono.le_iff_le, hone, hunits]
  exact Nat.le_mul_of_pos_left _ (Decimal.whole_pos_of_isIntegral h hne)

theorem limit_eq : (1e21 : Float) = ofWord false (nearestWord 1000000000000000000000 1) := by
  decide +kernel

/-- No integer but zero is below one, and so none is too small for digits around a point. -/
theorem not_isFar_of_isIntegral {x : Float} (h : isIntegral x = true) (hlt : x.abs < 1e21) :
    ¬ IsFar x := by
  rintro ⟨-, hzero, hfar⟩
  obtain ⟨hfinite, -⟩ := Decimal.unitsOf_of_isIntegral h
  have hle := Nat.le_of_lt hfinite
  rw [limit_eq, abs_lt_ofWord_iff hle (nearestWord_le _ _)] at hlt
  rcases hfar with hbelow | habove
  · have hmillionth : (1e-6 : Float) = ofWord false (nearestWord 1 1000000) := by decide +kernel
    have hsmall : nearestWord 1 1000000 < nearestWord 1 1 := by decide +kernel
    rw [hmillionth, abs_lt_ofWord_iff hle (nearestWord_le _ _)] at hbelow
    rw [← Bool.not_eq_true, beq_zero_iff] at hzero
    have hone := nearestWord_one_le h hzero
    omega
  · rw [limit_eq, ofWord_le_abs_iff hle (nearestWord_le _ _)] at habove
    omega

theorem text_of_isIntegral {x : Float} (h : isIntegral x = true) (hlt : x.abs < 1e21) :
    '.' ∉ numberLayout.text x ∧ 'e' ∉ numberLayout.text x ∧ 'E' ∉ numberLayout.text x := by
  have hfar := not_isFar_of_isIntegral h hlt
  have hletters : 'e' ∉ numberLayout.text x ∧ 'E' ∉ numberLayout.text x := by
    rcases hasExponent_text x with ⟨-, hfar'⟩ | ⟨he, hE, -⟩
    · exact absurd hfar' hfar
    · exact ⟨he, hE⟩
  refine ⟨?_, hletters⟩
  obtain ⟨hfinite, -⟩ := Decimal.unitsOf_of_isIntegral h
  rcases Nat.eq_zero_or_pos (magnitudeWord x) with hzero | hpos
  · obtain ⟨-, -, htext⟩ := text_of_zero hzero
    rw [htext]
    decide
  · rw [isFar_iff_of_finite hpos hfinite] at hfar
    rw [text_of_finite hpos hfinite, if_neg hfar]
    have hfraction : (Decimal.shortest x).positional.fraction = [] := by
      have hexponent := Decimal.exponent_shortest_nonneg h
      rw [← List.length_eq_zero_iff, Decimal.length_fraction_positional]
      omega
    exact (Decimal.shortest x).isPlain_positional.not_mem_text (by decide) (by decide)
      (.inr hfraction)

/-! ## Small integers -/

theorem toList_toString_neg {n : Nat} (hn : 0 < n) :
    (toString (-(n : ℤ))).toList = '-' :: Nat.toDigits 10 n := by
  obtain ⟨m, rfl⟩ := Nat.exists_eq_succ_of_ne_zero (Nat.ne_of_gt hn)
  show ("-" ++ String.ofList (Nat.toDigits 10 (m + 1))).toList = _
  simp only [String.toList_append, String.toList_ofList]
  rfl

theorem toList_toString (n : Nat) : (toString (n : ℤ)).toList = Nat.toDigits 10 n := by
  show (Nat.repr n).toList = _
  rw [Nat.repr, String.toList_ofList]

theorem bounds_of_abs_lt {x : Float} (hfinite : magnitudeWord x < infinityWord)
    (hlt : x.abs < 1e15) :
    x.abs < 1e21 ∧ unitsOf (magnitudeWord x) / unitsPerOne < 1000000000000000 := by
  have hle := Nat.le_of_lt hfinite
  have hsmall : (1e15 : Float) = ofWord false (nearestWord 1000000000000000 1) := by decide +kernel
  rw [hsmall, abs_lt_ofWord_iff hle (nearestWord_le _ _)] at hlt
  constructor
  · have hbounds : nearestWord 1000000000000000 1 < nearestWord 1000000000000000000000 1 := by
      decide +kernel
    rw [limit_eq, abs_lt_ofWord_iff hle (nearestWord_le _ _)]
    exact Nat.lt_trans hlt hbounds
  · have hones : unitsOf (nearestWord 1000000000000000 1) = 1000000000000000 * unitsPerOne := by
      decide +kernel
    have hbelow := unitsOf_strictMono hlt
    rw [hones] at hbelow
    exact (Nat.div_lt_iff_lt_mul unitsPerOne_pos).mpr hbelow

/-- Integers below `10 ^ 15` are shown with their digits and nothing else. -/
theorem text_of_smallInteger {x : Float} {lo hi : ℤ} (h : isIntegral x = true) (hlt : x.abs < 1e15)
    (hlo : lo ≤ -1000000000000000) (hhi : 1000000000000000 ≤ hi) :
    numberLayout.text x = (toString (toIntWithin lo hi x)).toList := by
  obtain ⟨hfinite, -⟩ := Decimal.unitsOf_of_isIntegral h
  obtain ⟨hplain, hsmall⟩ := bounds_of_abs_lt hfinite hlt
  rw [toIntWithin_of_finite hfinite (by omega) (by omega)]
  rcases Nat.eq_zero_or_pos (magnitudeWord x) with hzero | hpos
  · obtain ⟨-, -, htext⟩ := text_of_zero hzero
    have hnone : unitsOf 0 / unitsPerOne = 0 := by decide +kernel
    rw [htext, hzero, hnone]
    cases isNegative x with
    | false => decide
    | true => decide
  · have hfar := not_isFar_of_isIntegral h hplain
    rw [isFar_iff_of_finite hpos hfinite] at hfar
    have hwhole := Decimal.whole_pos_of_isIntegral h (Nat.ne_of_gt hpos)
    have hdigits := Decimal.significand_shortest h (by omega)
    have hsignificand : 0 < (Decimal.shortest x).significand := by
      refine Nat.pos_of_ne_zero fun hnone => ?_
      rw [hnone, Nat.zero_mul] at hdigits
      omega
    rw [text_of_finite hpos hfinite, if_neg hfar,
      Decimal.positional_text_of_nonneg (Decimal.exponent_shortest_nonneg h) hsignificand, hdigits,
      Decimal.negative_shortest]
    cases isNegative x with
    | false => exact (toList_toString _).symm
    | true => exact (toList_toString_neg hwhole).symm

/-! ## Numbers as they are shown -/

/-- How a text shows a number. -/
structure DisplaysAs (x : Float) (text : String) : Prop where
  notANumber : x.isNaN = true → (Value.text text).toNumber.isNaN = true
  number : x.isNaN = false → ((Value.text text).toNumber == x) = true
  /-- Only the sign of zero is lost. -/
  same : x.isNaN = false → x ≠ negZero → (Value.text text).toNumber = x
  distinct : ∀ y, (Value.number y).display = text → x.isNaN = true ∧ y.isNaN = true ∨ (x == y) = true
  exponent : HasExponent text.toList ↔
    x.isFinite = true ∧ (x == 0) = false ∧ (x.abs < 1e-6 ∨ 1e21 ≤ x.abs)
  noOther : 'e' ∈ text.toList ∨ 'E' ∈ text.toList → HasExponent text.toList
  integer : isIntegral x = true → x.abs < 1e21 →
    '.' ∉ text.toList ∧ 'e' ∉ text.toList ∧ 'E' ∉ text.toList

theorem toList_display (x : Float) : (number x).display.toList = numberLayout.text x := by
  rw [display_number, numberText, String.toList_ofList]

theorem toNumber_display (x : Float) :
    (text (number x).display).toNumber = numberOfText (numberLayout.text x) := by
  rw [display_number, numberText, toNumber, String.toList_ofList]

theorem beq_self_of_isNaN {x : Float} (h : x.isNaN = false) : (x == x) = true := by
  rw [Float.isNaN_eq_decide_eq_nan, decide_eq_false_iff_not] at h
  exact Float.beq_self_iff.mpr h

theorem beq_numberOfText_text {x : Float} (h : x.isNaN = false) :
    (numberOfText (numberLayout.text x) == x) = true := by
  rcases numberOfText_text h with hread | ⟨rfl, hread⟩
  · rw [hread]
    exact beq_self_of_isNaN h
  · rw [hread]
    decide +kernel

theorem isNaN_eq_false_of_beq {x y : Float} (h : (x == y) = true) : x.isNaN = false := by
  rw [Float.isNaN_eq_decide_eq_nan, decide_eq_false_iff_not]
  exact (Float.beq_iff_ne_nan_and_eq.mp h).1

/-- Numbers with the same text are equal. -/
theorem eq_of_text_eq {x y : Float} (h : numberLayout.text y = numberLayout.text x) :
    x.isNaN = true ∧ y.isNaN = true ∨ (x == y) = true := by
  cases hx : x.isNaN with
  | true =>
      cases hy : y.isNaN with
      | true => exact .inl ⟨rfl, rfl⟩
      | false =>
          have hnumber := isNaN_eq_false_of_beq (beq_numberOfText_text hy)
          rw [h, isNaN_numberOfText_text hx] at hnumber
          cases hnumber
  | false =>
      have hy : y.isNaN = false := by
        rw [← Bool.not_eq_true]
        intro hy
        have hnumber := isNaN_eq_false_of_beq (beq_numberOfText_text hx)
        rw [← h, isNaN_numberOfText_text hy] at hnumber
        cases hnumber
      refine .inr ?_
      -- Both are read back from the one text, up to the sign of zero.
      rcases numberOfText_text hx with hread | ⟨rfl, hread⟩
      · rw [← hread, ← h]
        exact beq_numberOfText_text hy
      · rcases numberOfText_text hy with hread' | ⟨rfl, -⟩
        · rw [← hread', h, hread]
          decide +kernel
        · decide +kernel

/-- Numbers are shown by texts that count for them, and with an exponent where they are far from
    one. -/
theorem displaysAs_display (x : Float) : DisplaysAs x (number x).display where
  notANumber h := by
    rw [toNumber_display]
    exact isNaN_numberOfText_text h
  number h := by
    rw [toNumber_display]
    exact beq_numberOfText_text h
  same h hne := by
    rw [toNumber_display]
    rcases numberOfText_text h with hread | ⟨hzero, -⟩
    · exact hread
    · exact absurd hzero hne
  distinct y h := by
    rw [display_number, display_number, numberText, numberText, String.ofList_inj] at h
    exact eq_of_text_eq h
  exponent := by
    rw [toList_display]
    rcases hasExponent_text x with ⟨hexponent, hfar⟩ | ⟨he, -, hfar⟩
    · exact iff_of_true hexponent hfar
    · exact iff_of_false (fun hexponent => he hexponent.mem) hfar
  noOther := by
    rw [toList_display]
    rcases hasExponent_text x with ⟨hexponent, -⟩ | ⟨he, hE, -⟩
    · exact fun _ => hexponent
    · rintro (hmem | hmem)
      · exact absurd hmem he
      · exact absurd hmem hE
  integer h hlt := by
    rw [toList_display]
    exact text_of_isIntegral h hlt

example : (number (-2.5e22)).display = "-2.5e+22" ∧
    (number 1e20).display = "100000000000000000000" := by
  decide +kernel

end Value

end SheetFormula
