/-
  SheetFormula.Proofs.Numbers.FixedPoint

  Fixed-point decimals as numbers.  Reading the digits around a point and
  rounding to places are the same rounding on numbers, a half upwards
  (`roundedAt`): the reader rounds at its last place (`ofPositional?_positional`),
  `roundTo` at the place it is given (`Fixed.value_roundTo`).
-/
import SheetFormula.Decimal.Fixed
import SheetFormula.Proofs.Numbers.Numerals
import SheetFormula.Proofs.Numbers.Rounded

namespace SheetFormula

/-! ## Rounding at a place -/

/-- The number rounded to decimal places, a half upwards. -/
def roundedAt (places : Nat) (q : ℚ) : ℚ := ⌊q * 10 ^ places + 1 / 2⌋ / 10 ^ places

/-- A quotient rounded with its half upwards is the floor of the quotient and a half. -/
theorem floor_add_half (num : Nat) {den : Nat} (h : 0 < den) :
    ⌊(num : ℚ) / den + 1 / 2⌋ = roundDiv .up num den := by
  have hden : (0 : ℚ) < den := by exact_mod_cast h
  have hle := roundDiv_two_mul_le .up num h
  have hlt : 2 * num < 2 * (roundDiv .up num den * den) + den := by
    have hmod := Nat.mod_lt num h
    have hdiv := Nat.div_add_mod num den
    rw [Nat.mul_comm] at hdiv
    simp only [roundDiv]
    split
    · omega
    · split <;> rw [Nat.add_mul] <;> omega
  have hle' : (2 * (roundDiv .up num den * den) : ℚ) ≤ 2 * num + den := by exact_mod_cast hle
  have hlt' : (2 * num : ℚ) < 2 * (roundDiv .up num den * den) + den := by exact_mod_cast hlt
  rw [div_add_div _ _ (ne_of_gt hden) two_ne_zero, Int.floor_eq_iff, le_div_iff₀ (by positivity),
    div_lt_iff₀ (by positivity), Int.cast_natCast]
  constructor <;> linarith

/-- A number with places is rounded at the digit behind the last place that stays. -/
theorem roundedAt_div (places n p : Nat) :
    roundedAt places ((n : ℚ) / 10 ^ p) = roundDiv .up n (10 ^ (p - places)) / 10 ^ min places p := by
  rw [roundedAt]
  rcases Nat.le_total p places with hle | hle
  · -- There is nothing to round.
    have hscaled : (n : ℚ) / 10 ^ p * 10 ^ places = (n * 10 ^ (places - p) : Nat) := by
      rw [← Nat.sub_add_cancel hle, pow_add, Nat.add_sub_cancel]
      push_cast
      field_simp
    have hfloor : ⌊((n * 10 ^ (places - p) : Nat) : ℚ) + 1 / 2⌋ = (n * 10 ^ (places - p) : Nat) := by
      have hone := floor_add_half (n * 10 ^ (places - p)) Nat.one_pos
      rw [Nat.cast_one, div_one, roundDiv_one] at hone
      exact hone
    rw [hscaled, hfloor, Int.cast_natCast, ← hscaled, mul_div_cancel_right₀ _ (by positivity),
      Nat.sub_eq_zero_of_le hle, Nat.pow_zero, roundDiv_one, Nat.min_eq_right hle]
  · have hscaled : (n : ℚ) / 10 ^ p * 10 ^ places = n / (10 ^ (p - places) : Nat) := by
      rw [← Nat.sub_add_cancel hle, pow_add, Nat.add_sub_cancel]
      push_cast
      field_simp
    rw [hscaled, floor_add_half _ (Nat.pow_pos (by decide)), Int.cast_natCast, Nat.min_eq_left hle]

/-- A number with no more places stays as it is. -/
theorem roundedAt_eq_self (n : Nat) {p places : Nat} (h : p ≤ places) :
    roundedAt places ((n : ℚ) / 10 ^ p) = n / 10 ^ p := by
  rw [roundedAt_div, Nat.sub_eq_zero_of_le h, Nat.pow_zero, roundDiv_one, Nat.min_eq_right h]

theorem roundedAt_nonneg {q : ℚ} (hq : 0 ≤ q) (places : Nat) : 0 ≤ roundedAt places q := by
  rw [roundedAt]
  have hfloor : 0 ≤ ⌊q * 10 ^ places + 1 / 2⌋ := Int.floor_nonneg.mpr (by positivity)
  have hcast : (0 : ℚ) ≤ ⌊q * 10 ^ places + 1 / 2⌋ := by exact_mod_cast hfloor
  positivity

/-- What is less than half a place is rounded away. -/
theorem roundedAt_eq_zero {q : ℚ} {places : Nat} (hq : 0 ≤ q) (hlt : q * 10 ^ places < 1 / 2) :
    roundedAt places q = 0 := by
  have hfloor : ⌊q * 10 ^ places + 1 / 2⌋ = 0 := by
    rw [Int.floor_eq_zero_iff]
    constructor
    · positivity
    · linarith
  rw [roundedAt, hfloor, Int.cast_zero, zero_div]

theorem roundedAt_zero (places : Nat) : roundedAt places 0 = 0 :=
  roundedAt_eq_zero le_rfl (by norm_num)

theorem roundedAt_le (q : ℚ) (places : Nat) :
    roundedAt places q * 10 ^ places ≤ q * 10 ^ places + 1 / 2 := by
  rw [roundedAt, div_mul_cancel₀ _ (by positivity)]
  exact Int.floor_le _

/-! ## Decimals as quotients -/

namespace Decimal

theorem value_nonneg (d : Decimal) : 0 ≤ d.value := by
  rw [value]
  positivity

theorem value_eq_natCast_div (d : Decimal) :
    d.value = (d.significand * 10 ^ d.exponent.toNat : Nat) / 10 ^ (-d.exponent).toNat := by
  rw [value_eq_div, num, den, Nat.pow_eq, Nat.pow_eq, Nat.cast_pow, Nat.cast_ofNat]

theorem value_places (negative : Bool) (n places : Nat) :
    (⟨negative, n, -(places : ℤ)⟩ : Decimal).value = n / 10 ^ places := by
  rw [value, zpow_neg, zpow_natCast, div_eq_mul_inv]

end Decimal

/-! ## Fixed-point decimals as numbers -/

namespace Fixed

open Binary64 (withSign withSign_zero)

/-- The magnitude of a fixed-point decimal. -/
def value (d : Fixed) : ℚ := d.mantissa / 10 ^ d.scale

theorem value_ofParts (negative : Bool) (mantissa scale : Nat) :
    (ofParts negative mantissa scale).value = mantissa / 10 ^ scale := rfl

theorem scale_roundTo (d : Fixed) (places : Nat) : (d.roundTo places).scale = min places d.scale := by
  rw [roundTo]
  split
  · next hle => exact (Nat.min_eq_right hle).symm
  · next hgt => exact (Nat.min_eq_left (Nat.le_of_not_le hgt)).symm

theorem value_roundTo (d : Fixed) (places : Nat) :
    (d.roundTo places).value = roundedAt places d.value := by
  rw [roundTo]
  split
  · next hle => rw [value, roundedAt_eq_self _ hle]
  · next hgt =>
    rw [value_ofParts, value, roundedAt_div, Nat.min_eq_left (Nat.le_of_not_le hgt)]
    rfl

/-- Zero has no sign, but it needs none. -/
theorem withSign_ofParts {f : ℚ → ℚ} (hzero : f 0 = 0) (negative : Bool) (mantissa scale : Nat) :
    withSign (ofParts negative mantissa scale).negative (f (ofParts negative mantissa scale).value) =
      withSign negative (f (ofParts negative mantissa scale).value) := by
  rw [value_ofParts]
  rcases Nat.eq_zero_or_pos mantissa with rfl | hpos
  · rw [Nat.cast_zero, zero_div, hzero, withSign_zero, withSign_zero]
  · have hnegative : (ofParts negative mantissa scale).negative = negative := by
      rw [ofParts, bne_iff_ne.mpr (Nat.ne_of_gt hpos), Bool.and_true]
    rw [hnegative]

theorem withSign_roundTo (d : Fixed) (places : Nat) :
    withSign (d.roundTo places).negative (d.roundTo places).value =
      withSign d.negative (roundedAt places d.value) := by
  rw [← value_roundTo, roundTo]
  split
  · rfl
  · exact withSign_ofParts (f := id) rfl _ _ _

/-! ## Reading digits -/

open Numeral (ofDigits)

theorem digit_le {c : Char} (h : c.isDigit = true) : ofDigits [c] ≤ 9 := by
  have hbounds := Text.toNat_of_isDigit h
  show 10 * 0 + (c.toNat - 48) ≤ 9
  omega

theorem ofDigitChars_cons (c : Char) (cs : List Char) (n : Nat) :
    Nat.ofDigitChars 10 (c :: cs) n = Nat.ofDigitChars 10 cs (10 * n + ofDigits [c]) := by
  rw [Nat.ofDigitChars_cons, ofDigits, Nat.ofDigitChars_cons, Nat.ofDigitChars_nil, Nat.mul_zero,
    Nat.zero_add]

/-- More digits make no smaller number. -/
theorem le_ofDigitChars (cs : List Char) (n : Nat) : n ≤ Nat.ofDigitChars 10 cs n := by
  rw [Nat.ofDigitChars_eq_ofDigitChars_zero]
  exact Nat.le_add_right_of_le (Nat.le_mul_of_pos_left n (Nat.pow_pos (by decide)))

theorem ofDigits_lt {cs : List Char} (h : ∀ c ∈ cs, c.isDigit = true) :
    ofDigits cs < 10 ^ cs.length := by
  induction cs with
  | nil => decide
  | cons c cs ih =>
      have hdigit := digit_le (h c List.mem_cons_self)
      have hrest := ih fun d hd => h d (List.mem_cons_of_mem c hd)
      rw [ofDigits, ofDigitChars_cons, Nat.mul_zero, Nat.zero_add,
        Nat.ofDigitChars_eq_ofDigitChars_zero, List.length_cons, Nat.pow_succ]
      rw [ofDigits] at hrest
      have hmul := Nat.mul_le_mul_left (10 ^ cs.length) hdigit
      omega

/-- A number of digits is rounded in front of one of them by that one. -/
theorem roundDiv_ofDigitChars {c : Char} {cs : List Char} (h : ∀ d ∈ c :: cs, d.isDigit = true)
    (n : Nat) :
    roundDiv .up (Nat.ofDigitChars 10 (c :: cs) n) (10 ^ (cs.length + 1)) =
      if ofDigits [c] < 5 then n else n + 1 := by
  have hdigit := digit_le (h c List.mem_cons_self)
  have hrest := ofDigits_lt fun d hd => h d (List.mem_cons_of_mem c hd)
  have hsplit : Nat.ofDigitChars 10 (c :: cs) n =
      10 ^ (cs.length + 1) * n + (10 ^ cs.length * ofDigits [c] + ofDigits cs) := by
    rw [ofDigitChars_cons, Nat.ofDigitChars_eq_ofDigitChars_zero, ← ofDigits, Nat.pow_succ]
    ring
  have hlt : 10 ^ cs.length * ofDigits [c] + ofDigits cs < 10 ^ (cs.length + 1) := by
    have hmul := Nat.mul_le_mul_left (10 ^ cs.length) hdigit
    rw [Nat.pow_succ]
    omega
  have hpow : 0 < 10 ^ (cs.length + 1) := Nat.pow_pos (by decide)
  rw [hsplit, roundDiv, Nat.mul_add_div hpow, Nat.mul_add_mod, Nat.div_eq_of_lt hlt,
    Nat.mod_eq_of_lt hlt, Nat.add_zero n, Nat.pow_succ]
  by_cases hsmall : ofDigits [c] < 5
  · have hmul := Nat.mul_le_mul_left (10 ^ cs.length) (Nat.le_of_lt_succ hsmall)
    rw [if_pos hsmall, if_pos (by omega)]
  · have hmul := Nat.mul_le_mul_left (10 ^ cs.length) (Nat.le_of_not_lt hsmall)
    rw [if_neg hsmall, if_neg (by omega)]
    exact ite_self _

theorem readFraction?_cons (mantissa scale : Nat) (c : Char) (cs : List Char) :
    readFraction? mantissa scale (c :: cs) =
      if scale < maxScale ∧ 10 * mantissa + ofDigits [c] < mantissaLimit then
        readFraction? (10 * mantissa + ofDigits [c]) (scale + 1) cs
      else if ofDigits [c] < 5 then some (mantissa, scale)
      else if mantissa + 1 < mantissaLimit then some (mantissa + 1, scale)
      else if scale = 0 then none
      else some ((mantissa + 1 + 4) / 10, scale - 1) := rfl

/-- Where there is room for the number that they spell, digits behind the point are read up to the
    last place, and the number is rounded there. -/
theorem readFraction?_eq {cs : List Char} (hdigits : ∀ c ∈ cs, c.isDigit = true) {mantissa scale : Nat}
    (hscale : scale ≤ maxScale) (hroom : Nat.ofDigitChars 10 cs mantissa + 1 < mantissaLimit) :
    readFraction? mantissa scale cs =
      some (roundDiv .up (Nat.ofDigitChars 10 cs mantissa) (10 ^ (scale + cs.length - maxScale)),
        min maxScale (scale + cs.length)) := by
  induction cs generalizing mantissa scale with
  | nil =>
      rw [readFraction?, List.length_nil, Nat.add_zero, Nat.sub_eq_zero_of_le hscale, Nat.pow_zero,
        roundDiv_one, Nat.min_eq_right hscale, Nat.ofDigitChars_nil]
  | cons c cs ih =>
      have hlonger := le_ofDigitChars cs (10 * mantissa + ofDigits [c])
      rw [← ofDigitChars_cons] at hlonger
      rw [readFraction?_cons]
      rcases Nat.lt_or_eq_of_le hscale with hlt | rfl
      · have hlength : scale + (c :: cs).length = scale + 1 + cs.length := by
          rw [List.length_cons]
          omega
        rw [if_pos ⟨hlt, by omega⟩, hlength, ofDigitChars_cons]
        rw [ofDigitChars_cons] at hroom
        exact ih (fun d hd => hdigits d (List.mem_cons_of_mem c hd)) (Nat.succ_le_of_lt hlt) hroom
      · -- The digit has no room and rounds what has been read.
        have hlength : maxScale + (c :: cs).length - maxScale = cs.length + 1 := by
          rw [List.length_cons]
          omega
        rw [if_neg (fun h => Nat.lt_irrefl _ h.1), if_pos (by omega : mantissa + 1 < mantissaLimit),
          hlength, roundDiv_ofDigitChars hdigits, Nat.min_eq_left (Nat.le_add_right ..)]
        split <;> rfl

theorem whole_le_ofDigits (p : Positional) :
    ofDigits p.whole ≤ ofDigits (p.whole ++ p.fraction) := by
  rw [ofDigits, ofDigits, Nat.ofDigitChars_append]
  exact le_ofDigitChars ..

/-- The digits of a decimal are read into the number rounded at the last place that there is. -/
theorem ofPositional?_positional {d : Decimal}
    (hroom : d.significand * 10 ^ d.exponent.toNat + 1 < mantissaLimit) :
    ofPositional? d.positional =
      some (ofParts d.negative
        (roundDiv .up (d.significand * 10 ^ d.exponent.toNat) (10 ^ ((-d.exponent).toNat - maxScale)))
        (min maxScale (-d.exponent).toNat)) := by
  have hwhole := whole_le_ofDigits d.positional
  have hspelled := d.ofDigits_positional
  rw [hspelled] at hwhole
  rw [ofDigits, Nat.ofDigitChars_append] at hspelled
  have hread := readFraction?_eq d.isPlain_positional.fraction_digit (Nat.zero_le maxScale)
    (by rw [hspelled]; exact hroom)
  rw [hspelled, Nat.zero_add, d.length_fraction_positional] at hread
  rw [ofPositional?, if_pos (by rw [← ofDigits]; omega), hread]
  rfl

/-- Without places behind the point all digits are read, if there is room for them. -/
theorem ofPositional?_of_nonneg {d : Decimal} (h : 0 ≤ d.exponent) :
    ofPositional? d.positional =
      if d.significand * 10 ^ d.exponent.toNat < mantissaLimit then
        some (ofParts d.negative (d.significand * 10 ^ d.exponent.toNat) 0)
      else none := by
  have hnone : d.positional.fraction = [] := by
    rw [← List.length_eq_zero_iff, d.length_fraction_positional]
    omega
  have hspelled := d.ofDigits_positional
  rw [hnone, List.append_nil, ofDigits] at hspelled
  rw [ofPositional?, hspelled, hnone]
  rfl

end Fixed

end SheetFormula
