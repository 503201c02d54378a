/-
  SheetFormula.Proofs.Library.Cuts

  Cutting texts.  A count of characters is the integer part of a number, which
  is exact for every finite one (`ratOf_trunc`) and held within a machine word.
  Main statement: the first characters of a text and the last ones make up the
  text when their counts do, whatever kinds of values the counts are
  (`texts_cut`).
-/
import SheetFormula.Proofs.Functions.Shipped
import SheetFormula.Proofs.Numbers.Integers
import SheetFormula.Proofs.Numbers.Integral

namespace SheetFormula

namespace Binary64

/-! ## Integer parts of what is not negative -/

section IntegerPart

variable {x : Float} (hpos : 0 ≤ ratOf x)

include hpos

/-- Only a zero has a sign and is not below zero. -/
theorem unsigned_or_zero : isNegative x = false ∨ unitsOf (magnitudeWord x) = 0 := by
  cases hsign : isNegative x with
  | false => exact .inl rfl
  | true =>
      have hle : ratOf x ≤ 0 := by
        rw [ratOf, hsign, signedValue_true]
        exact neg_nonpos.mpr (valueOf_nonneg _)
      rw [ratOf_eq_zero_iff.mp (le_antisymm hle hpos)]
      exact .inr rfl

theorem floor_ratOf_of_nonneg : ⌊ratOf x⌋ = wholeBelow (unitsOf (magnitudeWord x)) := by
  rw [← abs_of_nonneg hpos, abs_ratOf, valueOf, floor_natCast_div]

variable (hfinite : x.isFinite = true)

include hfinite

theorem toIntWithin_of_nonneg (hi : Nat) : toIntWithin 0 hi x = min (hi : ℤ) ⌊ratOf x⌋ := by
  rw [toIntWithin, shape_of_isFinite hfinite, floor_ratOf_of_nonneg hpos]
  rcases unsigned_or_zero hpos with hsign | hzero
  · rw [hsign]
    exact max_eq_right (by omega)
  · rw [hzero]
    cases isNegative x <;> simp [wholeBelow]

theorem isRounded_trunc : IsRounded (⌊ratOf x⌋ : ℤ) (trunc x) := by
  have hrounded := isRounded_toIntegral (fun _ units => wholeBelow units)
    (fun _ n => wholeBelow_mul n) hfinite
  rw [floor_ratOf_of_nonneg hpos]
  rcases unsigned_or_zero hpos with hsign | hzero
  · rwa [hsign] at hrounded
  · -- A negative zero stays one, and rounds zero as well.
    rw [hzero] at hrounded ⊢
    simpa [trunc, wholeBelow, withSign_zero] using hrounded

/-- A double without a fraction is its own integer part. -/
theorem trunc_of_isIntegral (hintegral : isIntegral x = true) :
    trunc x = x ∧ ratOf x = (⌊ratOf x⌋ : ℤ) := by
  obtain ⟨n, hunits⟩ : ∃ n, unitsOf (magnitudeWord x) = n * unitsPerOne :=
    ⟨_, (Decimal.unitsOf_of_isIntegral hintegral).2⟩
  constructor
  · rw [trunc, toIntegral_of_isFinite _ hfinite, hunits, Nat.mul_mod_left, if_pos rfl]
  · rw [floor_ratOf_of_nonneg hpos, ← abs_of_nonneg hpos, abs_ratOf, valueOf, hunits,
      wholeBelow_mul, Nat.cast_mul, mul_div_cancel_right₀ _ (ne_of_gt unitsPerOne_cast_pos),
      Int.cast_natCast]

/-- Integer parts are doubles: from `2 ^ 52` on there are no fractions, and below all integers are
    exact. -/
theorem ratOf_trunc : (trunc x).isFinite = true ∧ ratOf (trunc x) = (⌊ratOf x⌋ : ℤ) := by
  rcases le_or_gt (2 ^ 52) |ratOf x| with hlarge | hsmall
  · have hintegral := isIntegral_of_le_abs hfinite hlarge
    obtain ⟨htrunc, hvalue⟩ := trunc_of_isIntegral hpos hfinite hintegral
    rw [htrunc]
    exact ⟨hfinite, hvalue⟩
  · have hrounded := isRounded_trunc hpos hfinite
    have hbound : |⌊ratOf x⌋| ≤ 2 ^ 53 := by
      rw [abs_of_nonneg hpos] at hsmall
      have hfloor : ⌊ratOf x⌋ < 2 ^ 52 := Int.floor_lt.mpr (by exact_mod_cast hsmall)
      rw [abs_of_nonneg (Int.floor_nonneg.mpr hpos)]
      omega
    exact ⟨hrounded.isFinite_of_int hbound, hrounded.ratOf_of_int hbound⟩

end IntegerPart

end Binary64

namespace Library

open Binary64

/-! ## Counts -/

/-- The value counts for exactly this many. -/
structure IsCount (p : Value) (k : Nat) : Prop where
  isFinite : p.toNumber.isFinite = true
  ratOf_eq : ratOf p.toNumber = k

/-- The value counts for this many or more; infinity does. -/
def CountsFrom (p : Value) (k : Nat) : Prop :=
  p.toNumber = infinity false ∨ p.toNumber.isFinite = true ∧ (k : ℚ) ≤ ratOf p.toNumber

/-- The value is no count of characters: it is not a number or below zero. -/
def IsNoCount (p : Value) : Prop := p.toNumber.isNaN = true ∨ p.toNumber < ofNat 0

/-- Numbers are counts, and so are texts, truth values and null that count for them. -/
theorem isCount_of_toNumber {p : Value} {k : Nat} (hk : k ≤ 2 ^ 53) (h : p.toNumber = ofNat k) :
    IsCount p k where
  isFinite := h ▸ isFinite_ofNat hk
  ratOf_eq := h ▸ ratOf_ofNat hk

section Count

variable (function : String) {p : Value}

theorem count_of_isNoCount (h : IsNoCount p) :
    count function (some p) = .error (.invalidArgument
      (function ++ " expects a non-negative character count, got " ++ p.display)) := by
  have hrefused : (p.toNumber.isNaN || decide (p.toNumber < ofNat 0)) = true := by
    rw [Bool.or_eq_true, decide_eq_true_eq]
    exact h
  rw [count, if_pos hrefused]

theorem count_of_nonneg (hfinite : p.toNumber.isFinite = true) (hpos : 0 ≤ ratOf p.toNumber) :
    count function (some p) = .ok (min countLimit ⌊ratOf p.toNumber⌋₊) := by
  have hnan := isNaN_of_isFinite hfinite
  -- The check compares doubles; a negative zero passes it.
  have hbelow : ¬ p.toNumber < ofNat 0 := by
    rw [lt_iff_ratOf hnan (isNaN_of_isFinite (isFinite_ofNat (Nat.zero_le _))),
      ratOf_ofNat (Nat.zero_le _)]
    exact_mod_cast not_lt.mpr hpos
  have haccepted : (p.toNumber.isNaN || decide (p.toNumber < ofNat 0)) = false := by
    rw [hnan, Bool.false_or, decide_eq_false_iff_not]
    exact hbelow
  rw [count, if_neg (Bool.eq_false_iff.mp haccepted), toIntWithin_of_nonneg hpos hfinite,
    ← Int.floor_toNat]
  congr 1
  omega

theorem count_of_isCount {k : Nat} (h : IsCount p k) (hk : k ≤ countLimit) :
    count function (some p) = .ok k := by
  have hpos : 0 ≤ ratOf p.toNumber := by
    rw [h.ratOf_eq]
    exact Nat.cast_nonneg k
  rw [count_of_nonneg function h.isFinite hpos, h.ratOf_eq, Nat.floor_natCast, min_eq_right hk]

/-- What counts for at least as many as can be counted is held at the limit, or counted. -/
theorem exists_count_of_countsFrom {k : Nat} (h : CountsFrom p k) (hk : k ≤ countLimit) :
    ∃ n, count function (some p) = .ok n ∧ k ≤ n := by
  rcases h with hinfinite | ⟨hfinite, hle⟩
  · have haccepted : ((infinity false).isNaN || decide (infinity false < ofNat 0)) = false := by
      decide +kernel
    have hlimit : toIntWithin 0 countLimit (infinity false) = countLimit := by decide +kernel
    refine ⟨countLimit, ?_, hk⟩
    rw [count, hinfinite, if_neg (Bool.eq_false_iff.mp haccepted), hlimit, Int.toNat_natCast]
  · have hpos : 0 ≤ ratOf p.toNumber := le_trans (Nat.cast_nonneg k) hle
    exact ⟨_, count_of_nonneg function hfinite hpos, le_min hk (Nat.le_floor hle)⟩

/-- A fraction of a character does not count. -/
theorem count_trunc (hfinite : p.toNumber.isFinite = true) (hpos : 0 ≤ ratOf p.toNumber) :
    count function (some (.number (trunc p.toNumber))) = count function (some p) := by
  obtain ⟨htrunc, hvalue⟩ := ratOf_trunc hpos hfinite
  have hfloor : 0 ≤ ratOf (trunc p.toNumber) := by
    rw [hvalue]
    exact_mod_cast Int.floor_nonneg.mpr hpos
  rw [count_of_nonneg function hfinite hpos,
    count_of_nonneg function (p := .number (trunc p.toNumber)) htrunc hfloor,
    Value.toNumber_number, hvalue, ← Int.floor_toNat, Int.floor_intCast, Int.floor_toNat]

end Count

/-! ## First and last characters -/

section Halves

variable {v : Value}

theorem left_append_right {k : Nat} (h : k ≤ length v) :
    left v k ++ right v (length v - k) = v.display := by
  have hdrop : v.display.toList.length - (length v - k) = k := Nat.sub_sub_self h
  rw [left, right, hdrop, ← String.ofList_append, List.take_append_drop, String.ofList_toList]

theorem length_left {k : Nat} (h : k ≤ length v) : length (.text (left v k)) = k := by
  rw [length, Value.display_text, left, String.toList_ofList, List.length_take]
  exact min_eq_left h

theorem length_right {k : Nat} (h : k ≤ length v) : length (.text (right v k)) = k := by
  rw [length, Value.display_text, right, String.toList_ofList, List.length_drop]
  exact Nat.sub_sub_self h

theorem left_of_length_le {n : Nat} (h : length v ≤ n) : left v n = v.display := by
  rw [left, List.take_of_length_le h, String.ofList_toList]

theorem right_of_length_le {n : Nat} (h : length v ≤ n) : right v n = v.display := by
  have hdrop : v.display.toList.length - n = 0 := Nat.sub_eq_zero_of_le h
  rw [right, hdrop, List.drop_zero, String.ofList_toList]

theorem occursIn_left (k : Nat) : occursIn (left v k).toList v.display.toList = true := by
  rw [occursIn_iff, left, String.toList_ofList]
  exact ⟨[], v.display.toList.drop k, (List.take_append_drop k _).symm⟩

theorem occursIn_right (k : Nat) : occursIn (right v k).toList v.display.toList = true := by
  rw [occursIn_iff, right, String.toList_ofList]
  exact ⟨v.display.toList.take (v.display.toList.length - k), [], by simp⟩

end Halves

/-! ## The functions -/

/-- The library has a function of this name that gives these answers, errors among them, whatever
    the host is. -/
def Answers (name : String) (f : List Value → Except Error Value) : Prop :=
  ∀ σ : Type, ∃ g : SheetFunction σ, g ∈ standard ∧ g.name = name ∧
    ∀ args state, (g.body args).runOn state = (f args, state)

/-- The text that is cut from the first argument at the count in the second. -/
def cutting (function : String) (cut : Value → Nat → String) (args : List Value) :
    Except Error Value :=
  (count function args[1]?).map fun n => .text (cut (arg args 0) n)

theorem answers_cutting {name shown : String} {cut : Value → Nat → String}
    (hmem : ∀ σ : Type, counted name cut ∈ (standard : List (SheetFunction σ)))
    (hshown : Text.upper name = shown) : Answers name (cutting shown cut) := by
  refine fun σ => ⟨_, hmem σ, rfl, fun args state => ?_⟩
  rw [← hshown]
  exact Host.runOn_ofExcept _ state

section Cutting

variable {function : String} {cut : Value → Nat → String} {v p : Value}

theorem cutting_eq :
    cutting function cut [v, p] = (count function (some p)).map fun n => .text (cut v n) := rfl

theorem cutting_of_count {n : Nat} (h : count function (some p) = .ok n) :
    cutting function cut [v, p] = .ok (.text (cut v n)) := by
  rw [cutting_eq, h]
  rfl

theorem cutting_of_isNoCount (h : IsNoCount p) :
    cutting function cut [v, p] = .error (.invalidArgument
      (function ++ " expects a non-negative character count, got " ++ p.display)) := by
  rw [cutting_eq, count_of_isNoCount function h]
  rfl

end Cutting

/-- What functions that cut texts answer, as functions that look at texts see it.  No text that a
    machine holds has more characters than the limit. -/
structure CutsTexts (left right : List Value → Except Error Value)
    (len contains : List Value → Value) : Prop where
  /-- Two counts that make up the length cut the text in two. -/
  halves : ∀ (v p q : Value) (k : Nat), length v ≤ countLimit → k ≤ length v → IsCount p k →
    IsCount q (length v - k) →
      ∃ s t, left [v, p] = .ok (.text s) ∧ right [v, q] = .ok (.text t) ∧ s ++ t = v.display ∧
        len [.text s] = .number (ofNat k) ∧ len [.text t] = .number (ofNat (length v - k)) ∧
        contains [v, .text s] = .bool true ∧ contains [v, .text t] = .bool true
  /-- From the length on, a count gives the whole text. -/
  whole : ∀ v p : Value, length v ≤ countLimit → CountsFrom p (length v) →
    left [v, p] = .ok (.text v.display) ∧ right [v, p] = .ok (.text v.display)
  refused : ∀ v p : Value, IsNoCount p →
    left [v, p] = .error (.invalidArgument
        ("LEFT" ++ " expects a non-negative character count, got " ++ p.display)) ∧
      right [v, p] = .error (.invalidArgument
        ("RIGHT" ++ " expects a non-negative character count, got " ++ p.display))
  /-- A count with a fraction does what its integer part does. -/
  truncated : ∀ v p : Value, p.toNumber.isFinite = true → 0 ≤ ratOf p.toNumber →
    IsCount (.number (trunc p.toNumber)) ⌊ratOf p.toNumber⌋₊ ∧
      left [v, p] = left [v, .number (trunc p.toNumber)] ∧
      right [v, p] = right [v, .number (trunc p.toNumber)]

theorem cutsTexts :
    CutsTexts (cutting "LEFT" left) (cutting "RIGHT" right)
      (fun vs => .number (ofNat (length (arg vs 0))))
      fun vs => .bool (occursIn (arg vs 1).display.toList (arg vs 0).display.toList) where
  halves v p q k hlimit hk hp hq := by
    have hrest : length v - k ≤ length v := Nat.sub_le _ _
    have hleft := count_of_isCount "LEFT" hp (hk.trans hlimit)
    have hright := count_of_isCount "RIGHT" hq (hrest.trans hlimit)
    refine ⟨_, _, cutting_of_count hleft, cutting_of_count hright, left_append_right hk,
      ?_, ?_, ?_, ?_⟩
    · exact congrArg (fun n => Value.number (ofNat n)) (length_left hk)
    · exact congrArg (fun n => Value.number (ofNat n)) (length_right hrest)
    · exact congrArg Value.bool (occursIn_left k)
    · exact congrArg Value.bool (occursIn_right (length v - k))
  whole v p hlimit hp := by
    obtain ⟨n, hleft, hn⟩ := exists_count_of_countsFrom "LEFT" hp hlimit
    obtain ⟨m, hright, hm⟩ := exists_count_of_countsFrom "RIGHT" hp hlimit
    rw [cutting_of_count hleft, cutting_of_count hright, left_of_length_le hn,
      right_of_length_le hm]
    exact ⟨rfl, rfl⟩
  refused v p hp := ⟨cutting_of_isNoCount hp, cutting_of_isNoCount hp⟩
  truncated v p hfinite hpos := by
    obtain ⟨htrunc, hvalue⟩ := ratOf_trunc hpos hfinite
    refine ⟨⟨htrunc, ?_⟩, ?_, ?_⟩
    · rw [natCast_floor_eq_intCast_floor hpos]
      exact hvalue
    · rw [cutting_eq, cutting_eq, count_trunc _ hfinite hpos]
    · rw [cutting_eq, cutting_eq, count_trunc _ hfinite hpos]

/-- The functions `left` and `right` cut texts without loss, and `len` and `contains` see it. -/
theorem texts_cut :
    Answers "left" (cutting "LEFT" left) ∧
      Answers "right" (cutting "RIGHT" right) ∧
      Computes "len" (fun vs => .number (ofNat (length (arg vs 0)))) ∧
      Computes "contains"
        (fun vs => .bool (occursIn (arg vs 1).display.toList (arg vs 0).display.toList)) ∧
      CutsTexts (cutting "LEFT" left) (cutting "RIGHT" right)
        (fun vs => .number (ofNat (length (arg vs 0))))
        (fun vs => .bool (occursIn (arg vs 1).display.toList (arg vs 0).display.toList)) ∧
      ∀ (p : Value) (k : Nat), k ≤ 2 ^ 53 → p.toNumber = ofNat k → IsCount p k := by
  have hleft : ∀ σ : Type, counted "left" left ∈ (standard : List (SheetFunction σ)) := by
    simp [standard, textFunctions]
  have hright : ∀ σ : Type, counted "right" right ∈ (standard : List (SheetFunction σ)) := by
    simp [standard, textFunctions]
  have hlen : ∀ σ : Type, unary "len" (fun a => .number (ofNat (length a))) ∈
      (standard : List (SheetFunction σ)) := by
    simp [standard, textFunctions]
  have hcontains : ∀ σ : Type,
      binary "contains" (fun a b => .bool (occursIn b.display.toList a.display.toList)) ∈
        (standard : List (SheetFunction σ)) := by
    simp [standard, textFunctions]
  exact ⟨answers_cutting hleft (by decide +kernel), answers_cutting hright (by decide +kernel),
    computes_of_mem hlen, computes_of_mem hcontains, cutsTexts, fun _ _ => isCount_of_toNumber⟩

/-- A text and a truth value as counts for code points of different sizes. -/
theorem texts_cut_accented :
    length (.text "éa😀") ≤ countLimit ∧ 2 ≤ length (.text "éa😀") ∧
      (Value.text " 2 ").toNumber = ofNat 2 ∧ (Value.bool true).toNumber = ofNat 1 ∧
      IsCount (.text " 2 ") 2 ∧ IsCount (.bool true) (length (.text "éa😀") - 2) ∧
      ∃ s t, cutting "LEFT" left [.text "éa😀", .text " 2 "] = .ok (.text s) ∧
        cutting "RIGHT" right [.text "éa😀", .bool true] = .ok (.text t) ∧ s ++ t = "éa😀" := by
  obtain ⟨-, -, -, -, hcuts, hcount⟩ := texts_cut
  have hlimit : length (.text "éa😀") ≤ countLimit := by decide +kernel
  have hlength : 2 ≤ length (.text "éa😀") := by decide +kernel
  have htwo : (Value.text " 2 ").toNumber = ofNat 2 := by decide +kernel
  have hone : (Value.bool true).toNumber = ofNat 1 := rfl
  have hp := hcount _ 2 (by decide) htwo
  have hq : IsCount (.bool true) (length (.text "éa😀") - 2) := hcount _ _ (by decide +kernel) hone
  obtain ⟨s, t, hs, ht, happend, -⟩ := hcuts.halves _ _ _ 2 hlimit hlength hp hq
  exact ⟨hlimit, hlength, htwo, hone, hp, hq, s, t, hs, ht, happend⟩

end Library

end SheetFormula
