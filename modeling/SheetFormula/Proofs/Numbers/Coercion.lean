/-
  SheetFormula.Proofs.Numbers.Coercion

  What a text counts for as a number.  White space around it does not matter;
  nothing at all is zero, three names are infinities, a decimal numeral is
  rounded to the nearest double, and every other text is "not a number"
  (`CountsFor`).  Number literals have more names, but a text with a foreign
  letter is refused before it is read, and all those names have one.
-/
import SheetFormula.Proofs.Numbers.Numerals
import SheetFormula.Value

namespace SheetFormula

/-! ## White space at the ends -/

namespace Text

/-- White space around a text that begins and ends with other characters is all that is taken. -/
theorem trim_append {l cs r : List Char} (hl : isAllBlank l = true) (hr : isAllBlank r = true)
    (hfirst : ∀ c ∈ cs.head?, isBlank c = false) (hlast : ∀ c ∈ cs.getLast?, isBlank c = false)
    (hne : cs ≠ []) : trim (l ++ cs ++ r) = cs := by
  have hl' : ∀ c ∈ l, isBlank c = true := List.all_eq_true.mp hl
  have hr' : ∀ c ∈ r.reverse, isBlank c = true :=
    fun c hc => List.all_eq_true.mp hr c (List.mem_reverse.mp hc)
  have hhead : ∀ c ∈ (cs ++ r).head?, isBlank c = false := by
    rw [List.head?_append_of_ne_nil _ hne]
    exact hfirst
  have hfoot : ∀ c ∈ cs.reverse.head?, isBlank c = false := by
    rw [List.head?_reverse]
    exact hlast
  have hfront := (takeWhile_append_stop hl' hhead).2
  have hback := (takeWhile_append_stop hr' hfoot).2
  rw [trim, List.append_assoc, hfront, List.reverse_append, hback, List.reverse_reverse]

end Text

namespace Value

open Numeral

/-! ## Foreign letters -/

theorem isForeignLetter_capital : ∀ k < 26, (Char.ofNat (65 + k)).toLower = 'n' →
    isForeignLetter (Char.ofNat (65 + k)) = true := by
  decide +kernel

theorem isForeignLetter_of_toLower {c : Char} (h : c.toLower = 'n') : isForeignLetter c = true := by
  cases hupper : c.isUpper with
  | true =>
      obtain ⟨k, hk, rfl⟩ := Text.exists_of_isUpper hupper
      exact isForeignLetter_capital k hk h
  | false =>
      rw [Text.toLower_of_isUpper_eq_false hupper] at h
      rw [h]
      rfl

/-- Each name of a double has an `n`, and so a letter that is foreign to numerals. -/
theorem named?_eq_none {cs : List Char} (h : ∀ c ∈ cs, isForeignLetter c = false) :
    named? cs = none := by
  obtain ⟨sign, -, hcs⟩ := exists_isSign cs
  have hno : 'n' ∉ (splitSign cs).2.map Char.toLower := by
    intro hmem
    obtain ⟨c, hc, hlower⟩ := List.mem_map.mp hmem
    have hforeign := h c (by rw [hcs]; exact List.mem_append_right _ hc)
    rw [isForeignLetter_of_toLower hlower] at hforeign
    cases hforeign
  have hname (name : String) (hn : 'n' ∈ name.toList) :
      String.ofList ((splitSign cs).2.map Char.toLower) ≠ name := by
    rintro rfl
    rw [String.toList_ofList] at hn
    exact hno hn
  have hinf := hname "inf" (by decide)
  have hinfinity := hname "infinity" (by decide)
  have hnan := hname "nan" (by decide)
  simp only [named?, hinf, hinfinity, hnan, or_self, if_false]

theorem isForeignLetter_of_isNumeralChar {c : Char} (h : isNumeralChar c = true) :
    isForeignLetter c = false := by
  rw [isNumeralChar, Bool.or_eq_true, decide_eq_true_eq] at h
  rcases h with hdigit | hmem
  · have halpha : c.isAlpha = false := by
      rw [← Bool.not_eq_true]
      intro halpha
      rw [Text.isDigit_of_isAlpha halpha] at hdigit
      cases hdigit
    rw [isForeignLetter, halpha, Bool.false_and, Bool.false_and]
  · simp only [List.mem_cons, List.not_mem_nil, or_false] at hmem
    rcases hmem with rfl | rfl | rfl | rfl | rfl <;> rfl

theorem isBlank_of_isNumeralChar {c : Char} (h : isNumeralChar c = true) :
    Text.isBlank c = false := by
  rw [isNumeralChar, Bool.or_eq_true, decide_eq_true_eq] at h
  rcases h with hdigit | hmem
  · exact Text.isBlank_of_isDigit hdigit
  · simp only [List.mem_cons, List.not_mem_nil, or_false] at hmem
    rcases hmem with rfl | rfl | rfl | rfl | rfl <;> decide

/-! ## Texts as numbers -/

/-- The names of the infinities. -/
def infinityNames : List (List Char) :=
  ["Infinity".toList, "+Infinity".toList, "-Infinity".toList]

/-- The number for a text without white space at its ends. -/
structure CountsFor (t : List Char) (x : Float) : Prop where
  empty : t = [] → x = Binary64.ofNat 0
  infinity : t = "Infinity".toList ∨ t = "+Infinity".toList → x = Binary64.infinity false
  negInfinity : t = "-Infinity".toList → x = Binary64.infinity true
  numeral : ∀ negative q, IsNumeral t negative q →
    ∃ word, x = Binary64.ofWord negative word ∧ Binary64.IsNearest q word
  other : t ≠ [] → t ∉ infinityNames → (∀ negative q, ¬ IsNumeral t negative q) → x.isNaN = true
  /-- Whatever is written with other characters is one of the others, such as other spellings of the
      names, groups of digits, and digits of other scripts. -/
  stray : ∀ c ∈ t, isNumeralChar c = false → t ∉ infinityNames → x.isNaN = true

theorem isNaN_nan : Binary64.nan.isNaN = true := by decide +kernel

/-- Of the texts without a name numerals are read, and no others. -/
theorem numberOfText_of_unnamed {cs : List Char} (hne : Text.trim cs ≠ [])
    (hname : Text.trim cs ∉ infinityNames) :
    numberOfText cs = ((decimal? (Text.trim cs)).map Decimal.toFloat).getD Binary64.nan := by
  simp only [infinityNames, List.mem_cons, List.not_mem_nil, or_false, not_or] at hname
  obtain ⟨hinf, hplus, hminus⟩ := hname
  have hinfs : ¬ (Text.trim cs = "Infinity".toList ∨ Text.trim cs = "+Infinity".toList) := by
    rintro (h | h)
    · exact hinf h
    · exact hplus h
  rw [numberOfText]
  split
  · next hnil => exact absurd hnil hne
  · rw [if_neg hinfs, if_neg hminus]
    split
    · next hforeign =>
      obtain ⟨c, hc, hletter⟩ := List.any_eq_true.mp hforeign
      cases hd : decimal? (Text.trim cs) with
      | none => rfl
      | some d =>
          have hchar := (isNumeral_of_decimal? hd).isNumeralChar c hc
          rw [isForeignLetter_of_isNumeralChar hchar] at hletter
          cases hletter
    · next hforeign =>
      have hnone := named?_eq_none fun c hc => by
        rw [← Bool.not_eq_true]
        exact fun hletter => hforeign (List.any_eq_true.mpr ⟨c, hc, hletter⟩)
      rw [literal?, hnone]
      rfl

/-- The names of the infinities have letters that numerals have not. -/
theorem not_mem_infinityNames {cs : List Char} (h : ∀ c ∈ cs, isNumeralChar c = true) :
    cs ∉ infinityNames := by
  intro hmem
  have hy : 'y' ∈ cs := by
    simp only [infinityNames, List.mem_cons, List.not_mem_nil, or_false] at hmem
    rcases hmem with rfl | rfl | rfl <;> decide
  exact absurd (h 'y' hy) (by decide)

/-- A numeral counts for the double nearest to what it spells. -/
theorem numberOfText_of_isNumeral {cs : List Char} {negative : Bool} {q : ℚ}
    (h : IsNumeral (Text.trim cs) negative q) :
    ∃ word, numberOfText cs = Binary64.ofWord negative word ∧ Binary64.IsNearest q word := by
  have hname := not_mem_infinityNames h.isNumeralChar
  obtain ⟨d, hd, rfl, rfl⟩ := isNumeral_iff.mp h
  refine ⟨d.word, ?_, d.isNearest_word⟩
  rw [numberOfText_of_unnamed h.ne_nil hname, hd]
  rfl

theorem isNaN_numberOfText {cs : List Char} (hne : Text.trim cs ≠ [])
    (hname : Text.trim cs ∉ infinityNames)
    (hnumeral : ∀ negative q, ¬ IsNumeral (Text.trim cs) negative q) :
    (numberOfText cs).isNaN = true := by
  rw [numberOfText_of_unnamed hne hname]
  cases hd : decimal? (Text.trim cs) with
  | none => exact isNaN_nan
  | some d => exact absurd (isNumeral_of_decimal? hd) (hnumeral _ _)

/-- What a text counts for is settled by what is left of it without white space at its ends. -/
theorem countsFor_toNumber (s : String) : CountsFor (Text.trim s.toList) (text s).toNumber where
  empty hnil := by
    rw [toNumber, numberOfText, hnil]
  infinity hname := by
    rw [toNumber, numberOfText]
    rcases hname with hname | hname
    · rw [hname]
      rfl
    · rw [hname]
      rfl
  negInfinity hname := by
    rw [toNumber, numberOfText, hname]
    rfl
  numeral _ _ hnumeral := numberOfText_of_isNumeral hnumeral
  other := isNaN_numberOfText
  stray c hc hchar hname := by
    refine isNaN_numberOfText (List.ne_nil_of_mem hc) hname fun negative q hnumeral => ?_
    rw [hnumeral.isNumeralChar c hc] at hchar
    cases hchar

example : (text "\u2003-.5E+0\n").toNumber = -0.5 ∧ (text "1_000").toNumber.isNaN = true := by
  decide +kernel

end Value

end SheetFormula
