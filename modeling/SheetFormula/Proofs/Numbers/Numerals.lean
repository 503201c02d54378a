/-
  SheetFormula.Proofs.Numbers.Numerals

  The grammar of decimal numerals,
  `[+-]?([0-9]+(\.[0-9]*)?|\.[0-9]+)([eE][+-]?[0-9]+)?`, with the sign and the
  number that each of them spells (`IsNumeral`).  Main statement: reading takes
  exactly the numerals and gives what they spell (`isNumeral_iff`), though it
  splits a text from the left and never goes back.
-/
import SheetFormula.Proofs.Numbers.Nearest
import SheetFormula.Proofs.Numbers.Plain

namespace SheetFormula

namespace Numeral

/-! ## The grammar -/

/-- Nothing but digits. -/
def IsDigits (ds : List Char) : Prop := ∀ c ∈ ds, c.isDigit = true

/-- `[+-]?`, and whether it is a minus. -/
inductive IsSign : List Char → Bool → Prop
  | absent : IsSign [] false
  | plus : IsSign ['+'] false
  | minus : IsSign ['-'] true

/-- The number that digits around a point spell. -/
def pointValue (whole fraction : List Char) : ℚ :=
  ofDigits whole + ofDigits fraction / 10 ^ fraction.length

/-- `[0-9]+(\.[0-9]*)?|\.[0-9]+`, and the number that it spells. -/
inductive IsMantissa : List Char → ℚ → Prop
  | whole {ds : List Char} (hne : ds ≠ []) (hds : IsDigits ds) : IsMantissa ds (pointValue ds [])
  | pointed {ds es : List Char} (hne : ds ≠ []) (hds : IsDigits ds) (hes : IsDigits es) :
      IsMantissa (ds ++ '.' :: es) (pointValue ds es)
  | fraction {es : List Char} (hne : es ≠ []) (hes : IsDigits es) :
      IsMantissa ('.' :: es) (pointValue [] es)

/-- The power of ten that an exponent's sign and digits spell. -/
def signedPower (negative : Bool) (ds : List Char) : ℤ :=
  if negative then -(ofDigits ds : ℤ) else ofDigits ds

/-- `([eE][+-]?[0-9]+)?`, and the power of ten that it spells. -/
inductive IsExponent : List Char → ℤ → Prop
  | absent : IsExponent [] 0
  | marked {mark : Char} {sign ds : List Char} {negative : Bool} (hmark : mark = 'e' ∨ mark = 'E')
      (hsign : IsSign sign negative) (hne : ds ≠ []) (hds : IsDigits ds) :
      IsExponent (mark :: (sign ++ ds)) (signedPower negative ds)

/-- A decimal numeral, whether it has a minus, and the magnitude that it spells. -/
inductive IsNumeral : List Char → Bool → ℚ → Prop
  | parts {sign mantissa exponent : List Char} {negative : Bool} {q : ℚ} {e : ℤ}
      (hsign : IsSign sign negative) (hmantissa : IsMantissa mantissa q)
      (hexponent : IsExponent exponent e) :
      IsNumeral (sign ++ mantissa ++ exponent) negative (q * 10 ^ e)

/-- The characters that numerals are written with. -/
def isNumeralChar (c : Char) : Bool := c.isDigit || c ∈ ['+', '-', '.', 'e', 'E']

theorem isDigits_toDigits (n : Nat) : IsDigits (Nat.toDigits 10 n) :=
  fun _ hc => Nat.isDigit_of_mem_toDigits (by decide) (by decide) hc

theorem toDigits_ne_nil (n : Nat) : Nat.toDigits 10 n ≠ [] := by
  rw [← List.length_pos_iff]
  exact Nat.length_toDigits_pos

/-! ## First and other characters -/

theorem isNumeralChar_of_isDigit {c : Char} (h : c.isDigit = true) : isNumeralChar c = true := by
  rw [isNumeralChar, h, Bool.true_or]

theorem IsSign.isNumeralChar {cs : List Char} {negative : Bool} (h : IsSign cs negative) :
    ∀ c ∈ cs, isNumeralChar c = true := by
  cases h with
  | absent => simp
  | plus => simp [Numeral.isNumeralChar]
  | minus => simp [Numeral.isNumeralChar]

theorem IsMantissa.isNumeralChar {cs : List Char} {q : ℚ} (h : IsMantissa cs q) :
    ∀ c ∈ cs, isNumeralChar c = true := by
  have hpoint : Numeral.isNumeralChar '.' = true := by decide
  have hdigits {ds : List Char} (hds : IsDigits ds) : ∀ c ∈ ds, Numeral.isNumeralChar c = true :=
    fun c hc => isNumeralChar_of_isDigit (hds c hc)
  cases h with
  | whole hne hds => exact hdigits hds
  | pointed hne hds hes =>
      rw [List.forall_mem_append, List.forall_mem_cons]
      exact ⟨hdigits hds, hpoint, hdigits hes⟩
  | fraction hne hes =>
      rw [List.forall_mem_cons]
      exact ⟨hpoint, hdigits hes⟩

theorem IsExponent.isNumeralChar {cs : List Char} {e : ℤ} (h : IsExponent cs e) :
    ∀ c ∈ cs, isNumeralChar c = true := by
  cases h with
  | absent => simp
  | marked hmark hsign hne hds =>
      rw [List.forall_mem_cons, List.forall_mem_append]
      refine ⟨?_, hsign.isNumeralChar, fun c hc => isNumeralChar_of_isDigit (hds c hc)⟩
      rcases hmark with rfl | rfl <;> decide

theorem IsNumeral.isNumeralChar {cs : List Char} {negative : Bool} {q : ℚ}
    (h : IsNumeral cs negative q) : ∀ c ∈ cs, isNumeralChar c = true := by
  obtain ⟨hsign, hmantissa, hexponent⟩ := h
  rw [List.forall_mem_append, List.forall_mem_append]
  exact ⟨⟨hsign.isNumeralChar, hmantissa.isNumeralChar⟩, hexponent.isNumeralChar⟩

/-- A mantissa begins with a digit or its point. -/
theorem IsMantissa.exists_cons {cs : List Char} {q : ℚ} (h : IsMantissa cs q) :
    ∃ c rest, cs = c :: rest ∧ (c.isDigit = true ∨ c = '.') := by
  cases h with
  | whole hne hds =>
      obtain ⟨c, ds, rfl⟩ := List.exists_cons_of_ne_nil hne
      exact ⟨c, ds, rfl, .inl (hds c List.mem_cons_self)⟩
  | pointed hne hds hes =>
      obtain ⟨c, ds, rfl⟩ := List.exists_cons_of_ne_nil hne
      exact ⟨c, _, rfl, .inl (hds c List.mem_cons_self)⟩
  | fraction hne hes => exact ⟨'.', _, rfl, .inr rfl⟩

/-- So no sign stands behind the sign. -/
theorem IsMantissa.ne_sign {cs rest : List Char} {q : ℚ} (h : IsMantissa cs q) :
    ∀ c ∈ (cs ++ rest).head?, c ≠ '-' ∧ c ≠ '+' := by
  obtain ⟨c, ds, rfl, hc⟩ := h.exists_cons
  rintro c ⟨rfl⟩
  rcases hc with hc | rfl
  · exact ne_sign_of_isDigit hc
  · decide

theorem IsNumeral.ne_nil {cs : List Char} {negative : Bool} {q : ℚ}
    (h : IsNumeral cs negative q) : cs ≠ [] := by
  obtain ⟨hsign, hmantissa, hexponent⟩ := h
  obtain ⟨c, rest, rfl, -⟩ := hmantissa.exists_cons
  simp

theorem IsExponent.head? {cs : List Char} {e : ℤ} (h : IsExponent cs e) :
    ∀ c ∈ cs.head?, c.isDigit = false ∧ c ≠ '.' := by
  cases h with
  | absent => simp
  | marked hmark hsign hne hds =>
      rintro c ⟨rfl⟩
      rcases hmark with rfl | rfl <;> decide

/-! ## Splitting from the left -/

theorem splitSign_append {sign rest : List Char} {negative : Bool} (h : IsSign sign negative)
    (hrest : ∀ c ∈ rest.head?, c ≠ '-' ∧ c ≠ '+') : splitSign (sign ++ rest) = (negative, rest) := by
  cases h with
  | absent =>
      cases rest with
      | nil => rfl
      | cons c rest =>
          obtain ⟨hminus, hplus⟩ := hrest c rfl
          exact splitSign_cons rest hminus hplus
  | plus => rfl
  | minus => rfl

theorem exists_isSign (cs : List Char) :
    ∃ sign, IsSign sign (splitSign cs).1 ∧ cs = sign ++ (splitSign cs).2 := by
  unfold splitSign
  split
  · exact ⟨['-'], .minus, rfl⟩
  · exact ⟨['+'], .plus, rfl⟩
  · exact ⟨[], .absent, rfl⟩

theorem splitFraction_of_head? {cs : List Char} (h : ∀ c ∈ cs.head?, c ≠ '.') :
    splitFraction cs = ([], cs) := by
  unfold splitFraction
  split
  · exact absurd rfl (h '.' rfl)
  · rfl

theorem isDigits_splitDigits (cs : List Char) :
    IsDigits (splitDigits cs).1 ∧ cs = (splitDigits cs).1 ++ (splitDigits cs).2 :=
  ⟨fun _ hc => List.mem_takeWhile_imp hc, List.takeWhile_append_dropWhile.symm⟩

theorem pointValue_eq (whole fraction : List Char) :
    pointValue whole fraction = ofDigits (whole ++ fraction) * 10 ^ (-(fraction.length : ℤ)) := by
  have hdigits : ofDigits (whole ++ fraction) =
      10 ^ fraction.length * ofDigits whole + ofDigits fraction := by
    rw [ofDigits, Nat.ofDigitChars_append, Nat.ofDigitChars_eq_ofDigitChars_zero]
    rfl
  have hpow : (10 : ℚ) ^ fraction.length ≠ 0 := by positivity
  rw [hdigits, pointValue, zpow_neg, zpow_natCast]
  push_cast
  field_simp

/-- The longest digits come off a mantissa, and behind them its fraction. -/
theorem IsMantissa.split {mantissa rest : List Char} {q : ℚ} (h : IsMantissa mantissa q)
    (hrest : ∀ c ∈ rest.head?, c.isDigit = false ∧ c ≠ '.') :
    ∃ whole fraction middle, splitDigits (mantissa ++ rest) = (whole, middle) ∧
      splitFraction middle = (fraction, rest) ∧ ¬ (whole = [] ∧ fraction = []) ∧
      q = pointValue whole fraction := by
  have hstop : ∀ c ∈ rest.head?, c.isDigit = false := fun c hc => (hrest c hc).1
  have hpoint {es : List Char} : ∀ c ∈ ('.' :: es).head?, c.isDigit = false := by
    rintro c ⟨rfl⟩
    rfl
  cases h with
  | whole hne hds =>
      exact ⟨mantissa, [], rest, splitDigits_append hds hstop,
        splitFraction_of_head? fun c hc => (hrest c hc).2, fun hnil => hne hnil.1, rfl⟩
  | @pointed ds es hne hds hes =>
      refine ⟨ds, es, '.' :: (es ++ rest), ?_, splitDigits_append hes hstop,
        fun hnil => hne hnil.1, rfl⟩
      rw [List.append_assoc]
      exact splitDigits_append hds hpoint
  | @fraction es hne hes =>
      exact ⟨[], es, '.' :: (es ++ rest), @splitDigits_append [] _ (by simp) hpoint,
        splitDigits_append hes hstop, fun hnil => hne hnil.2, rfl⟩

/-- What comes off a text in this way is a mantissa, if there is a digit in it. -/
theorem exists_isMantissa {cs whole fraction middle rest : List Char}
    (hwhole : splitDigits cs = (whole, middle)) (hfraction : splitFraction middle = (fraction, rest))
    (hne : ¬ (whole = [] ∧ fraction = [])) :
    ∃ mantissa, IsMantissa mantissa (pointValue whole fraction) ∧ cs = mantissa ++ rest := by
  obtain ⟨hds, hcs⟩ := isDigits_splitDigits cs
  rw [hwhole] at hds hcs
  unfold splitFraction at hfraction
  split at hfraction
  · next es =>
    obtain ⟨hes, hsplit⟩ := isDigits_splitDigits es
    rw [hfraction] at hes hsplit
    by_cases hnil : whole = []
    · subst hnil
      refine ⟨'.' :: fraction, .fraction (fun h => hne ⟨rfl, h⟩) hes, ?_⟩
      rw [hcs, hsplit]
      rfl
    · refine ⟨whole ++ '.' :: fraction, .pointed hnil hds hes, ?_⟩
      rw [hcs, hsplit, List.append_assoc]
      rfl
  · cases hfraction
    exact ⟨whole, .whole (fun h => hne ⟨h, rfl⟩) hds, hcs⟩

/-! ## Exponents -/

theorem exponentDigits?_eq_some_iff {cs : List Char} {e : ℤ} :
    exponentDigits? cs = some e ↔ ∃ sign ds negative, IsSign sign negative ∧ ds ≠ [] ∧
      IsDigits ds ∧ cs = sign ++ ds ∧ e = signedPower negative ds := by
  simp only [exponentDigits?, List.all_eq_true]
  constructor
  · intro h
    split at h
    · next hdigits =>
      obtain ⟨sign, hsign, hcs⟩ := exists_isSign cs
      exact ⟨sign, _, _, hsign, hdigits.1, hdigits.2, hcs, (Option.some.inj h).symm⟩
    · cases h
  · rintro ⟨sign, ds, negative, hsign, hne, hds, rfl, rfl⟩
    have hhead : ∀ c ∈ ds.head?, c ≠ '-' ∧ c ≠ '+' :=
      fun c hc => ne_sign_of_isDigit (hds c (List.mem_of_mem_head? hc))
    rw [splitSign_append hsign hhead, if_pos ⟨hne, hds⟩]
    rfl

theorem exponent?_eq_some_iff {cs : List Char} {e : ℤ} :
    exponent? cs = some e ↔ IsExponent cs e := by
  constructor
  · intro h
    cases cs with
    | nil =>
        cases h
        exact .absent
    | cons c cs =>
        rw [exponent?] at h
        split at h
        · next hmark =>
          obtain ⟨sign, ds, negative, hsign, hne, hds, rfl, rfl⟩ :=
            exponentDigits?_eq_some_iff.mp h
          exact .marked hmark hsign hne hds
        · cases h
  · intro h
    cases h with
    | absent => rfl
    | marked hmark hsign hne hds =>
        rw [exponent?, if_pos hmark]
        exact exponentDigits?_eq_some_iff.mpr ⟨_, _, _, hsign, hne, hds, rfl, rfl⟩

/-! ## Reading -/

/-- A point `places` digits further left is a power of ten less. -/
theorem value_shift (negative : Bool) (n : Nat) (e : ℤ) (places : Nat) :
    (⟨negative, n, e - places⟩ : Decimal).value = n * 10 ^ (-(places : ℤ)) * 10 ^ e := by
  rw [Decimal.value, mul_assoc, ← zpow_add₀ (by norm_num), neg_add_eq_sub]

theorem decimal?_of_isNumeral {cs : List Char} {negative : Bool} {q : ℚ}
    (h : IsNumeral cs negative q) :
    ∃ d, decimal? cs = some d ∧ d.negative = negative ∧ d.value = q := by
  obtain ⟨hsign, hmantissa, hexponent⟩ := h
  obtain ⟨whole, fraction, middle, hwhole, hfraction, hne, rfl⟩ :=
    hmantissa.split hexponent.head?
  rw [List.append_assoc, decimal?, splitSign_append hsign hmantissa.ne_sign]
  simp only [hwhole, hfraction, if_neg hne, exponent?_eq_some_iff.mpr hexponent, Option.map_some]
  refine ⟨_, rfl, rfl, ?_⟩
  rw [value_shift, pointValue_eq]

theorem isNumeral_of_decimal? {cs : List Char} {d : Decimal} (h : decimal? cs = some d) :
    IsNumeral cs d.negative d.value := by
  obtain ⟨sign, hsign, hcs⟩ := exists_isSign cs
  rcases hwhole : splitDigits (splitSign cs).2 with ⟨whole, middle⟩
  rcases hfraction : splitFraction middle with ⟨fraction, rest⟩
  simp only [decimal?, hwhole, hfraction] at h
  split at h
  · cases h
  · next hne =>
    obtain ⟨e, he, rfl⟩ := Option.map_eq_some_iff.mp h
    obtain ⟨mantissa, hmantissa, hrest⟩ := exists_isMantissa hwhole hfraction hne
    have hnumeral := IsNumeral.parts hsign hmantissa (exponent?_eq_some_iff.mp he)
    rw [List.append_assoc, ← hrest, ← hcs, pointValue_eq, ← value_shift] at hnumeral
    exact hnumeral

/-- Reading takes exactly the numerals, and gives the sign and the magnitude that they spell. -/
theorem isNumeral_iff {cs : List Char} {negative : Bool} {q : ℚ} :
    IsNumeral cs negative q ↔ ∃ d, decimal? cs = some d ∧ d.negative = negative ∧ d.value = q := by
  constructor
  · exact decimal?_of_isNumeral
  · rintro ⟨d, hd, rfl, rfl⟩
    exact isNumeral_of_decimal? hd

/-- A numeral spells one number. -/
theorem IsNumeral.unique {cs : List Char} {negative negative' : Bool} {q q' : ℚ}
    (h : IsNumeral cs negative q) (h' : IsNumeral cs negative' q') :
    negative = negative' ∧ q = q' := by
  obtain ⟨d, hd, rfl, rfl⟩ := isNumeral_iff.mp h
  obtain ⟨d', hd', rfl, rfl⟩ := isNumeral_iff.mp h'
  obtain rfl := Option.some.inj (hd.symm.trans hd')
  exact ⟨rfl, rfl⟩

end Numeral

end SheetFormula
