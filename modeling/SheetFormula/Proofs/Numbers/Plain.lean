/-
  SheetFormula.Proofs.Numbers.Plain

  Digits around a point are read as the number that they spell, with or
  without a sign before them.  Main statement: a finite double is read back
  from its shortest decimal (`literal?_shortest`).
-/
import SheetFormula.Decimal.Numeral
import SheetFormula.Decimal.Positional
import SheetFormula.Proofs.Numbers.Shortest
import SheetFormula.Proofs.Texts.Ascii

namespace SheetFormula

/-! ## Digits around a point -/

/-- Digits on both sides of the point, and at least one before it. -/
structure Positional.IsPlain (p : Positional) : Prop where
  whole_ne_nil : p.whole ≠ []
  whole_digit : ∀ c ∈ p.whole, c.isDigit = true
  fraction_digit : ∀ c ∈ p.fraction, c.isDigit = true

theorem Positional.IsPlain.exists_cons {p : Positional} (h : p.IsPlain) :
    ∃ c cs, p.whole = c :: cs ∧ c.isDigit = true := by
  obtain ⟨c, cs, hcons⟩ := List.exists_cons_of_ne_nil h.whole_ne_nil
  exact ⟨c, cs, hcons, h.whole_digit c (by simp [hcons])⟩

namespace Decimal

theorem digit_of_mem_padded {d : Decimal} {places : Nat} {c : Char}
    (h : c ∈ List.replicate places '0' ++ d.digits ++ List.replicate d.exponent.toNat '0') :
    c.isDigit = true := by
  simp only [List.mem_append, List.mem_replicate] at h
  rcases h with (⟨_, rfl⟩ | h) | ⟨_, rfl⟩
  · rfl
  · exact Nat.isDigit_of_mem_toDigits (by decide) (by decide) h
  · rfl

theorem isPlain_positional (d : Decimal) : d.positional.IsPlain where
  whole_ne_nil := by
    rw [← List.length_pos_iff]
    simp only [positional, List.length_take, List.length_append, List.length_replicate]
    omega
  whole_digit := fun _ h => digit_of_mem_padded (List.mem_of_mem_take h)
  fraction_digit := fun _ h => digit_of_mem_padded (List.mem_of_mem_drop h)

/-- The fraction has one digit for each negative power of ten. -/
theorem length_fraction_positional (d : Decimal) :
    d.positional.fraction.length = (-d.exponent).toNat := by
  simp only [positional, List.length_drop, List.length_append, List.length_replicate]
  omega

theorem ofDigits_positional (d : Decimal) :
    Numeral.ofDigits (d.positional.whole ++ d.positional.fraction)
      = d.significand * 10 ^ d.exponent.toNat := by
  simp only [positional, List.take_append_drop, Numeral.ofDigits, Nat.ofDigitChars_append,
    Nat.ofDigitChars_replicate_zero, Nat.mul_zero, digits, Nat.ofDigitChars_ten_toDigits]
  exact Nat.mul_comm ..

end Decimal

/-! ## Reading digits around a point -/

namespace Numeral

theorem splitDigits_append {ds rest : List Char} (hds : ∀ c ∈ ds, c.isDigit = true)
    (hrest : ∀ c ∈ rest.head?, c.isDigit = false) : splitDigits (ds ++ rest) = (ds, rest) := by
  obtain ⟨htake, hdrop⟩ := Text.takeWhile_append_stop hds hrest
  rw [splitDigits, htake, hdrop]

theorem ne_sign_of_isDigit {c : Char} (h : c.isDigit = true) : c ≠ '-' ∧ c ≠ '+' := by
  constructor
  · rintro rfl
    cases h
  · rintro rfl
    cases h

theorem splitSign_cons {c : Char} (cs : List Char) (hminus : c ≠ '-') (hplus : c ≠ '+') :
    splitSign (c :: cs) = (false, c :: cs) := by
  unfold splitSign
  split
  · next heq => exact absurd (List.cons.inj heq).1 hminus
  · next heq => exact absurd (List.cons.inj heq).1 hplus
  · rfl

theorem splitSign_signText (negative : Bool) {c : Char} (cs : List Char) (h : c.isDigit = true) :
    splitSign (signText negative ++ c :: cs) = (negative, c :: cs) := by
  cases negative with
  | true => rfl
  | false =>
      obtain ⟨hminus, hplus⟩ := ne_sign_of_isDigit h
      exact splitSign_cons cs hminus hplus

theorem splitFraction_fractionText {ds : List Char} (h : ∀ c ∈ ds, c.isDigit = true) :
    splitFraction (fractionText ds) = (ds, []) := by
  cases ds with
  | nil => rfl
  | cons c cs =>
      have hsplit := @splitDigits_append (c :: cs) [] h (by simp)
      rw [List.append_nil] at hsplit
      exact hsplit

theorem decimal?_text {p : Positional} (h : p.IsPlain) :
    decimal? p.text
      = some ⟨p.negative, ofDigits (p.whole ++ p.fraction), -(p.fraction.length : Int)⟩ := by
  obtain ⟨c, cs, hcons, hc⟩ := h.exists_cons
  -- The whole part ends at the point or at the end of the text.
  have hpoint : ∀ c ∈ (fractionText p.fraction).head?, c.isDigit = false := by
    cases p.fraction with
    | nil => simp [fractionText]
    | cons c cs => simp [fractionText]
  have hsign : splitSign p.text = (p.negative, p.whole ++ fractionText p.fraction) := by
    rw [Positional.text, hcons, List.append_assoc, List.cons_append]
    exact splitSign_signText _ _ hc
  have hwhole := splitDigits_append h.whole_digit hpoint
  have hfraction := splitFraction_fractionText h.fraction_digit
  simp [decimal?, hsign, hwhole, hfraction, h.whole_ne_nil, exponent?]

theorem toLower_of_isDigit {c : Char} (h : c.isDigit = true) : c.toLower = c := by
  refine Text.toLower_of_isUpper_eq_false ?_
  rw [← Bool.not_eq_true, Text.isUpper_iff_toNat]
  have := Text.toNat_of_isDigit h
  omega

/-- A name begins, behind its sign, with the first letter of one of the names. -/
theorem named?_of_splitSign {cs rest : List Char} {negative : Bool} {c : Char}
    (hsign : splitSign cs = (negative, c :: rest)) (hi : c.toLower ≠ 'i') (hn : c.toLower ≠ 'n') :
    named? cs = none := by
  have hne {s : String} (hs : s.toList.head? ≠ some c.toLower) :
      String.ofList (c.toLower :: rest.map Char.toLower) ≠ s := by
    rintro rfl
    simp at hs
  have hinf := hne (s := "inf") (by simpa using hi.symm)
  have hinfinity := hne (s := "infinity") (by simpa using hi.symm)
  have hnan := hne (s := "nan") (by simpa using hn.symm)
  simp only [named?, hsign, List.map_cons, hinf, hinfinity, hnan, or_self, if_false]

theorem toLower_ne_of_isDigit {c d : Char} (h : c.isDigit = true) (hd : d.isDigit = false) :
    c.toLower ≠ d := by
  rw [toLower_of_isDigit h]
  rintro rfl
  rw [h] at hd
  cases hd

/-- Digits are no name. -/
theorem named?_text {p : Positional} (h : p.IsPlain) : named? p.text = none := by
  obtain ⟨c, cs, hcons, hc⟩ := h.exists_cons
  have hsign : splitSign p.text = (p.negative, c :: (cs ++ fractionText p.fraction)) := by
    rw [Positional.text, hcons, List.append_assoc, List.cons_append]
    exact splitSign_signText _ _ hc
  exact named?_of_splitSign hsign (toLower_ne_of_isDigit hc (by decide))
    (toLower_ne_of_isDigit hc (by decide))

/-- A decimal is read back from its digits around a point. -/
theorem literal?_positional (d : Decimal) : literal? d.positional.text = some d.toFloat := by
  have hplain := d.isPlain_positional
  -- A positive exponent has been written out as zeros.
  have hword : (⟨d.negative, d.significand * 10 ^ d.exponent.toNat,
      -((-d.exponent).toNat : Int)⟩ : Decimal).word = d.word := by
    rw [Decimal.word_mul_pow _ d.negative]
    congr 2
    omega
  have hsign : d.positional.negative = d.negative := rfl
  rw [literal?, named?_text hplain, double?, decimal?_text hplain, d.ofDigits_positional,
    d.length_fraction_positional, hsign]
  simp only [Option.map_some, Decimal.toFloat, hword]
  rfl

/-- A finite double is read back from its shortest decimal. -/
theorem literal?_shortest {x : Float} (h : Binary64.magnitudeWord x < Binary64.infinityWord) :
    literal? (Decimal.shortest x).positional.text = some x := by
  rw [literal?_positional, Decimal.toFloat_shortest h]

end Numeral

end SheetFormula
