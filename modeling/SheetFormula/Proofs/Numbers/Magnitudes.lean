/-
  SheetFormula.Proofs.Numbers.Magnitudes

  Number tokens carry no sign.  The double with a magnitude and no sign is at
  least zero and a number, an infinity included (`isMagnitude_ofWord`), and
  digits around a point are read as such a double, also where too many of them
  exceed every finite one (`isMagnitude_of_literal?`).
-/
import SheetFormula.Proofs.Numbers.Order
import SheetFormula.Proofs.Numbers.Plain

namespace SheetFormula

namespace Binary64

/-- A number that is at least zero. -/
structure IsMagnitude (x : Float) : Prop where
  isNaN_eq_false : x.isNaN = false
  zero_le : ofNat 0 ≤ x

theorem isMagnitude_ofWord {word : Nat} (h : word ≤ infinityWord) :
    IsMagnitude (ofWord false word) where
  isNaN_eq_false := by
    rw [isNaN_eq, magnitudeWord_ofWord h]
    exact decide_eq_false (Nat.not_lt.mpr h)
  zero_le := by
    rw [ofNat, ofRatio, nearestWord_zero Nat.one_pos, le_ofWord_iff (Nat.zero_le _) h]
    exact Nat.zero_le word

end Binary64

/-! ## Number tokens -/

theorem Decimal.isMagnitude_toFloat {d : Decimal} (h : d.negative = false) :
    Binary64.IsMagnitude d.toFloat := by
  rw [toFloat, h]
  exact Binary64.isMagnitude_ofWord d.isNearest_word.le

namespace Numeral

theorem negative_of_decimal? {c : Char} {cs : List Char} {d : Decimal} (hminus : c ≠ '-')
    (hplus : c ≠ '+') (h : decimal? (c :: cs) = some d) : d.negative = false := by
  simp only [decimal?, splitSign_cons cs hminus hplus] at h
  split at h
  · cases h
  · obtain ⟨e, _, rfl⟩ := Option.map_eq_some_iff.mp h
    rfl

/-- What begins with a digit or a point is read as a number that is at least zero. -/
theorem isMagnitude_of_literal? {c : Char} {cs : List Char} {x : Float}
    (hc : c.isDigit = true ∨ c = '.') (h : literal? (c :: cs) = some x) :
    Binary64.IsMagnitude x := by
  have hsigns : c ≠ '-' ∧ c ≠ '+' := by
    rcases hc with hc | rfl
    · exact ne_sign_of_isDigit hc
    · decide
  have hnames : c.toLower ≠ 'i' ∧ c.toLower ≠ 'n' := by
    rcases hc with hc | rfl
    · exact ⟨toLower_ne_of_isDigit hc (by decide), toLower_ne_of_isDigit hc (by decide)⟩
    · decide
  rw [literal?, named?_of_splitSign (splitSign_cons cs hsigns.1 hsigns.2) hnames.1 hnames.2] at h
  obtain ⟨d, hd, rfl⟩ := Option.map_eq_some_iff.mp h
  exact Decimal.isMagnitude_toFloat (negative_of_decimal? hsigns.1 hsigns.2 hd)

end Numeral

end SheetFormula
