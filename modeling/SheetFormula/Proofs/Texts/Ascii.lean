/-
  SheetFormula.Proofs.Texts.Ascii

  Small letters below the letters with marks.  The tables of letter case have
  nothing to say there but that capital letters become small ones
  (`lower_of_ascii`), so a text without capitals stays as it is
  (`lower_eq_self`).
-/
import SheetFormula.Proofs.Tokens.Characters
import SheetFormula.Text.Case

namespace SheetFormula.Text

/-! ## Single characters -/

theorem bounds_of_mem_lowerRuns : ∀ run ∈ lowerRuns,
    65 ≤ run.first ∧ run.last ≤ 90 ∨ 128 ≤ run.first := by
  decide +kernel

/-- The small form of no other letter than the dotted capital I has several characters. -/
theorem lookup_lowerExpansions {n : Nat} (h : n ≠ 0x130) : lowerExpansions.lookup n = none := by
  refine List.lookup_eq_none_iff.mpr fun p hp => ?_
  rw [lowerExpansions, List.mem_singleton] at hp
  subst hp
  exact bne_iff_ne.mpr h

/-- Below the letters with marks only capital letters have another small form. -/
theorem caseImage_of_lt {n : Nat} (hlt : n < 128) (hcapital : ¬ (65 ≤ n ∧ n ≤ 90)) :
    caseImage lowerExpansions lowerRuns n = [n] := by
  have hlookup : lowerExpansions.lookup n = none := lookup_lowerExpansions (by omega)
  have hruns : lowerRuns.findSome? (·.image? n) = none := by
    refine List.findSome?_eq_none_iff.mpr fun run hrun => ?_
    have hbounds := bounds_of_mem_lowerRuns run hrun
    rw [CaseRun.image?, if_neg]
    omega
  simp only [caseImage, hlookup, hruns, Option.getD_none]

theorem lowerChar_capital : ∀ k < 26,
    lowerChar (Char.ofNat (65 + k)) = [(Char.ofNat (65 + k)).toLower] ∧
      (Char.ofNat (65 + k)).toLower.isLower = true := by
  decide +kernel

theorem isUpper_iff_toNat {c : Char} : c.isUpper = true ↔ 65 ≤ c.toNat ∧ c.toNat ≤ 90 := by
  have hbounds : c.isUpper = decide (65 ≤ c.val ∧ c.val ≤ 90) := rfl
  rw [hbounds, decide_eq_true_eq, UInt32.le_iff_toNat_le, UInt32.le_iff_toNat_le]
  rfl

theorem exists_of_isUpper {c : Char} (h : c.isUpper = true) :
    ∃ k < 26, c = Char.ofNat (65 + k) := by
  obtain ⟨hlow, hhigh⟩ := isUpper_iff_toNat.mp h
  refine ⟨c.toNat - 65, by omega, ?_⟩
  rw [Nat.add_sub_cancel' hlow, Char.ofNat_toNat]

theorem toLower_of_isUpper_eq_false {c : Char} (h : c.isUpper = false) : c.toLower = c := by
  have hval : ¬ (c.val ≥ 'A'.val ∧ c.val ≤ 'Z'.val) := of_decide_eq_false h
  exact dif_neg hval

theorem lowerChar_of_ascii {c : Char} (h : c.toNat < 128) : lowerChar c = [c.toLower] := by
  cases hupper : c.isUpper with
  | true =>
      obtain ⟨k, hk, rfl⟩ := exists_of_isUpper hupper
      exact (lowerChar_capital k hk).1
  | false =>
      have hcapital : ¬ (65 ≤ c.toNat ∧ c.toNat ≤ 90) := by simp [← isUpper_iff_toNat, hupper]
      rw [lowerChar, caseImage_of_lt h hcapital, toLower_of_isUpper_eq_false hupper,
        List.map_singleton, Char.ofNat_toNat]

theorem isLower_toLower {c : Char} (h : c.isAlpha = true) : c.toLower.isLower = true := by
  cases hupper : c.isUpper with
  | true =>
      obtain ⟨k, hk, rfl⟩ := exists_of_isUpper hupper
      exact (lowerChar_capital k hk).2
  | false =>
      rw [toLower_of_isUpper_eq_false hupper]
      exact (Bool.or_eq_true_iff.mp h).resolve_left (by simp [hupper])

/-! ## Texts -/

theorem lowerAfter_of_ascii (before : List Char) {cs : List Char} (h : ∀ c ∈ cs, c.toNat < 128) :
    lowerAfter before cs = cs.map Char.toLower := by
  induction cs generalizing before with
  | nil => rfl
  | cons c cs ih =>
      have hlt : c.toNat < 128 := h c List.mem_cons_self
      have hsigma : c ≠ 'Σ' := by
        rintro rfl
        exact absurd hlt (by decide)
      rw [lowerAfter, if_neg hsigma, lowerChar_of_ascii hlt,
        ih _ fun d hd => h d (List.mem_cons_of_mem c hd)]
      rfl

/-- Letter by letter the capitals become small. -/
theorem lower_of_ascii {s : String} (h : ∀ c ∈ s.toList, c.toNat < 128) :
    lower s = String.ofList (s.toList.map Char.toLower) := by
  rw [lower, lowerAfter_of_ascii [] h]

/-- A text without capitals is in small letters already. -/
theorem lower_eq_self {s : String} (h : ∀ c ∈ s.toList, c.toNat < 128 ∧ c.isUpper = false) :
    lower s = s := by
  have hsame : s.toList.map Char.toLower = s.toList.map id :=
    List.map_congr_left fun c hc => toLower_of_isUpper_eq_false (h c hc).2
  rw [lower_of_ascii fun c hc => (h c hc).1, hsame, List.map_id, String.ofList_toList]

/-- Small letters, digits and underscores stay as they are. -/
theorem lower_of_smallChars {s : String}
    (h : ∀ c ∈ s.toList, (c.isLower || c.isDigit || c == '_') = true) : lower s = s := by
  refine lower_eq_self fun c hc => ?_
  have hsmall := h c hc
  rw [← Bool.not_eq_true, isUpper_iff_toNat]
  simp only [Bool.or_eq_true, beq_iff_eq] at hsmall
  rcases hsmall with (hlower | hdigit) | rfl
  · have := toNat_of_isLower hlower
    omega
  · have := toNat_of_isDigit hdigit
    omega
  · decide

end SheetFormula.Text
