/-
  SheetFormula.Proofs.Tokens.Refusals

  Where a formula has no tokens.  The cut comes to a character with which
  nothing begins (`Lexeme.BeginsNothing`), and what stands before this character
  can be cut by itself.  The converse needs one thing more: an underscore begins
  nothing either, but it goes on with a word that stands before it.  Main
  statements: `scan_eq_error_iff`, and `underscore_belongs_to_word` on the
  converse without the word.
-/
import SheetFormula.Proofs.Tokens.Joining
import SheetFormula.Proofs.Tokens.Spans

namespace SheetFormula

namespace Lexeme

/-! ## Characters that begin nothing -/

/-- The characters that can begin a lexeme, besides letters and digits. -/
def signs : List Char :=
  ['"', '.', '+', '-', '=', '>', '<', '&', '|', '*', '/', '!', '(', ')', ',']

/-- A character that begins neither a lexeme nor white space in any formula. -/
def IsForeign (c : Char) : Prop := Text.isBlank c = false ∧ c.isAlphanum = false ∧ c ∉ signs

instance (c : Char) : Decidable (IsForeign c) :=
  inferInstanceAs (Decidable (Text.isBlank c = false ∧ c.isAlphanum = false ∧ c ∉ signs))

/-- The character begins neither a lexeme nor white space in front of the others. -/
inductive BeginsNothing : Char → List Char → Prop
  /-- No quote closes the text. -/
  | quote {behind : List Char} : '"' ∉ behind → BeginsNothing '"' behind
  /-- No digit stands behind the point. -/
  | point {behind : List Char} : (∀ d ∈ behind.head?, d.isDigit = false) → BeginsNothing '.' behind
  | foreign {c : Char} {behind : List Char} : IsForeign c → BeginsNothing c behind

theorem mem_signs {c : Char} :
    c ∈ signs ↔ c = '"' ∨ c = '.' ∨ c ∈ operatorChars ∨ c ∈ delimiterChars := by
  simp only [signs, operatorChars, delimiterChars, List.mem_cons, List.not_mem_nil, or_false]
  grind

theorem isForeign_iff {c : Char} :
    IsForeign c ↔ Text.isBlank c = false ∧ (c.isAlpha = false ∧ c.isDigit = false) ∧
      c ≠ '"' ∧ c ≠ '.' ∧ c ∉ operatorChars ∧ c ∉ delimiterChars := by
  simp only [IsForeign, Char.isAlphanum, Bool.or_eq_false_iff, mem_signs, not_or]

theorem text?_eq_none_iff {cs : List Char} : text? ('"' :: cs) = none ↔ '"' ∉ cs := by
  have hdrop : cs.dropWhile (· != '"') = [] ↔ '"' ∉ cs := by
    rw [List.dropWhile_eq_nil_iff]
    constructor
    · intro h hmem
      simpa using h '"' hmem
    · intro h c hc
      rw [bne_iff_ne]
      rintro rfl
      exact h hc
  rw [← hdrop]
  unfold text?
  cases hcs : cs.dropWhile (· != '"') <;> simp [hcs]

theorem number?_point_eq_none_iff {cs : List Char} :
    number? ('.' :: cs) = none ↔ ∀ d ∈ cs.head?, d.isDigit = false := by
  cases cs with
  | nil => simp [number?]
  | cons d ds => cases hd : d.isDigit <;> simp [number?, hd]

theorem number?_ne_none {c : Char} (h : c.isDigit = true) (cs : List Char) :
    number? (c :: cs) ≠ none := by
  simp only [number?]
  split
  · simp
  · simp [h]

theorem operator?_ne_none {c : Char} (h : c ∈ operatorChars) (cs : List Char) :
    operator? (c :: cs) ≠ none := by
  unfold operator?
  split
  · next c ds hcs =>
    obtain ⟨rfl, -⟩ := List.cons.inj hcs
    split <;> simp
  · next hcs =>
    obtain ⟨rfl, -⟩ := List.cons.inj hcs
    simp [h]
  · next hcs => cases hcs

theorem read?_eq_none_iff {cs : List Char} :
    read? cs = none ↔ text? cs = none ∧ number? cs = none ∧ identifier? cs = none ∧
      operator? cs = none ∧ delimiter? cs = none := by
  simp [read?, readers]

theorem BeginsNothing.read?_eq_none {c : Char} {cs : List Char} (h : BeginsNothing c cs) :
    read? (c :: cs) = none := by
  rw [read?_eq_none_iff]
  cases h with
  | quote hcs =>
      exact ⟨text?_eq_none_iff.mpr hcs, number?_cons cs (by decide) (by decide),
        identifier?_cons cs (by decide), operator?_cons cs (by decide),
        delimiter?_cons cs (by decide)⟩
  | point hcs =>
      exact ⟨text?_cons_of_ne cs (by decide), number?_point_eq_none_iff.mpr hcs,
        identifier?_cons cs (by decide), operator?_cons cs (by decide),
        delimiter?_cons cs (by decide)⟩
  | foreign hc =>
      obtain ⟨-, ⟨halpha, hdigit⟩, hquote, hpoint, hoperator, hdelimiter⟩ := isForeign_iff.mp hc
      exact ⟨text?_cons_of_ne cs hquote, number?_cons cs hdigit hpoint, identifier?_cons cs halpha,
        operator?_cons cs hoperator, delimiter?_cons cs hdelimiter⟩

theorem BeginsNothing.isBlank {c : Char} {cs : List Char} (h : BeginsNothing c cs) :
    Text.isBlank c = false := by
  cases h with
  | quote | point => decide
  | foreign hc => exact hc.1

/-- What no reader takes begins nothing. -/
theorem beginsNothing_of_read? {c : Char} {cs : List Char} (hblank : Text.isBlank c = false)
    (h : read? (c :: cs) = none) : BeginsNothing c cs := by
  obtain ⟨htext, hnumber, hidentifier, hoperator, hdelimiter⟩ := read?_eq_none_iff.mp h
  by_cases hquote : c = '"'
  · subst hquote
    exact .quote (text?_eq_none_iff.mp htext)
  by_cases hpoint : c = '.'
  · subst hpoint
    exact .point (number?_point_eq_none_iff.mp hnumber)
  -- All other lexemes are told by their first character.
  have hdigit : c.isDigit = false := by
    cases hd : c.isDigit with
    | false => rfl
    | true => exact absurd hnumber (number?_ne_none hd cs)
  have halpha : c.isAlpha = false := by
    cases ha : c.isAlpha with
    | false => rfl
    | true => simp [identifier?, ha] at hidentifier
  have hsign : c ∉ operatorChars := fun hc => operator?_ne_none hc cs hoperator
  have hmark : c ∉ delimiterChars := by simpa [delimiter?] using hdelimiter
  exact .foreign (isForeign_iff.mpr ⟨hblank, ⟨halpha, hdigit⟩, hquote, hpoint, hsign, hmark⟩)

/-- No lexeme goes on with a character that begins nothing, but for words with an underscore. -/
theorem BeginsNothing.stopsBefore {c : Char} {behind : List Char} (h : BeginsNothing c behind)
    {kind : TokenKind} (hword : c = '_' → kind ≠ .identifier) : kind.StopsBefore (c :: behind) := by
  cases h with
  | quote =>
      exact TokenKind.stopsBefore_cons (by decide) (fun h => absurd h (by decide))
        (fun _ => by decide) (by decide)
  | point hbehind =>
      exact TokenKind.stopsBefore_cons (by decide) (fun _ => hbehind) (fun _ => by decide)
        (by decide)
  | foreign hc =>
      obtain ⟨-, ⟨-, hdigit⟩, -, hpoint, hoperator, -⟩ := isForeign_iff.mp hc
      refine TokenKind.stopsBefore_cons hdigit (fun h => absurd h hpoint) ?_ ?_
      · intro hkind
        have hunder : c ≠ '_' := fun h => hword h hkind
        simp [isNameChar, hc.2.1, hunder]
      · rintro rfl
        exact hoperator (by decide)

end Lexeme

namespace Token

/-! ## The first character that is refused -/

/-- The characters before can be cut by themselves, and the next one neither begins anything nor
    goes on with a word at the end of them. -/
structure Refuses (offset : Nat) (before : List Char) (ts : List Token) (c : Char)
    (behind : List Char) : Prop where
  cut : scanFrom offset before = .ok ts
  begins : Lexeme.BeginsNothing c behind
  word : c = '_' → ∀ t ∈ ts, t.kind = .identifier → t.stop ≠ offset + byteLength before

variable {offset : Nat} {before behind : List Char} {c : Char} {ts : List Token}

theorem Refuses.scanFrom_eq (h : Refuses offset before ts c behind) :
    scanFrom offset (before ++ c :: behind) =
      .error (.unexpectedCharacter (offset + byteLength before) c) := by
  -- The tokens in front stay as they are, since no lexeme goes on with the character.
  have hyields : Yields offset before (c :: behind) ts :=
    yields_of_scanFrom h.cut fun t ht hstop => h.begins.stopsBefore fun hc hkind =>
      h.word hc t ht hkind hstop
  exact hyields.scanFrom_eq_error (scanFrom_error h.begins.isBlank h.begins.read?_eq_none)

theorem Refuses.cons_blank {d : Char} (hblank : Text.isBlank d = true)
    (h : Refuses (offset + d.utf8Size) before ts c behind) :
    Refuses offset (d :: before) ts c behind where
  cut := by
    rw [scanFrom_blank before hblank]
    exact h.cut
  begins := h.begins
  word := by
    rw [byteLength_cons, ← Nat.add_assoc]
    exact h.word

theorem Refuses.append_lexeme {l : Lexeme}
    (hmaximal : Lexeme.IsMaximal l.kind l.spelling (before ++ c :: behind))
    (h : Refuses (offset + byteLength l.spelling) before ts c behind) :
    Refuses offset (l.spelling ++ before) (ofLexeme l offset :: ts) c behind where
  cut := by
    rw [yields_lexeme hmaximal.of_append, h.cut]
    rfl
  begins := h.begins
  word := by
    rw [byteLength_append, ← Nat.add_assoc]
    rintro rfl t ht hkind hstop
    rcases List.mem_cons.mp ht with rfl | ht
    · -- A word with the underscore right behind it would not have been maximal.
      cases before with
      | nil =>
          obtain ⟨kind, spelling⟩ := l
          obtain rfl : kind = .identifier := hkind
          cases hmaximal with
          | identifier _ _ hrest => exact absurd (hrest '_' rfl) (by decide)
      | cons d before =>
          have hend : (ofLexeme l offset).stop = offset + byteLength l.spelling := rfl
          have hpos := d.utf8Size_pos
          rw [byteLength_cons] at hstop
          omega
    · exact h.word rfl t ht hkind hstop

/-- A text that cannot be cut can be cut up to a character that is refused. -/
theorem exists_refuses_of_error {cs : List Char} {e : Error} (h : scanFrom offset cs = .error e) :
    ∃ before ts c behind, cs = before ++ c :: behind ∧ Refuses offset before ts c behind ∧
      e = .unexpectedCharacter (offset + byteLength before) c := by
  -- Along the scan; what is cut off before the failure is put back in front of the refused
  -- character.
  induction offset, cs using scanFrom.induct with
  | case1 offset =>
      rw [scanFrom_nil] at h
      cases h
  | case2 offset d cs hblank ih =>
      rw [scanFrom_blank cs hblank] at h
      obtain ⟨before, ts, c, behind, rfl, hrefuses, rfl⟩ := ih h
      refine ⟨d :: before, ts, c, behind, rfl, hrefuses.cons_blank hblank, ?_⟩
      rw [byteLength_cons, Nat.add_assoc]
  | case3 offset c cs hblank hread =>
      have hc : Text.isBlank c = false := Bool.eq_false_iff.mpr hblank
      rw [scanFrom_error hc hread] at h
      cases h
      have hbegins : Lexeme.BeginsNothing c cs := Lexeme.beginsNothing_of_read? hc hread
      exact ⟨[], [], c, cs, rfl, ⟨scanFrom_nil offset, hbegins, by simp⟩, rfl⟩
  | case4 offset d cs hblank l rest hread _ ih =>
      rw [scanFrom_lexeme (Bool.eq_false_iff.mpr hblank) hread] at h
      obtain ⟨happend, hmaximal⟩ := Lexeme.read?_eq_some_iff.mp hread
      cases hrest : scanFrom (offset + byteLength l.spelling) rest with
      | ok us =>
          rw [hrest] at h
          cases h
      | error e' =>
          rw [hrest] at h
          cases h
          obtain ⟨before, ts, c, behind, rfl, hrefuses, rfl⟩ := ih hrest
          refine ⟨l.spelling ++ before, ofLexeme l offset :: ts, c, behind, ?_,
            hrefuses.append_lexeme hmaximal, ?_⟩
          · rw [← happend, List.append_assoc]
          · rw [byteLength_append, Nat.add_assoc]

/-! ## Strings -/

/-- What stands before a byte of the formula can be cut by itself, and the character there begins
    nothing. -/
def CutUpTo (formula : String) (offset : Nat) (c : Char) (ts : List Token) : Prop :=
  ∃ before behind : String, formula = before ++ String.singleton c ++ behind ∧
    offset = before.utf8ByteSize ∧ scan before = .ok ts ∧ Lexeme.BeginsNothing c behind.toList

/-- The character at the byte is refused: it begins nothing, and if it is an underscore, no word
    ends before it. -/
def RefusedAt (formula : String) (offset : Nat) (c : Char) : Prop :=
  ∃ ts, CutUpTo formula offset c ts ∧
    (c = '_' → ∀ t ∈ ts, t.kind = .identifier → t.stop ≠ offset)

theorem refusedAt_iff {formula : String} {offset : Nat} {c : Char} :
    RefusedAt formula offset c ↔ ∃ before ts behind, formula.toList = before ++ c :: behind ∧
      Refuses 0 before ts c behind ∧ offset = byteLength before := by
  constructor
  · rintro ⟨ts, ⟨before, behind, rfl, rfl, hscan, hbegins⟩, hword⟩
    refine ⟨before.toList, ts, behind.toList, by simp, ⟨hscan, hbegins, ?_⟩, ?_⟩
    · rw [Nat.zero_add, byteLength_toList]
      exact hword
    · rw [byteLength_toList]
  · rintro ⟨before, ts, behind, hformula, hrefuses, rfl⟩
    refine ⟨ts, ⟨String.ofList before, String.ofList behind, ?_, ?_, ?_, ?_⟩, ?_⟩
    · rw [← String.toList_inj, hformula]
      simp
    · rw [utf8ByteSize_ofList]
    · rw [scan, String.toList_ofList]
      exact hrefuses.cut
    · rw [String.toList_ofList]
      exact hrefuses.begins
    · simpa using hrefuses.word

theorem exists_refusedAt_of_error {formula : String} {e : Error} (h : scan formula = .error e) :
    ∃ offset c, RefusedAt formula offset c ∧ e = .unexpectedCharacter offset c := by
  obtain ⟨before, ts, c, behind, hformula, hrefuses, rfl⟩ := exists_refuses_of_error h
  refine ⟨byteLength before, c, refusedAt_iff.mpr ⟨before, ts, behind, hformula, hrefuses, rfl⟩, ?_⟩
  rw [Nat.zero_add]

theorem RefusedAt.scan_eq {formula : String} {offset : Nat} {c : Char}
    (h : RefusedAt formula offset c) :
    scan formula = .error (.unexpectedCharacter offset c) := by
  obtain ⟨before, ts, behind, hformula, hrefuses, rfl⟩ := refusedAt_iff.mp h
  rw [scan, hformula, hrefuses.scanFrom_eq, Nat.zero_add]

/-- The scan fails at the characters that are refused, and where none is refused it does not
    fail. -/
theorem scan_eq_error_iff (formula : String) :
    (∀ offset c, scan formula = .error (.unexpectedCharacter offset c) ↔
        RefusedAt formula offset c) ∧
      ((∀ offset c, ¬ RefusedAt formula offset c) → ∃ ts, scan formula = .ok ts) := by
  constructor
  · intro offset c
    constructor
    · intro h
      obtain ⟨offset', c', hrefused, herror⟩ := exists_refusedAt_of_error h
      cases herror
      exact hrefused
    · exact RefusedAt.scan_eq
  · intro hnone
    cases hscan : scan formula with
    | ok ts => exact ⟨ts, rfl⟩
    | error e =>
        obtain ⟨offset, c, hrefused, -⟩ := exists_refusedAt_of_error hscan
        exact absurd hrefused (hnone offset c)

/-- An underscore begins nothing, and yet it is not refused behind a word. -/
theorem underscore_belongs_to_word :
    ¬ (scan "a_" = .error (.unexpectedCharacter 1 '_') ↔ ∃ ts, CutUpTo "a_" 1 '_' ts) := by
  have hcut : CutUpTo "a_" 1 '_' [⟨.identifier, "a", 0, 1⟩] :=
    ⟨"a", "", by decide, by decide, by decide +kernel, .foreign (by decide)⟩
  intro h
  have hscan : scan "a_" = .error (.unexpectedCharacter 1 '_') := h.mpr ⟨_, hcut⟩
  have hword : scan "a_" = .ok [⟨.identifier, "a_", 0, 2⟩] := by decide +kernel
  rw [hword] at hscan
  cases hscan

end Token

end SheetFormula
