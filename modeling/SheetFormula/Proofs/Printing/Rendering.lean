/-
  SheetFormula.Proofs.Printing.Rendering

  Tokens as a text.  Tokens of any origin are written one behind the other with
  a space between them, and are read back if each of them says something that
  its kind can say (`TokenKind.Admits`).  What a kind can say is given by the
  characters alone, and it is what the tokens of formulas say
  (`wellSpelled_iff_admits`).  Main statement: `scan_render`.
-/
import SheetFormula.Proofs.Printing.Lexing
import SheetFormula.Proofs.Tokens.Joining
import SheetFormula.Proofs.Tokens.Spans

namespace SheetFormula

/-! ## What tokens can say -/

/-- How the operators are written. -/
def Lexeme.operatorTexts : List String :=
  ["!=", ">=", "<=", "-", "+", "=", ">", "<", "&", "|", "*", "/", "!"]

/-- A token of the kind can say these characters: a number has digits, and perhaps a point and other
    digits before them; a text has no quote; a word is a letter with letters, digits and
    underscores. -/
inductive TokenKind.Admits : TokenKind → List Char → Prop
  | number {whole point digits : List Char} : (∀ c ∈ whole, c.isDigit = true) →
      point = [] ∨ point = ['.'] → digits ≠ [] → (∀ c ∈ digits, c.isDigit = true) →
      Admits .number (whole ++ point ++ digits)
  | text {cs : List Char} : '"' ∉ cs → Admits .text cs
  | identifier {c : Char} {cs : List Char} : c.isAlpha = true →
      (∀ d ∈ cs, d.isAlphanum = true ∨ d = '_') → Admits .identifier (c :: cs)
  | operator {cs : List Char} : String.ofList cs ∈ Lexeme.operatorTexts → Admits .operator cs
  | delimiter {cs : List Char} : String.ofList cs ∈ ["(", ")", ","] → Admits .delimiter cs

namespace Lexeme

theorem isNameChar_iff {c : Char} : isNameChar c = true ↔ c.isAlphanum = true ∨ c = '_' := by
  rw [isNameChar, Bool.or_eq_true, beq_iff_eq]

theorem isSymbol_of_mem_operatorTexts :
    ∀ symbol ∈ operatorTexts, isSymbol symbol.toList = true := by
  decide

theorem mem_operatorTexts_of_isMaximal {cs rest : List Char} (h : IsMaximal .operator cs rest) :
    String.ofList cs ∈ operatorTexts := by
  cases h with
  | pair hc | alone hc =>
      simp only [List.mem_cons, List.not_mem_nil, or_false] at hc
      rcases hc with rfl | rfl | rfl <;> decide
  | single hc =>
      simp only [List.mem_cons, List.not_mem_nil, or_false] at hc
      rcases hc with rfl | rfl | rfl | rfl | rfl | rfl | rfl <;> decide

theorem mem_delimiterChars_of_text {cs : List Char} (h : String.ofList cs ∈ ["(", ")", ","]) :
    ∃ c ∈ delimiterChars, cs = [c] := by
  have hcs : cs = (String.ofList cs).toList := String.toList_ofList.symm
  simp only [List.mem_cons, List.not_mem_nil, or_false] at h
  rcases h with h | h | h <;> rw [h] at hcs
  · exact ⟨'(', by decide, hcs⟩
  · exact ⟨')', by decide, hcs⟩
  · exact ⟨',', by decide, hcs⟩

/-- No lexeme goes on into a gap. -/
theorem AtGap.stopsBefore {rest : List Char} (h : AtGap rest) (kind : TokenKind) :
    kind.StopsBefore rest := by
  cases rest with
  | nil => cases kind <;> simp [TokenKind.StopsBefore]
  | cons c behind =>
      obtain rfl : c = ' ' := h c rfl
      exact TokenKind.stopsBefore_blank (by decide) behind kind

end Lexeme

namespace Token

/-- A token that says what its kind can say is a lexeme before whatever ends lexemes. -/
theorem isMaximal_of_admits {t : Token} {rest : List Char} (h : t.kind.Admits t.text.toList)
    (hstop : t.kind.StopsBefore rest) : Lexeme.IsMaximal t.kind t.source.toList rest := by
  obtain ⟨kind, text, start, stop⟩ := t
  cases kind with
  | number =>
      show Lexeme.IsMaximal .number text.toList rest
      generalize text.toList = cs at h
      cases h with
      | @number whole point digits hwhole hpoint hne hdigits =>
          rcases hpoint with rfl | rfl
          · rw [List.append_nil]
            have hall : ∀ c ∈ whole ++ digits, c.isDigit = true := fun c hc =>
              (List.mem_append.mp hc).elim (hwhole c) (hdigits c)
            exact .whole (List.append_ne_nil_of_right_ne_nil whole hne) hall hstop.1 hstop.2
          · rw [List.append_assoc]
            exact .fraction hwhole hne hdigits hstop.1
  | text =>
      have hquoted : (source ⟨.text, text, start, stop⟩).toList = '"' :: (text.toList ++ ['"']) := by
        simp [source]
      cases h with
      | text hinner =>
          rw [hquoted]
          exact .text hinner
  | identifier =>
      show Lexeme.IsMaximal .identifier text.toList rest
      generalize text.toList = cs at h
      cases h with
      | identifier hc hcs =>
          exact .identifier hc (fun d hd => Lexeme.isNameChar_iff.mpr (hcs d hd)) hstop
  | operator =>
      cases h with
      | operator hmem =>
          rw [String.ofList_toList] at hmem
          exact Lexeme.isMaximal_symbol (Lexeme.isSymbol_of_mem_operatorTexts text hmem) hstop
  | delimiter =>
      cases h with
      | delimiter hmem =>
          obtain ⟨c, hc, htext⟩ := Lexeme.mem_delimiterChars_of_text hmem
          show Lexeme.IsMaximal .delimiter text.toList rest
          rw [htext]
          exact .delimiter hc

/-- A lexeme's token says what its kind can say. -/
theorem admits_of_isMaximal {t : Token} {rest : List Char}
    (h : Lexeme.IsMaximal t.kind t.source.toList rest) : t.kind.Admits t.text.toList := by
  rw [← content_source]
  obtain ⟨kind, text, start, stop⟩ := t
  -- What is said is told by the lexeme, so the token may be forgotten.
  generalize (source ⟨kind, text, start, stop⟩).toList = spelling at h ⊢
  cases kind with
  | number =>
      cases h with
      | whole hne hdigits =>
          exact @TokenKind.Admits.number [] [] spelling (by simp) (.inl rfl) hne hdigits
      | @fraction whole digits _ hwhole hne hdigits =>
          show TokenKind.Admits .number (whole ++ '.' :: digits)
          rw [← List.singleton_append, ← List.append_assoc]
          exact .number hwhole (.inr rfl) hne hdigits
  | text =>
      cases h with
      | @text inner _ hinner =>
          have hcontent : Lexeme.content ⟨.text, '"' :: (inner ++ ['"'])⟩ = inner := by
            simp [Lexeme.content]
          show TokenKind.Admits .text (Lexeme.content ⟨.text, '"' :: (inner ++ ['"'])⟩)
          rw [hcontent]
          exact .text hinner
  | identifier =>
      cases h with
      | identifier hc hcs => exact .identifier hc fun d hd => Lexeme.isNameChar_iff.mp (hcs d hd)
  | operator => exact .operator (Lexeme.mem_operatorTexts_of_isMaximal h)
  | delimiter =>
      cases h with
      | @delimiter c _ hc =>
          have htext : String.ofList [c] ∈ ["(", ")", ","] := by
            simp only [List.mem_cons, List.not_mem_nil, or_false] at hc
            rcases hc with rfl | rfl | rfl <;> decide
          exact .delimiter htext

/-- What the tokens of formulas say is what their kinds can say, and no more. -/
theorem wellSpelled_iff_admits {t : Token} : t.WellSpelled ↔ t.kind.Admits t.text.toList := by
  constructor
  · rintro ⟨rest, hmaximal⟩
    exact admits_of_isMaximal hmaximal
  · intro h
    have hgap : Lexeme.AtGap [] := by simp [Lexeme.AtGap]
    exact ⟨[], isMaximal_of_admits h (hgap.stopsBefore t.kind)⟩

/-! ## Tokens as a text -/

/-- The tokens one behind the other with a space between them; texts get their quotes back. -/
def render (ts : List Token) : String := " ".intercalate (ts.map source)

/-- The lexeme that spells a token. -/
def lexeme (t : Token) : Lexeme := ⟨t.kind, t.source.toList⟩

theorem face_lexeme (t : Token) : t.lexeme.face = t.face := by
  rw [Lexeme.face, lexeme, content_source, String.ofList_toList]
  rfl

theorem standalone_lexeme {t : Token} (h : t.kind.Admits t.text.toList) : t.lexeme.Standalone :=
  Lexeme.standalone_of_isMaximal fun _ hrest => isMaximal_of_admits h (hrest.stopsBefore t.kind)

theorem toList_render (ts : List Token) :
    (render ts).toList = Lexeme.spelled (ts.map lexeme) := by
  induction ts with
  | nil => rfl
  | cons t ts ih =>
      cases ts with
      | nil => simp [render, Lexeme.spelled, lexeme]
      | cons u ts =>
          have hrender : render (t :: u :: ts) = t.source ++ " " ++ render (u :: ts) := by
            rw [render, List.map_cons, List.map_cons, String.intercalate_cons_cons]
            rfl
          rw [hrender, String.toList_append, String.toList_append, ih, List.append_assoc]
          rfl

theorem exists_scan_render {ts : List Token} (h : ∀ t ∈ ts, t.kind.Admits t.text.toList) :
    ∃ us, scan (render ts) = .ok us ∧ us.map face = ts.map face := by
  have hstandalone : ∀ l ∈ ts.map lexeme, l.Standalone := by
    intro l hl
    obtain ⟨t, ht, rfl⟩ := List.mem_map.mp hl
    exact standalone_lexeme (h t ht)
  obtain ⟨us, hus, hfaces⟩ := exists_scan_spelled hstandalone
  refine ⟨us, ?_, ?_⟩
  · rw [← hus, ← toList_render, String.ofList_toList]
  · rw [hfaces, List.map_map]
    exact List.map_congr_left fun t _ => face_lexeme t

/-- Tokens that say what their kinds can say are read back from their text, and the tokens of every
    formula are such tokens. -/
theorem scan_render :
    (∀ ts : List Token, (∀ t ∈ ts, t.kind.Admits t.text.toList) →
      ∃ us, scan (render ts) = .ok us ∧ us.map face = ts.map face) ∧
    ∀ (formula : String) (ts : List Token), scan formula = .ok ts →
      (∀ t ∈ ts, t.kind.Admits t.text.toList) ∧
        ∃ us, scan (render ts) = .ok us ∧ us.map face = ts.map face := by
  refine ⟨fun ts h => exists_scan_render h, fun formula ts hscan => ?_⟩
  have hadmits : ∀ t ∈ ts, t.kind.Admits t.text.toList := fun t ht =>
    wellSpelled_iff_admits.mp (wellSpelled_of_scan hscan t ht)
  exact ⟨hadmits, exists_scan_render hadmits⟩

end Token

end SheetFormula
