/-
  SheetFormula.Proofs.Printing.Lexing

  The text of printed lexemes is cut into the same lexemes.  A printed lexeme
  is followed by a space or by nothing, and before such a gap it is maximal, so
  it is read as it is (`Standalone`).  Main statement: `exists_scan_spelled`.
-/
import SheetFormula.Proofs.Parsing.Faces
import SheetFormula.Proofs.Printing.Printer
import SheetFormula.Proofs.Tokens.Maximal

namespace SheetFormula

namespace Lexeme

/-! ## Lexemes that stand by themselves -/

/-- A text goes on with a space or not at all. -/
def AtGap (rest : List Char) : Prop := ∀ c ∈ rest.head?, c = ' '

/-- Before a gap a lexeme is read as it is, and no white space is dropped in front of it. -/
structure Standalone (l : Lexeme) : Prop where
  solid : ∃ c cs, l.spelling = c :: cs ∧ Text.isBlank c = false
  reads : ∀ rest, AtGap rest → read? (l.spelling ++ rest) = some (l, rest)

/-- What takes no space stops at a gap. -/
theorem AtGap.stops {p : Char → Bool} {rest : List Char} (h : AtGap rest) (hspace : p ' ' = false) :
    ∀ c ∈ rest.head?, p c = false := by
  intro c hc
  rw [h c hc]
  exact hspace

/-- What is maximal before every gap stands by itself. -/
theorem standalone_of_isMaximal {l : Lexeme}
    (h : ∀ rest, AtGap rest → IsMaximal l.kind l.spelling rest) : l.Standalone where
  solid := (h [] (by simp [AtGap])).exists_cons
  reads := fun rest hrest => read?_of_isMaximal (h rest hrest)

theorem standalone_ofPositional {p : Positional} (h : p.IsPlain) (hsign : p.negative = false) :
    (ofPositional p).Standalone := by
  have htext : p.text = p.whole ++ fractionText p.fraction := by
    simp [Positional.text, hsign, signText]
  refine standalone_of_isMaximal fun rest hrest => ?_
  show IsMaximal .number p.text rest
  have hdigit : ∀ c ∈ rest.head?, c.isDigit = false := hrest.stops rfl
  rw [htext]
  cases hfraction : p.fraction with
  | nil =>
      rw [fractionText, List.append_nil]
      refine .whole h.whole_ne_nil h.whole_digit hdigit fun c behind hpoint => ?_
      -- A gap is no point.
      rw [hpoint] at hrest
      cases hrest '.' rfl
  | cons d ds =>
      have hdigits : ∀ c ∈ d :: ds, c.isDigit = true := hfraction ▸ h.fraction_digit
      exact .fraction h.whole_digit (List.cons_ne_nil d ds) hdigits hdigit

/-- A text ends with its second quote, whatever follows. -/
theorem standalone_quoted {s : String} (h : '"' ∉ s.toList) : (quoted s).Standalone :=
  standalone_of_isMaximal fun _ _ => .text h

theorem standalone_word {name : String} {c : Char} {cs : List Char} (hname : name.toList = c :: cs)
    (hc : c.isAlpha = true) (hcs : cs.all isNameChar = true) : (word name).Standalone := by
  refine standalone_of_isMaximal fun rest hrest => ?_
  show IsMaximal .identifier name.toList rest
  rw [hname]
  exact .identifier hc (List.all_eq_true.mp hcs) (hrest.stops rfl)

theorem standalone_mark {c : Char} (h : c ∈ delimiterChars) : (mark c).Standalone :=
  standalone_of_isMaximal fun _ _ => .delimiter h

/-- Whether the characters are an operator: one character, or `=` behind one that begins a pair. -/
def isSymbol : List Char → Bool
  | [c] => operatorChars.contains c
  | [c, d] => pairStarts.contains c && d == '='
  | _ => false

/-- A symbol is maximal unless it goes on with `=`. -/
theorem isMaximal_symbol {symbol : String} (h : isSymbol symbol.toList = true) {rest : List Char}
    (hrest : rest.head? ≠ some '=') : IsMaximal .operator symbol.toList rest := by
  unfold isSymbol at h
  split at h
  · next c hsymbol =>
    rw [hsymbol]
    rcases mem_operatorChars.mp (List.contains_iff_mem.mp h) with hc | hc
    · exact .single hc
    · exact .alone hc hrest
  · next c d hsymbol =>
    rw [Bool.and_eq_true, beq_iff_eq] at h
    obtain ⟨hpair, rfl⟩ := h
    rw [hsymbol]
    exact .pair (List.contains_iff_mem.mp hpair)
  · cases h

theorem isSymbol_binary (op : BinaryOp) : isSymbol op.symbol.toList = true := by
  cases op <;> rfl

theorem isSymbol_unary (op : UnaryOp) : isSymbol op.symbol.toList = true := by
  cases op <;> rfl

theorem standalone_sign {symbol : String} (h : isSymbol symbol.toList = true) :
    (sign symbol).Standalone := by
  refine standalone_of_isMaximal fun rest hrest => isMaximal_symbol h fun hhead => ?_
  -- A gap is no `=`.
  cases hrest '=' hhead

theorem standalone_binary (op : BinaryOp) : (sign op.symbol).Standalone :=
  standalone_sign (isSymbol_binary op)

theorem standalone_unary (op : UnaryOp) : (sign op.symbol).Standalone :=
  standalone_sign (isSymbol_unary op)

/-! ## Scanning -/

/-- What is read of a lexeme. -/
def face (l : Lexeme) : TokenKind × String := (l.kind, String.ofList l.content)

end Lexeme

namespace Token

/-- A token that is read as a mark is the delimiter. -/
theorem isDelimiter_of_mark {t : Token} {c : Char} (hkind : t.kind = (Lexeme.mark c).kind)
    (htext : t.text = String.ofList (Lexeme.mark c).content) :
    t.isDelimiter (String.ofList [c]) = true := by
  simp [isDelimiter, hkind, htext, Lexeme.mark, Lexeme.content]

theorem scanFrom_append_gap {l : Lexeme} (h : l.Standalone) (offset : Nat) {rest : List Char}
    (hrest : Lexeme.AtGap rest) :
    scanFrom offset (l.spelling ++ rest)
      = (scanFrom (offset + byteLength l.spelling) rest).map (ofLexeme l offset :: ·) := by
  obtain ⟨c, cs, hcons, hblank⟩ := h.solid
  have hread := h.reads rest hrest
  rw [hcons, List.cons_append] at hread
  rw [hcons, List.cons_append, scanFrom_lexeme hblank hread, hcons]

/-- The lexemes come back, one token for each. -/
theorem exists_scanFrom_spelled {ls : List Lexeme} (h : ∀ l ∈ ls, l.Standalone) (offset : Nat) :
    ∃ ts, scanFrom offset (Lexeme.spelled ls) = .ok ts ∧ ts.map face = ls.map Lexeme.face := by
  induction ls generalizing offset with
  | nil => exact ⟨[], scanFrom_nil offset, rfl⟩
  | cons l ls ih =>
      have hl : l.Standalone := h l List.mem_cons_self
      have hls : ∀ m ∈ ls, m.Standalone := fun m hm => h m (List.mem_cons_of_mem l hm)
      cases ls with
      | nil =>
          have hscan := @scanFrom_append_gap l hl offset [] (by simp [Lexeme.AtGap])
          rw [List.append_nil, scanFrom_nil] at hscan
          exact ⟨[ofLexeme l offset], hscan, rfl⟩
      | cons m ls =>
          -- The space ends the lexeme and is dropped before the next one.
          have hgap : Lexeme.AtGap (' ' :: Lexeme.spelled (m :: ls)) := by simp [Lexeme.AtGap]
          have hscan := scanFrom_append_gap hl offset hgap
          rw [scanFrom_blank _ (by decide)] at hscan
          obtain ⟨ts, hts, hface⟩ := ih hls _
          rw [hts] at hscan
          refine ⟨ofLexeme l offset :: ts, hscan, ?_⟩
          rw [List.map_cons, List.map_cons, hface]
          rfl

theorem exists_scan_spelled {ls : List Lexeme} (h : ∀ l ∈ ls, l.Standalone) :
    ∃ ts, scan (String.ofList (Lexeme.spelled ls)) = .ok ts ∧ ts.map face = ls.map Lexeme.face := by
  rw [scan, String.toList_ofList]
  exact exists_scanFrom_spelled h 0

end Token

end SheetFormula
