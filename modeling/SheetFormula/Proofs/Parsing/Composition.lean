/-
  SheetFormula.Proofs.Parsing.Composition

  Formulas made of formulas.  A formula that can be parsed keeps its tokens, and
  with them its expression, wherever it is put, as long as no lexeme goes on
  behind it (`yieldsAnywhere_of_parse`); a parenthesis or a comma ends every
  lexeme.  Main statement: formulas can be put in parentheses, between and
  behind operators, and between the parentheses of a call, and the expression is
  made of theirs (`parse_composed`).
-/
import SheetFormula.Proofs.Parsing.Derivation
import SheetFormula.Proofs.Printing.RoundTrip
import SheetFormula.Proofs.Tokens.Joining

namespace SheetFormula

namespace Token

/-! ## Pieces that can stand anywhere -/

/-- Wherever the characters start, and whatever ends lexemes behind them, they yield tokens with the
    property. -/
def YieldsAnywhere (P : List Token → Prop) (cs : List Char) : Prop :=
  ∀ offset tail, (∀ kind : TokenKind, kind.StopsBefore tail) → ∃ ts, Yields offset cs tail ts ∧ P ts

theorem sameFaces_shift (n : Nat) (ts : List Token) : SameFaces (ts.map (shift n)) ts := by
  rw [sameFaces_iff, List.map_map]
  rfl

theorem exists_yields_delimiter {c : Char} (hc : c ∈ Lexeme.delimiterChars) (offset : Nat)
    (tail : List Char) :
    ∃ t, Yields offset [c] tail [t] ∧ t.isDelimiter (String.ofList [c]) = true := by
  have hmaximal : Lexeme.IsMaximal .delimiter [c] tail := .delimiter hc
  exact ⟨_, yields_lexeme (l := .mark c) hmaximal, isDelimiter_of_mark rfl rfl⟩

/-- The characters in parentheses. -/
def enclosed (cs : List Char) : List Char := '(' :: (cs ++ [')'])

theorem exists_yields_enclosed {P : List Token → Prop} {cs : List Char} (h : YieldsAnywhere P cs)
    (offset : Nat) (tail : List Char) :
    ∃ opening ts closing, Yields offset (enclosed cs) tail (opening :: (ts ++ [closing])) ∧
      opening.isDelimiter "(" = true ∧ P ts ∧ closing.isDelimiter ")" = true := by
  obtain ⟨opening, hopening, hopen⟩ :=
    exists_yields_delimiter (c := '(') (by decide) offset (cs ++ [')'] ++ tail)
  obtain ⟨closing, hclosing, hclose⟩ :=
    exists_yields_delimiter (c := ')') (by decide) (offset + byteLength ['('] + byteLength cs) tail
  obtain ⟨ts, hts, hP⟩ := h (offset + byteLength ['(']) ([')'] ++ tail)
    (TokenKind.stopsBefore_delimiter (by decide) tail)
  exact ⟨opening, ts, closing, hopening.append (hts.append hclosing), hopen, hP, hclose⟩

theorem stopsBefore_enclosed (cs tail : List Char) (kind : TokenKind) :
    kind.StopsBefore (enclosed cs ++ tail) :=
  TokenKind.stopsBefore_delimiter (by decide) (cs ++ [')'] ++ tail) kind

/-- A symbol is read by itself. -/
theorem exists_yields_symbol {symbol : String} (h : Lexeme.isSymbol symbol.toList = true)
    (offset : Nat) {tail : List Char} (hstop : TokenKind.operator.StopsBefore tail) :
    ∃ t, Yields offset symbol.toList tail [t] ∧ t.kind = .operator ∧ t.text = symbol :=
  ⟨_, yields_lexeme (l := .sign symbol) (Lexeme.isMaximal_symbol h hstop), rfl,
    Lexeme.ofList_content_sign symbol⟩

/-- A name is read by itself. -/
theorem exists_yields_word {name : String} (h : Expr.isVariableName name = true) (offset : Nat)
    {tail : List Char} (hstop : TokenKind.identifier.StopsBefore tail) :
    ∃ t, Yields offset name.toList tail [t] ∧ t.IsName ∧ t.text = name := by
  obtain ⟨⟨c, ds, hname, hc, hds⟩, htrue, hfalse⟩ := Expr.exists_of_isWord h
  have hmaximal : Lexeme.IsMaximal .identifier name.toList tail := by
    rw [hname]
    exact .identifier hc hds hstop
  have htext := Lexeme.ofList_content_word name
  exact ⟨_, yields_lexeme (l := .word name) hmaximal,
    ⟨rfl, fun h => htrue (htext.symm.trans h), fun h => hfalse (htext.symm.trans h)⟩, htext⟩

end Token

namespace Expr

open Grammar Token

/-! ## Formulas as pieces -/

/-- A formula has its expression wherever it is put. -/
theorem yieldsAnywhere_of_parse {formula : String} {e : Expr} (h : parse formula = .ok e) :
    YieldsAnywhere (Derives 1 · e) formula.toList := by
  intro offset tail hstop
  obtain ⟨ts, hscan, htokens⟩ := parse_eq_ok_iff.mp h
  -- The tokens move with the formula, and their places are not read.
  have hmoved : scanFrom offset formula.toList = .ok (ts.map (shift offset)) :=
    scanFrom_shift offset hscan
  refine ⟨_, yields_of_scanFrom hmoved fun t _ _ => hstop t.kind, derives_of_ofTokens ?_⟩
  rw [ofTokens_eq_of_sameFaces (sameFaces_shift offset ts), htokens]

theorem exists_yields_group {formula : String} {e : Expr} (h : parse formula = .ok e)
    (offset : Nat) (tail : List Char) :
    ∃ ts, Yields offset (enclosed formula.toList) tail ts ∧ Operand ts e := by
  obtain ⟨opening, ts, closing, hyields, hopen, hd, hclose⟩ :=
    exists_yields_enclosed (yieldsAnywhere_of_parse h) offset tail
  exact ⟨_, hyields, .group hopen hd hclose⟩

theorem parse_of_yields {formula : String} {ts : List Token} {e : Expr}
    (h : Yields 0 formula.toList [] ts) (hd : Derives 1 ts e) : parse formula = .ok e :=
  parse_eq_ok_iff.mpr ⟨ts, h.scanFrom_eq, ofTokens_of_derives hd⟩

theorem parse_of_yields_operand {formula : String} {ts : List Token} {e : Expr}
    (h : Yields 0 formula.toList [] ts) (hd : Operand ts e) : parse formula = .ok e :=
  parse_of_yields h (derives_of_operand hd (Nat.le_refl 1) (by decide))

/-! ## Lists of formulas -/

/-- Formulas, each behind a comma. -/
def behindCommas (formulas : List String) : List Char := formulas.flatMap fun a => ',' :: a.toList

theorem toList_intercalate (separator a : String) (as : List String) :
    (separator.intercalate (a :: as)).toList =
      a.toList ++ as.flatMap fun b => separator.toList ++ b.toList := by
  induction as generalizing a with
  | nil => simp
  | cons b as ih =>
      rw [String.intercalate_cons_cons, String.toList_append, ih]
      simp

theorem toList_commaSeparated (a : String) (formulas : List String) :
    (",".intercalate (a :: formulas)).toList = a.toList ++ behindCommas formulas :=
  toList_intercalate "," a formulas

theorem stopsBefore_behindCommas (formulas : List String) {tail : List Char}
    (h : ∀ kind : TokenKind, kind.StopsBefore tail) (kind : TokenKind) :
    kind.StopsBefore (behindCommas formulas ++ tail) := by
  cases formulas with
  | nil => exact h kind
  | cons a formulas => exact TokenKind.stopsBefore_delimiter (by decide) _ kind

theorem yieldsAnywhere_behindCommas {formulas : List String} {es : List Expr}
    (h : List.Forall₂ (fun a e => parse a = .ok e) formulas es) :
    YieldsAnywhere (MoreArguments · es) (behindCommas formulas) := by
  induction h with
  | nil => exact fun offset tail _ => ⟨[], yields_nil, .none⟩
  | @cons a e formulas es ha _ ih =>
      intro offset tail hstop
      obtain ⟨comma, hyields, hcomma⟩ := exists_yields_delimiter (c := ',') (by decide) offset
        (a.toList ++ behindCommas formulas ++ tail)
      obtain ⟨ts, hts, hd⟩ := yieldsAnywhere_of_parse ha (offset + byteLength [','])
        (behindCommas formulas ++ tail) (stopsBefore_behindCommas formulas hstop)
      obtain ⟨us, hus, hmore⟩ := ih (offset + byteLength [','] + byteLength a.toList) tail hstop
      exact ⟨comma :: (ts ++ us), hyields.append (hts.append hus), .some hcomma hd hmore⟩

theorem yieldsAnywhere_commaSeparated {formulas : List String} {es : List Expr}
    (h : List.Forall₂ (fun a e => parse a = .ok e) formulas es) :
    YieldsAnywhere (Arguments · es) (",".intercalate formulas).toList := by
  cases h with
  | nil => exact fun offset tail _ => ⟨[], by simpa using yields_nil, .none⟩
  | @cons a e formulas es ha hmore =>
      intro offset tail hstop
      obtain ⟨ts, hts, hd⟩ := yieldsAnywhere_of_parse ha offset (behindCommas formulas ++ tail)
        (stopsBefore_behindCommas formulas hstop)
      obtain ⟨us, hus, hmore⟩ :=
        yieldsAnywhere_behindCommas hmore (offset + byteLength a.toList) tail hstop
      rw [toList_commaSeparated]
      exact ⟨ts ++ us, hts.append hus, .some hd hmore⟩

/-! ## Formulas made of formulas -/

section Composed

variable {a b : String} {x y : Expr}

theorem parse_enclosed (ha : parse a = .ok x) : parse ("(" ++ a ++ ")") = .ok x := by
  obtain ⟨ts, hyields, hoperand⟩ := exists_yields_group ha 0 []
  refine parse_of_yields_operand ?_ hoperand
  simpa [enclosed] using hyields

theorem parse_between (op : BinaryOp) (ha : parse a = .ok x) (hb : parse b = .ok y) :
    parse ("(" ++ a ++ ")" ++ op.symbol ++ "(" ++ b ++ ")") = .ok (op.apply x y) := by
  have hpos := op.one_le_strength
  have hmax := op.strength_le_six
  obtain ⟨ts, hts, hleft⟩ := exists_yields_group ha 0 (op.symbol.toList ++ enclosed b.toList ++ [])
  obtain ⟨t, ht, hkind, htext⟩ := exists_yields_symbol (Lexeme.isSymbol_binary op)
    (0 + byteLength (enclosed a.toList)) (stopsBefore_enclosed b.toList [] _)
  obtain ⟨us, hus, hright⟩ := exists_yields_group hb
    (0 + byteLength (enclosed a.toList) + byteLength op.symbol.toList) []
  have hyields := hts.append (ht.append hus)
  -- In parentheses, operands are strong enough for any operator.
  have hderives : Derives op.strength (ts ++ t :: us) (op.apply x y) :=
    .binaryOp (derives_of_operand hleft hpos (by omega)) hkind htext
      (derives_of_operand hright (by omega) (by omega))
  refine parse_of_yields ?_ (hderives.of_le (Nat.le_refl 1) hpos (Nat.le_succ_of_le hmax))
  simpa [enclosed] using hyields

theorem parse_behind (op : UnaryOp) (ha : parse a = .ok x) :
    parse (op.symbol ++ "(" ++ a ++ ")") = .ok (op.apply x) := by
  obtain ⟨t, ht, hkind, htext⟩ := exists_yields_symbol (Lexeme.isSymbol_unary op) 0
    (stopsBefore_enclosed a.toList [] _)
  obtain ⟨ts, hts, hoperand⟩ := exists_yields_group ha (0 + byteLength op.symbol.toList) []
  have hyields := ht.append hts
  refine parse_of_yields_operand ?_ (hoperand.unaryOp hkind htext)
  simpa [enclosed] using hyields

theorem parse_applied {f : String} (hf : isVariableName f = true) {formulas : List String}
    {es : List Expr} (h : List.Forall₂ (fun a e => parse a = .ok e) formulas es) :
    parse (f ++ "(" ++ ",".intercalate formulas ++ ")") = .ok (callNamed f es) := by
  obtain ⟨t, ht, hname, htext⟩ := exists_yields_word hf 0
    (stopsBefore_enclosed (",".intercalate formulas).toList [] _)
  obtain ⟨opening, ts, closing, hts, hopen, hargs, hclose⟩ := exists_yields_enclosed
    (yieldsAnywhere_commaSeparated h) (0 + byteLength f.toList) []
  have hyields := ht.append hts
  have hcall := Operand.call hname hopen hargs hclose
  rw [htext] at hcall
  refine parse_of_yields_operand ?_ hcall
  simpa [enclosed] using hyields

/-- Formulas that can be parsed make up formulas that can be parsed, between the parentheses of an
    operator's operands, of a group and of a call, and what these stand for is made of what they
    stand for. -/
theorem parse_composed (ha : parse a = .ok x) (hb : parse b = .ok y) {formulas : List String}
    {es : List Expr} (h : List.Forall₂ (fun a e => parse a = .ok e) formulas es) (op : BinaryOp)
    (sign : UnaryOp) {f : String} (hf : isVariableName f = true) :
    parse ("(" ++ a ++ ")" ++ op.symbol ++ "(" ++ b ++ ")") = .ok (call op.function [x, y]) ∧
      parse (sign.symbol ++ "(" ++ a ++ ")") = .ok (call sign.function [x]) ∧
      parse ("(" ++ a ++ ")") = .ok x ∧
      parse (f ++ "(" ++ ",".intercalate formulas ++ ")") = .ok (call (Text.lower f) es) :=
  ⟨parse_between op ha hb, parse_behind sign ha, parse_enclosed ha, parse_applied hf h⟩

/-- The comma and the quote of the first argument, and the operators of the others, stay where they
    are. -/
theorem parse_composed_quotedComma :
    parse "x|y" = .ok (call "__or" [.var "x", .var "y"]) ∧
      parse "\",(\"" = .ok (.text ",(") ∧
      (List.Forall₂ (fun a e => parse a = .ok e) ["\",(\"", "x|y"]
          [.text ",(", call "__or" [.var "x", .var "y"]]) ∧
      isVariableName "Join" = true ∧
      (parse ("(" ++ "x|y" ++ ")" ++ BinaryOp.notEqual.symbol ++ "(" ++ "\",(\"" ++ ")") =
          .ok (call "__neq" [call "__or" [.var "x", .var "y"], .text ",("]) ∧
        parse (UnaryOp.not.symbol ++ "(" ++ "x|y" ++ ")") =
          .ok (call "__not" [call "__or" [.var "x", .var "y"]]) ∧
        parse ("(" ++ "x|y" ++ ")") = .ok (call "__or" [.var "x", .var "y"]) ∧
        parse ("Join" ++ "(" ++ ",".intercalate ["\",(\"", "x|y"] ++ ")") =
          .ok (call (Text.lower "Join") [.text ",(", call "__or" [.var "x", .var "y"]])) := by
  have hor : parse "x|y" = .ok (call "__or" [.var "x", .var "y"]) := by cbv
  have hquoted : parse "\",(\"" = .ok (.text ",(") := by cbv
  have hargs : List.Forall₂ (fun a e => parse a = .ok e) ["\",(\"", "x|y"]
      [.text ",(", call "__or" [.var "x", .var "y"]] := .cons hquoted (.cons hor .nil)
  exact ⟨hor, hquoted, hargs, by decide,
    parse_composed hor hquoted hargs .notEqual .not (by decide)⟩

end Composed

end Expr

end SheetFormula
