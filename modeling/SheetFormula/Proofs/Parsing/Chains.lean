/-
  SheetFormula.Proofs.Parsing.Chains

  Formulas that list operands, with one operator between them or as the
  arguments of a call, and with the spaces that one would write.  An operator
  groups to the left: a chain of any length is the fold of its operands from the
  left (`parse_chain`).
-/
import SheetFormula.Proofs.Parsing.Composition

namespace SheetFormula

/-- The operator with a space on either side. -/
def BinaryOp.spaced (op : BinaryOp) : String := " " ++ op.symbol ++ " "

namespace Expr

open Grammar Token

/-! ## Spaces -/

theorem stopsBefore_nil (kind : TokenKind) : kind.StopsBefore [] := by
  cases kind <;> simp [TokenKind.StopsBefore]

theorem yields_space {offset : Nat} {tail : List Char} : Yields offset [' '] tail [] :=
  yields_blank (by decide)

theorem stopsBefore_space (tail : List Char) (kind : TokenKind) : kind.StopsBefore (' ' :: tail) :=
  TokenKind.stopsBefore_blank (by decide) tail kind

/-! ## Operands -/

/-- Wherever the formula is put, it spells the expression as an operand. -/
def IsOperand (formula : String) (e : Expr) : Prop := YieldsAnywhere (Operand · e) formula.toList

theorem isOperand_var {name : String} (h : isVariableName name = true) :
    IsOperand name (var name) := by
  intro offset tail hstop
  obtain ⟨t, ht, hname, htext⟩ := exists_yields_word h offset (hstop .identifier)
  exact ⟨[t], ht, htext ▸ .var hname⟩

theorem isOperand_text {s : String} (h : '"' ∉ s.toList) :
    IsOperand ("\"" ++ s ++ "\"") (text s) := by
  intro offset tail _
  have hmaximal : Lexeme.IsMaximal .text ('"' :: (s.toList ++ ['"'])) tail := .text h
  have hyields : Yields offset _ tail _ := yields_lexeme (l := .quoted s) hmaximal
  have htext : (ofLexeme (.quoted s) offset).text = s := Lexeme.ofList_content_quoted s
  refine ⟨_, ?_, htext ▸ Operand.text rfl⟩
  simpa [Lexeme.quoted] using hyields

theorem parse_of_isOperand {formula : String} {e : Expr} (h : IsOperand formula e) :
    parse formula = .ok e :=
  let ⟨_, hts, hd⟩ := h 0 [] stopsBefore_nil
  parse_of_yields_operand hts hd

/-- A space in front of an operand changes nothing. -/
theorem parse_spaced {formula : String} {e : Expr} (h : IsOperand formula e) :
    parse (" " ++ formula) = .ok e := by
  obtain ⟨ts, hts, hd⟩ := h (0 + byteLength [' ']) [] stopsBefore_nil
  refine parse_of_yields_operand ?_ hd
  simpa using yields_space.append hts

/-! ## Chains of operands -/

section Chains

variable {op : BinaryOp}

theorem yieldsAnywhere_apply {cs ds : List Char} {x y : Expr}
    (hx : YieldsAnywhere (Derives op.strength · x) cs) (hy : YieldsAnywhere (Operand · y) ds) :
    YieldsAnywhere (Derives op.strength · (op.apply x y)) (cs ++ (op.spaced.toList ++ ds)) := by
  intro offset tail hstop
  -- The spaces end the lexemes in front of them and make no tokens.
  obtain ⟨ts, hts, hleft⟩ := hx offset ([' '] ++ (op.symbol.toList ++ ([' '] ++ ds)) ++ tail)
    (stopsBefore_space _)
  have hspace : TokenKind.operator.StopsBefore ([' '] ++ ds ++ tail) := stopsBefore_space _ _
  obtain ⟨t, ht, hkind, htext⟩ := exists_yields_symbol (Lexeme.isSymbol_binary op)
    (offset + byteLength cs + byteLength [' ']) hspace
  obtain ⟨us, hus, hright⟩ := hy (offset + byteLength cs + byteLength [' '] +
    byteLength op.symbol.toList + byteLength [' ']) tail hstop
  have hyields := hts.append (yields_space.append (ht.append (yields_space.append hus)))
  have hmax := op.strength_le_six
  refine ⟨ts ++ t :: us, ?_, hleft.binaryOp hkind htext
    (derives_of_operand hright (by omega) (by omega))⟩
  simpa [BinaryOp.spaced] using hyields

/-- A chain is folded up from the left, whatever its length. -/
theorem yieldsAnywhere_chain {operands : List String} {es : List Expr}
    (h : List.Forall₂ IsOperand operands es) {cs : List Char} {e : Expr}
    (hfirst : YieldsAnywhere (Derives op.strength · e) cs) :
    YieldsAnywhere (Derives op.strength · (es.foldl op.apply e))
      (cs ++ operands.flatMap fun b => op.spaced.toList ++ b.toList) := by
  -- What is already folded up is the first operand of the rest.
  induction h generalizing cs e with
  | nil => simpa using hfirst
  | cons ha _ ih => simpa using ih (yieldsAnywhere_apply hfirst ha)

/-- An operator between any number of operands takes them from the left. -/
theorem parse_chain (op : BinaryOp) {a : String} {e : Expr} {operands : List String}
    {es : List Expr} (ha : IsOperand a e) (h : List.Forall₂ IsOperand operands es) :
    parse (op.spaced.intercalate (a :: operands)) = .ok (es.foldl op.apply e) := by
  have hpos := op.one_le_strength
  have hmax := op.strength_le_six
  have hfirst : YieldsAnywhere (Derives op.strength · e) a.toList := fun offset tail hstop =>
    let ⟨ts, hts, hd⟩ := ha offset tail hstop
    ⟨ts, hts, derives_of_operand hd hpos (by omega)⟩
  obtain ⟨ts, hts, hd⟩ := yieldsAnywhere_chain h hfirst 0 [] stopsBefore_nil
  refine parse_of_yields ?_ (hd.of_le (Nat.le_refl 1) hpos (Nat.le_succ_of_le hmax))
  rwa [toList_intercalate]

end Chains

/-! ## Arguments -/

/-- The arguments of a call may have spaces between them. -/
theorem parse_listed {f : String} (hf : isVariableName f = true) {operands : List String}
    {es : List Expr} (h : List.Forall₂ IsOperand operands es) :
    parse (f ++ "(" ++ ", ".intercalate operands ++ ")") = .ok (callNamed f es) := by
  cases h with
  | nil => simpa using parse_applied hf .nil
  | @cons a e operands es ha hmore =>
      -- Each space belongs to the formula behind it.
      have hspaced : List.Forall₂ (fun a e => parse a = .ok e) (operands.map (" " ++ ·)) es :=
        List.forall₂_map_left_iff.mpr (hmore.imp fun _ _ => parse_spaced)
      have htext : ", ".intercalate (a :: operands) =
          ",".intercalate (a :: operands.map (" " ++ ·)) := by
        rw [← String.toList_inj, toList_intercalate, toList_intercalate, List.flatMap_map]
        simp
      rw [htext]
      exact parse_applied hf (.cons (parse_of_isOperand ha) hspaced)

end Expr

end SheetFormula
