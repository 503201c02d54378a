/-
  SheetFormula.Proofs.Parsing.Grammar

  The grammar of formulas: which tokens spell which expression.  Six levels of
  binary operators, each grouping to the left, stand over the operands; a level
  is said once, with the operators that belong to it in a table
  (`binaryOperators`).  Nothing here refers to how a formula is read.
-/
import SheetFormula.Expr.Parse

namespace SheetFormula

namespace Token

/-- Whether the token can name a variable or a function. -/
def IsName (t : Token) : Prop := t.kind = .identifier ∧ t.text ≠ "true" ∧ t.text ≠ "false"

end Token

namespace Grammar

/-! ## Operators -/

/-- The binary operators of a level, each symbol with the function that it calls. -/
def binaryOperators : Nat → List (String × String)
  | 1 => [("|", "__or")]
  | 2 => [("&", "__and")]
  | 3 => [("=", "__eq"), ("!=", "__neq")]
  | 4 => [(">", "__gt"), (">=", "__gte"), ("<", "__lt"), ("<=", "__lte")]
  | 5 => [("+", "__add"), ("-", "__sub")]
  | 6 => [("*", "__mul"), ("/", "__div")]
  | _ => []

/-- The operators in front of an operand, each symbol with the function that it calls. -/
def unaryOperators : List (String × String) := [("!", "__not"), ("-", "__neg")]

/-! ## Expressions -/

mutual

/-- The tokens spell the expression on a level: its outermost operator, if it has one outside
    parentheses, belongs to this level or to a later one. -/
inductive Derives : Nat → List Token → Expr → Prop
  | tighter {level : Nat} {ts : List Token} {e : Expr} :
      1 ≤ level → level ≤ 6 → Derives (level + 1) ts e → Derives level ts e
  | binary {level : Nat} {t : Token} {ts us : List Token} {left right : Expr}
      {function : String} :
      Derives level ts left → t.kind = .operator → (t.text, function) ∈ binaryOperators level →
      Derives (level + 1) us right → Derives level (ts ++ t :: us) (.call function [left, right])
  | operand {ts : List Token} {e : Expr} : Operand ts e → Derives 7 ts e

/-- The tokens spell an operand: prefix operators around a literal, a variable, a call or an
    expression in parentheses. -/
inductive Operand : List Token → Expr → Prop
  | unary {t : Token} {ts : List Token} {e : Expr} {function : String} :
      t.kind = .operator → (t.text, function) ∈ unaryOperators → Operand ts e →
      Operand (t :: ts) (.call function [e])
  | number {t : Token} {x : Float} :
      t.kind = .number → Numeral.literal? t.text.toList = some x → Operand [t] (.number x)
  | text {t : Token} : t.kind = .text → Operand [t] (.text t.text)
  | trueWord {t : Token} : t.kind = .identifier → t.text = "true" → Operand [t] (.bool true)
  | falseWord {t : Token} : t.kind = .identifier → t.text = "false" → Operand [t] (.bool false)
  | var {t : Token} : t.IsName → Operand [t] (.var t.text)
  | call {t opening closing : Token} {ts : List Token} {args : List Expr} :
      t.IsName → opening.isDelimiter "(" → Arguments ts args → closing.isDelimiter ")" →
      Operand (t :: opening :: (ts ++ [closing])) (.call (Text.lower t.text) args)
  | group {opening closing : Token} {ts : List Token} {e : Expr} :
      opening.isDelimiter "(" → Derives 1 ts e → closing.isDelimiter ")" →
      Operand (opening :: (ts ++ [closing])) e

/-- The tokens spell any number of expressions with commas between them. -/
inductive Arguments : List Token → List Expr → Prop
  | none : Arguments [] []
  | some {ts us : List Token} {e : Expr} {es : List Expr} :
      Derives 1 ts e → MoreArguments us es → Arguments (ts ++ us) (e :: es)

/-- The tokens spell expressions, each behind a comma. -/
inductive MoreArguments : List Token → List Expr → Prop
  | none : MoreArguments [] []
  | some {comma : Token} {ts us : List Token} {e : Expr} {es : List Expr} :
      comma.isDelimiter "," → Derives 1 ts e → MoreArguments us es →
      MoreArguments (comma :: (ts ++ us)) (e :: es)

end

/-! ## The tables and the operators -/

theorem mem_binaryOperators {level : Nat} {symbol function : String} :
    (symbol, function) ∈ binaryOperators level ↔
      ∃ op : BinaryOp, op.symbol = symbol ∧ op.strength = level ∧ op.function = function := by
  constructor
  · intro h
    obtain ⟨op, hop⟩ : ∃ op : BinaryOp, op.strength = level ∧ (op.symbol, op.function) =
        (symbol, function) := by
      unfold binaryOperators at h
      split at h <;> simp only [List.mem_cons, List.not_mem_nil, or_false] at h
      · exact ⟨.or, rfl, h.symm⟩
      · exact ⟨.and, rfl, h.symm⟩
      · rcases h with h | h
        · exact ⟨.equal, rfl, h.symm⟩
        · exact ⟨.notEqual, rfl, h.symm⟩
      · rcases h with h | h | h | h
        · exact ⟨.greater, rfl, h.symm⟩
        · exact ⟨.greaterEqual, rfl, h.symm⟩
        · exact ⟨.less, rfl, h.symm⟩
        · exact ⟨.lessEqual, rfl, h.symm⟩
      · rcases h with h | h
        · exact ⟨.add, rfl, h.symm⟩
        · exact ⟨.subtract, rfl, h.symm⟩
      · rcases h with h | h
        · exact ⟨.multiply, rfl, h.symm⟩
        · exact ⟨.divide, rfl, h.symm⟩
    obtain ⟨hs, hp⟩ := hop
    cases hp
    exact ⟨op, rfl, hs, rfl⟩
  · rintro ⟨op, rfl, rfl, rfl⟩
    cases op <;> simp [binaryOperators, BinaryOp.symbol, BinaryOp.strength, BinaryOp.function]

theorem mem_unaryOperators {symbol function : String} :
    (symbol, function) ∈ unaryOperators ↔
      ∃ op : UnaryOp, op.symbol = symbol ∧ op.function = function := by
  constructor
  · intro h
    simp only [unaryOperators, List.mem_cons, List.not_mem_nil, or_false, Prod.mk.injEq] at h
    rcases h with ⟨rfl, rfl⟩ | ⟨rfl, rfl⟩
    · exact ⟨.not, rfl, rfl⟩
    · exact ⟨.negate, rfl, rfl⟩
  · rintro ⟨op, rfl, rfl⟩
    cases op <;> simp [unaryOperators, UnaryOp.symbol, UnaryOp.function]

/-! ## Derived rules -/

theorem Derives.binaryOp {op : BinaryOp} {t : Token} {ts us : List Token} {left right : Expr}
    (hleft : Derives op.strength ts left) (hkind : t.kind = .operator)
    (htext : t.text = op.symbol) (hright : Derives (op.strength + 1) us right) :
    Derives op.strength (ts ++ t :: us) (op.apply left right) :=
  .binary hleft hkind (mem_binaryOperators.mpr ⟨op, htext.symm, rfl, rfl⟩) hright

theorem Operand.unaryOp {op : UnaryOp} {t : Token} {ts : List Token} {e : Expr}
    (hkind : t.kind = .operator) (htext : t.text = op.symbol) (h : Operand ts e) :
    Operand (t :: ts) (op.apply e) :=
  .unary hkind (mem_unaryOperators.mpr ⟨op, htext.symm, rfl⟩) h

/-- A level holds the expressions of all later ones. -/
theorem Derives.of_le {level level' : Nat} {ts : List Token} {e : Expr} (h : Derives level' ts e)
    (hpos : 1 ≤ level) (hle : level ≤ level') (hmax : level' ≤ 7) : Derives level ts e := by
  induction hle with
  | refl => exact h
  | step hle ih =>
      have h1 : 1 ≤ _ := Nat.le_trans hpos hle
      exact ih (.tighter h1 (by omega) h) (by omega)

/-- An operand is an expression of every level. -/
theorem derives_of_operand {level : Nat} {ts : List Token} {e : Expr} (h : Operand ts e)
    (hpos : 1 ≤ level) (hmax : level ≤ 7) : Derives level ts e :=
  (Derives.operand h).of_le hpos hmax (Nat.le_refl 7)

/-- What stands on the last level is an operand. -/
theorem Derives.operand_of_seven {ts : List Token} {e : Expr} (h : Derives 7 ts e) :
    Operand ts e := by
  generalize hlevel : 7 = level at h
  cases h with
  | tighter _ hmax _ => omega
  | binary _ _ hmem _ =>
      subst hlevel
      exact absurd hmem List.not_mem_nil
  | operand h => exact h

/-! ## The first token -/

mutual

/-- An expression begins with a token other than a closing parenthesis. -/
theorem Derives.exists_cons {level : Nat} {ts : List Token} {e : Expr} :
    Derives level ts e → ∃ t us, ts = t :: us ∧ t.isDelimiter ")" = false
  | .tighter _ _ h => h.exists_cons
  | .binary hleft _ _ _ => by
      obtain ⟨t, us, rfl, ht⟩ := hleft.exists_cons
      exact ⟨t, _, rfl, ht⟩
  | .operand h => h.exists_cons

theorem Operand.exists_cons {ts : List Token} {e : Expr} :
    Operand ts e → ∃ t us, ts = t :: us ∧ t.isDelimiter ")" = false
  | .unary hkind _ _ => ⟨_, _, rfl, by simp [Token.isDelimiter, hkind]⟩
  | .number hkind _ => ⟨_, _, rfl, by simp [Token.isDelimiter, hkind]⟩
  | .text hkind => ⟨_, _, rfl, by simp [Token.isDelimiter, hkind]⟩
  | .trueWord hkind _ => ⟨_, _, rfl, by simp [Token.isDelimiter, hkind]⟩
  | .falseWord hkind _ => ⟨_, _, rfl, by simp [Token.isDelimiter, hkind]⟩
  | .var hname => ⟨_, _, rfl, by simp [Token.isDelimiter, hname.1]⟩
  | .call hname _ _ _ => ⟨_, _, rfl, by simp [Token.isDelimiter, hname.1]⟩
  | .group hopen _ _ => by
      refine ⟨_, _, rfl, ?_⟩
      simp only [Token.isDelimiter, Bool.and_eq_true, beq_iff_eq] at hopen
      simp [Token.isDelimiter, hopen.2]

end

theorem Derives.ne_nil {level : Nat} {ts : List Token} {e : Expr} (h : Derives level ts e) :
    ts ≠ [] := by
  obtain ⟨t, us, rfl, _⟩ := h.exists_cons
  exact List.cons_ne_nil t us

theorem Operand.ne_nil {ts : List Token} {e : Expr} (h : Operand ts e) : ts ≠ [] := by
  obtain ⟨t, us, rfl, _⟩ := h.exists_cons
  exact List.cons_ne_nil t us

end Grammar

end SheetFormula
