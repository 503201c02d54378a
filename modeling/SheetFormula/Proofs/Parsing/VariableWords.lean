/-
  SheetFormula.Proofs.Parsing.VariableWords

  The dependencies of a formula, read off its tokens.  A word names a variable
  unless it is a truth value or a parenthesis opens behind it; this takes one
  token of look-ahead and no expression.  Main statement: the dependencies are
  these words in their order, without later copies (`dependencies_eq_ok_iff`).

  Whatever shape the grammar gives an expression, it keeps the variables in the
  order of the tokens (`Derives.occurrences_eq`), since no part of an expression
  ends in a word behind which the next part opens a parenthesis.
-/
import SheetFormula.Expr.Variables
import SheetFormula.Proofs.Parsing.Derivation

namespace SheetFormula

/-! ## Words that name variables -/

namespace Token

/-- Whether the token names a variable, given the tokens behind it. -/
def isVariable (t : Token) (behind : List Token) : Bool :=
  t.kind == .identifier && t.text != "true" && t.text != "false" &&
    !behind.head?.any (·.isDelimiter "(")

/-- The words among the tokens that name variables, repetitions included. -/
def variableWords : List Token → List String
  | [] => []
  | t :: ts => if t.isVariable ts then t.text :: variableWords ts else variableWords ts

theorem variableWords_cons_of_kind {t : Token} (ts : List Token) (h : t.kind ≠ .identifier) :
    variableWords (t :: ts) = variableWords ts := by
  simp [variableWords, isVariable, h]

theorem variableWords_delimiter {t : Token} {text : String} (ts : List Token)
    (h : t.isDelimiter text = true) : variableWords (t :: ts) = variableWords ts := by
  simp only [isDelimiter, Bool.and_eq_true, beq_iff_eq] at h
  exact variableWords_cons_of_kind ts (by simp [h.1])

/-- The words on both sides of a cut are told apart by themselves, if no parenthesis opens behind
    it. -/
theorem variableWords_append (ts : List Token) {us : List Token}
    (h : us.head?.any (·.isDelimiter "(") = false) :
    variableWords (ts ++ us) = variableWords ts ++ variableWords us := by
  induction ts with
  | nil => rfl
  | cons t ts ih =>
      have hsame : t.isVariable (ts ++ us) = t.isVariable ts := by
        cases ts with
        | nil => simp [isVariable, h]
        | cons u ts => rfl
      rw [List.cons_append, variableWords, variableWords, hsame, ih]
      split <;> rfl

end Token

namespace Grammar

open Token

/-! ## Expressions keep the order of the words -/

theorem MoreArguments.head?_any_eq_false {ts : List Token} {es : List Expr}
    (h : MoreArguments ts es) : ts.head?.any (·.isDelimiter "(") = false := by
  cases h with
  | none => rfl
  | some hcomma _ _ => exact isDelimiter_eq_false hcomma (by decide)

/-- Parentheses around tokens are no words. -/
theorem variableWords_enclosed {opening closing : Token} (ts : List Token)
    (hopen : opening.isDelimiter "(" = true) (hclose : closing.isDelimiter ")" = true) :
    variableWords (opening :: (ts ++ [closing])) = variableWords ts := by
  have hstop : [closing].head?.any (·.isDelimiter "(") = false :=
    isDelimiter_eq_false hclose (by decide)
  rw [variableWords_delimiter _ hopen, variableWords_append ts hstop,
    variableWords_delimiter [] hclose, variableWords, List.append_nil]

mutual

theorem Derives.occurrences_eq {level : Nat} {ts : List Token} {e : Expr} :
    Derives level ts e → e.occurrences = variableWords ts
  | .tighter _ _ h => h.occurrences_eq
  | @Derives.binary _ t ts us _ _ _ hleft hkind _ hright => by
      have hstop : (t :: us).head?.any (·.isDelimiter "(") = false := by
        simp [Token.isDelimiter, hkind]
      rw [variableWords_append ts hstop, variableWords_cons_of_kind us (by simp [hkind])]
      simp only [Expr.occurrences, Expr.occurrencesIn, List.append_nil, hleft.occurrences_eq,
        hright.occurrences_eq]
  | .operand h => h.occurrences_eq

theorem Operand.occurrences_eq {ts : List Token} {e : Expr} :
    Operand ts e → e.occurrences = variableWords ts
  | .unary hkind _ h => by
      rw [variableWords_cons_of_kind _ (by simp [hkind])]
      simp only [Expr.occurrences, Expr.occurrencesIn, List.append_nil, h.occurrences_eq]
  | .number hkind _ => by
      rw [variableWords_cons_of_kind [] (by simp [hkind])]
      rfl
  | .text hkind => by
      rw [variableWords_cons_of_kind [] (by simp [hkind])]
      rfl
  | .trueWord _ htext => by
      simp [Expr.occurrences, variableWords, isVariable, htext]
  | .falseWord _ htext => by
      simp [Expr.occurrences, variableWords, isVariable, htext]
  | .var hname => by
      simp [Expr.occurrences, variableWords, isVariable, hname.1, hname.2.1, hname.2.2]
  | @Operand.call t opening closing ts args _ hopen hargs hclose => by
      -- The parenthesis behind the name keeps the name from being a variable.
      have happlied : t.isVariable (opening :: (ts ++ [closing])) = false := by
        simp [isVariable, hopen]
      rw [variableWords, happlied, variableWords_enclosed ts hopen hclose, Expr.occurrences]
      exact hargs.occurrencesIn_eq
  | @Operand.group _ _ ts _ hopen h hclose => by
      rw [variableWords_enclosed ts hopen hclose]
      exact h.occurrences_eq

theorem Arguments.occurrencesIn_eq {ts : List Token} {args : List Expr} :
    Arguments ts args → Expr.occurrencesIn args = variableWords ts
  | .none => rfl
  | @Arguments.some ts us _ _ h hmore => by
      rw [variableWords_append ts hmore.head?_any_eq_false, Expr.occurrencesIn, h.occurrences_eq,
        hmore.occurrencesIn_eq]

theorem MoreArguments.occurrencesIn_eq {ts : List Token} {args : List Expr} :
    MoreArguments ts args → Expr.occurrencesIn args = variableWords ts
  | .none => rfl
  | @MoreArguments.some comma ts us _ _ hcomma h hmore => by
      rw [variableWords_delimiter _ hcomma, variableWords_append ts hmore.head?_any_eq_false,
        Expr.occurrencesIn, h.occurrences_eq, hmore.occurrencesIn_eq]

end

end Grammar

namespace Expr

/-! ## Dependencies -/

/-- A formula has dependencies if its tokens are read as an expression, and they are the words that
    name variables among the tokens, in their order and without later copies. -/
theorem dependencies_eq_ok_iff {formula : String} {names : List String} :
    dependencies formula = .ok names ↔
      ∃ ts e, Token.scan formula = .ok ts ∧ ofTokens ts = .ok e ∧
        names = (Token.variableWords ts).eraseDups := by
  have hwords : ∀ ts e, ofTokens ts = .ok e →
      e.variableNames = (Token.variableWords ts).eraseDups := fun ts e htokens => by
    rw [variableNames, (Grammar.derives_of_ofTokens htokens).occurrences_eq]
  constructor
  · intro h
    cases hparse : parse formula with
    | error error =>
        rw [dependencies, hparse] at h
        cases h
    | ok e =>
        rw [dependencies, hparse] at h
        cases h
        obtain ⟨ts, hscan, htokens⟩ := parse_eq_ok_iff.mp hparse
        exact ⟨ts, e, hscan, htokens, hwords ts e htokens⟩
  · rintro ⟨ts, e, hscan, htokens, rfl⟩
    rw [dependencies, parse_eq_ok_iff.mpr ⟨ts, hscan, htokens⟩, ← hwords ts e htokens]
    rfl

/-- A word that is applied is no variable; not applied it is one. -/
example : (dependencies "f(true, x) - X * (f)").toOption = some ["x", "X", "f"] := by
  decide +kernel

end Expr

end SheetFormula
