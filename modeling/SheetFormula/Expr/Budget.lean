/-
  SheetFormula.Expr.Budget

  The budget of the parser is never used up.  Main statements: two units a
  token and two more suffice for an expression, which takes up at least one
  token (`within_expression`), and so parsing a token list never ends for want
  of budget (`expression_ne_exhausted`).
-/
import SheetFormula.Expr.Parse

namespace SheetFormula

/-- Of at most `n` tokens a result takes up at least one, an error perhaps none, and the budget
suffices. -/
def Reading.Within {α : Type} (n : Nat) : Reading α → Prop
  | .found _ rest => rest.length < n
  | .failed _ rest => rest.length ≤ n
  | .exhausted => False

theorem Reading.Within.mono {α : Type} {m n : Nat} {r : Reading α} (h : r.Within m) (hmn : m ≤ n) :
    r.Within n := by
  cases r with
  | found _ rest => exact Nat.lt_of_lt_of_le h hmn
  | failed _ rest => exact Nat.le_trans h hmn
  | exhausted => exact h

theorem Reading.Within.andThen {α β : Type} {m n : Nat} {r : Reading α}
    {next : α → List Token → Reading β} (h : r.Within m) (hmn : m ≤ n)
    (hnext : ∀ a rest, rest.length < m → (next a rest).Within n) : (r.andThen next).Within n := by
  cases r with
  | found a rest => exact hnext a rest h
  | failed _ rest => exact Nat.le_trans h hmn
  | exhausted => exact h

namespace Expr

theorem length_of_afterDelimiter? {text : String} {ts rest : List Token}
    (h : afterDelimiter? text ts = some rest) : rest.length + 1 = ts.length := by
  unfold afterDelimiter? at h
  split at h
  · split at h
    · cases h; rfl
    · cases h
  · cases h

theorem length_of_leadingOp? {floor : Nat} {ts rest : List Token} {op : BinaryOp}
    (h : leadingOp? floor ts = some (op, rest)) : rest.length + 1 = ts.length := by
  unfold leadingOp? at h
  split at h
  · split at h
    · split at h
      · split at h
        · cases h; rfl
        · cases h
      · cases h
    · cases h
  · cases h

theorem within_closed {α : Type} (a : α) (ts : List Token) : (closed a ts).Within ts.length := by
  unfold closed
  split
  · next h =>
    have := length_of_afterDelimiter? h
    simp only [Reading.Within]
    omega
  · exact Nat.le_refl _

/-- Every reader keeps within the tokens it is given, if its budget is large enough. -/
theorem within (budget : Nat) :
    (∀ floor ts, 2 * ts.length + 2 ≤ budget → (expression budget floor ts).Within ts.length) ∧
    (∀ floor left ts, 2 * ts.length + 1 ≤ budget →
      (operations budget floor left ts).Within (ts.length + 1)) ∧
    (∀ ts, 2 * ts.length + 1 ≤ budget → (operand budget ts).Within ts.length) ∧
    (∀ ts, 2 * ts.length + 3 ≤ budget → (arguments budget ts).Within ts.length) ∧
    (∀ ts, 2 * ts.length + 1 ≤ budget → (moreArguments budget ts).Within ts.length) := by
  induction budget with
  | zero => refine ⟨?_, ?_, ?_, ?_, ?_⟩ <;> intros <;> omega
  | succ budget ih =>
    obtain ⟨ihExpression, ihOperations, ihOperand, ihArguments, ihMore⟩ := ih
    refine ⟨?_, ?_, ?_, ?_, ?_⟩
    -- The operand takes up a token, and the operations go on with what it leaves.
    · intro floor ts hb
      rw [expression]
      refine (ihOperand ts (by omega)).andThen (Nat.le_refl _) fun left rest hr => ?_
      exact (ihOperations floor left rest (by omega)).mono hr
    -- Without an operator nothing is taken up; with one the operator pays for the next round.
    · intro floor left ts hb
      rw [operations]
      split
      · exact Nat.lt_succ_self _
      · next op rest h =>
        have hl := length_of_leadingOp? h
        refine (ihExpression _ rest (by omega)).andThen (by omega) fun right rest' hr => ?_
        exact (ihOperations floor _ rest' (by omega)).mono (by omega)
    -- The first token is always taken up, and pays for whatever stands behind it.
    · intro ts hb
      cases ts with
      | nil => exact Nat.le_refl 0
      | cons t ts =>
        have hl : (t :: ts).length = ts.length + 1 := rfl
        have hfound {α : Type} (a : α) : (Reading.found a ts).Within (t :: ts).length :=
          Nat.lt_succ_self _
        have hfailed (e : Error) : (Reading.failed e ts : Reading Expr).Within (t :: ts).length :=
          Nat.le_succ _
        rw [operand]
        split
        · split
          · refine (ihOperand ts (by omega)).andThen (by omega) fun e rest hr => ?_
            exact Nat.lt_trans hr (Nat.lt_succ_self _)
          · exact hfailed _
        · split
          · exact hfound _
          · exact hfailed _
        · exact hfound _
        · split
          · exact hfound _
          · split
            · exact hfound _
            · split
              · next rest h =>
                have := length_of_afterDelimiter? h
                refine (ihArguments rest (by omega)).andThen (by omega) fun args rest' hr => ?_
                simp only [Reading.Within]
                omega
              · exact hfound _
        · split
          · refine (ihExpression 0 ts (by omega)).andThen (by omega) fun e rest hr => ?_
            exact (within_closed e rest).mono (by omega)
          · exact hfailed _
    -- Either the closing parenthesis or the first argument takes up a token.
    · intro ts hb
      rw [arguments]
      split
      · next rest h =>
        have := length_of_afterDelimiter? h
        simp only [Reading.Within]
        omega
      · refine (ihExpression 0 ts (by omega)).andThen (Nat.le_refl _) fun e rest hr => ?_
        refine (ihMore rest (by omega)).andThen (by omega) fun es rest' hr' => ?_
        exact Nat.lt_trans hr' hr
    -- A comma pays for the argument behind it.
    · intro ts hb
      rw [moreArguments]
      split
      · next rest h =>
        have := length_of_afterDelimiter? h
        refine (ihExpression 0 rest (by omega)).andThen (by omega) fun e rest' hr => ?_
        refine (ihMore rest' (by omega)).andThen (by omega) fun es rest'' hr' => ?_
        simp only [Reading.Within]
        omega
      · exact within_closed [] ts

/-- Two units a token and two more suffice for an expression. -/
theorem within_expression {budget : Nat} {ts : List Token} (floor : Nat)
    (h : sufficientBudget ts.length ≤ budget) : (expression budget floor ts).Within ts.length :=
  (within budget).1 floor ts h

theorem expression_ne_exhausted (floor : Nat) (ts : List Token) :
    expression (sufficientBudget ts.length) floor ts ≠ .exhausted := by
  intro h
  have := within_expression floor (Nat.le_refl (sufficientBudget ts.length))
  rw [h] at this
  exact this

end Expr

end SheetFormula
