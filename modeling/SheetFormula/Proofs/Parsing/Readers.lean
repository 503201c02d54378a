/-
  SheetFormula.Proofs.Parsing.Readers

  The readers without their budgets.  A reading that does not use up its budget
  stays the same under a larger one, so that a reader with a sufficient budget
  is a function of its tokens alone.  Main statements: every larger budget gives
  the same reading (`expression_eq_read`), and the readers satisfy the equations
  of their definitions with the budgets left out (`readExpression_eq`,
  `readOperations_eq`, `readOperand_cons`, `readArguments_eq`,
  `readMoreArguments_eq`).
-/
import SheetFormula.Expr.Budget

namespace SheetFormula

/-! ## Larger budgets -/

namespace Reading

variable {α β : Type}

/-- The second reading is the first one, unless the budget of the first was too small. -/
def Settles (r r' : Reading α) : Prop := r ≠ exhausted → r' = r

theorem Settles.refl (r : Reading α) : r.Settles r := fun _ => rfl

theorem settles_exhausted (r : Reading α) : (exhausted : Reading α).Settles r :=
  fun h => absurd rfl h

theorem Settles.andThen {r r' : Reading α} {next next' : α → List Token → Reading β}
    (h : r.Settles r') (hnext : ∀ a rest, (next a rest).Settles (next' a rest)) :
    (r.andThen next).Settles (r'.andThen next') := by
  cases r with
  | found a rest =>
      rw [h (by simp)]
      exact hnext a rest
  | failed e rest =>
      rw [h (by simp)]
      exact Settles.refl _
  | exhausted => exact settles_exhausted _

/-- Where one more unit of budget settles a reading, any larger budget does. -/
theorem eq_of_settles {read : Nat → Reading α} (hstep : ∀ b, (read b).Settles (read (b + 1)))
    {m n : Nat} (hmn : m ≤ n) (hm : read m ≠ exhausted) : read n = read m := by
  induction hmn with
  | refl => rfl
  | step _ ih =>
      rw [← ih] at hm ⊢
      exact hstep _ hm

theorem Within.ne_exhausted {n : Nat} {r : Reading α} (h : r.Within n) : r ≠ exhausted := by
  rintro rfl
  exact h

/-- Behind a result something was found twice. -/
theorem exists_of_andThen {r : Reading α} {next : α → List Token → Reading β} {b : β}
    {rest : List Token} (h : r.andThen next = found b rest) :
    ∃ a behind, r = found a behind ∧ next a behind = found b rest := by
  cases r with
  | found a behind => exact ⟨a, behind, rfl, h⟩
  | failed e behind => cases h
  | exhausted => cases h

/-- What comes after a reading matters only on the tokens that the reading can leave. -/
theorem Within.andThen_congr {n : Nat} {r : Reading α} {next next' : α → List Token → Reading β}
    (h : r.Within n) (hnext : ∀ a rest, rest.length < n → next a rest = next' a rest) :
    r.andThen next = r.andThen next' := by
  cases r with
  | found a rest => exact hnext a rest h
  | failed e rest => rfl
  | exhausted => rfl

end Reading

namespace Expr

open Reading

/-- One more unit of budget changes no reading that was not exhausted. -/
structure AllSettle (budget : Nat) : Prop where
  expression : ∀ floor ts, (expression budget floor ts).Settles (expression (budget + 1) floor ts)
  operations : ∀ floor left ts,
    (operations budget floor left ts).Settles (operations (budget + 1) floor left ts)
  operand : ∀ ts, (operand budget ts).Settles (operand (budget + 1) ts)
  arguments : ∀ ts, (arguments budget ts).Settles (arguments (budget + 1) ts)
  moreArguments : ∀ ts, (moreArguments budget ts).Settles (moreArguments (budget + 1) ts)

theorem allSettle_zero : AllSettle 0 where
  expression _ _ := settles_exhausted _
  operations _ _ _ := settles_exhausted _
  operand _ := settles_exhausted _
  arguments _ := settles_exhausted _
  moreArguments _ := settles_exhausted _

theorem settles_operand_succ {budget : Nat} (h : AllSettle budget) (ts : List Token) :
    (operand (budget + 1) ts).Settles (operand (budget + 2) ts) := by
  cases ts with
  | nil => exact Settles.refl _
  | cons t ts =>
      rw [operand, operand]
      -- Only what calls another reader can depend on the budget.
      cases t.kind with
      | operator =>
          cases UnaryOp.ofSymbol? t.text with
          | none => exact Settles.refl _
          | some op => exact (h.operand ts).andThen fun e rest => Settles.refl _
      | number => exact Settles.refl _
      | text => exact Settles.refl _
      | identifier =>
          show Settles (if t.text = "true" then _ else _) (if t.text = "true" then _ else _)
          split
          · exact Settles.refl _
          split
          · exact Settles.refl _
          cases afterDelimiter? "(" ts with
          | none => exact Settles.refl _
          | some rest => exact (h.arguments rest).andThen fun args rest => Settles.refl _
      | delimiter =>
          show Settles (if t.text = "(" then _ else _) (if t.text = "(" then _ else _)
          split
          · exact (h.expression 0 ts).andThen fun e rest => Settles.refl _
          · exact Settles.refl _

theorem allSettle_succ {budget : Nat} (h : AllSettle budget) : AllSettle (budget + 1) where
  expression := by
    intro floor ts
    rw [Expr.expression, Expr.expression]
    exact (h.operand ts).andThen fun left rest => h.operations floor left rest
  operations := by
    intro floor left ts
    rw [Expr.operations, Expr.operations]
    cases leadingOp? floor ts with
    | none => exact Settles.refl _
    | some found =>
        exact (h.expression _ _).andThen fun right rest => h.operations floor _ rest
  operand := settles_operand_succ h
  arguments := by
    intro ts
    rw [Expr.arguments, Expr.arguments]
    cases afterDelimiter? ")" ts with
    | some rest => exact Settles.refl _
    | none =>
        exact (h.expression 0 ts).andThen fun e rest =>
          (h.moreArguments rest).andThen fun es rest => Settles.refl _
  moreArguments := by
    intro ts
    rw [Expr.moreArguments, Expr.moreArguments]
    cases afterDelimiter? "," ts with
    | none => exact Settles.refl _
    | some rest =>
        exact (h.expression 0 rest).andThen fun e rest =>
          (h.moreArguments rest).andThen fun es rest => Settles.refl _

theorem allSettle (budget : Nat) : AllSettle budget := by
  induction budget with
  | zero => exact allSettle_zero
  | succ budget ih => exact allSettle_succ ih

/-! ## Readers without a budget -/

/-- An expression whose operators outside parentheses are at least as strong as the floor. -/
def readExpression (floor : Nat) (ts : List Token) : Reading Expr :=
  expression (sufficientBudget ts.length) floor ts

/-- The operators and operands that follow the operand `left`. -/
def readOperations (floor : Nat) (left : Expr) (ts : List Token) : Reading Expr :=
  operations (2 * ts.length + 1) floor left ts

/-- An operand. -/
def readOperand (ts : List Token) : Reading Expr := operand (2 * ts.length + 1) ts

/-- Arguments and the closing parenthesis. -/
def readArguments (ts : List Token) : Reading (List Expr) := arguments (2 * ts.length + 3) ts

/-- The arguments behind the first and the closing parenthesis. -/
def readMoreArguments (ts : List Token) : Reading (List Expr) :=
  moreArguments (2 * ts.length + 1) ts

theorem expression_eq_read {budget : Nat} {ts : List Token} (floor : Nat)
    (h : 2 * ts.length + 2 ≤ budget) : expression budget floor ts = readExpression floor ts :=
  eq_of_settles (fun b => (allSettle b).expression floor ts) h
    ((within _).1 floor ts (Nat.le_refl _)).ne_exhausted

theorem operations_eq_read {budget : Nat} {ts : List Token} (floor : Nat) (left : Expr)
    (h : 2 * ts.length + 1 ≤ budget) :
    operations budget floor left ts = readOperations floor left ts :=
  eq_of_settles (fun b => (allSettle b).operations floor left ts) h
    ((within _).2.1 floor left ts (Nat.le_refl _)).ne_exhausted

theorem operand_eq_read {budget : Nat} {ts : List Token} (h : 2 * ts.length + 1 ≤ budget) :
    operand budget ts = readOperand ts :=
  eq_of_settles (fun b => (allSettle b).operand ts) h
    ((within _).2.2.1 ts (Nat.le_refl _)).ne_exhausted

theorem arguments_eq_read {budget : Nat} {ts : List Token} (h : 2 * ts.length + 3 ≤ budget) :
    arguments budget ts = readArguments ts :=
  eq_of_settles (fun b => (allSettle b).arguments ts) h
    ((within _).2.2.2.1 ts (Nat.le_refl _)).ne_exhausted

theorem moreArguments_eq_read {budget : Nat} {ts : List Token} (h : 2 * ts.length + 1 ≤ budget) :
    moreArguments budget ts = readMoreArguments ts :=
  eq_of_settles (fun b => (allSettle b).moreArguments ts) h
    ((within _).2.2.2.2 ts (Nat.le_refl _)).ne_exhausted

/-! ## Fewer tokens are left -/

theorem within_readExpression (floor : Nat) (ts : List Token) :
    (readExpression floor ts).Within ts.length := (within _).1 floor ts (Nat.le_refl _)

theorem within_readOperand (ts : List Token) : (readOperand ts).Within ts.length :=
  (within _).2.2.1 ts (Nat.le_refl _)

/-! ## Equations -/

theorem readExpression_eq (floor : Nat) (ts : List Token) :
    readExpression floor ts =
      (readOperand ts).andThen fun left rest => readOperations floor left rest := by
  rw [readExpression, sufficientBudget, expression]
  refine (within_readOperand ts).andThen_congr fun left rest hr => ?_
  exact operations_eq_read floor left (by omega)

theorem readOperations_eq (floor : Nat) (left : Expr) (ts : List Token) :
    readOperations floor left ts =
      match leadingOp? floor ts with
      | none => .found left ts
      | some (op, rest) =>
        (readExpression (op.strength + 1) rest).andThen fun right rest =>
          readOperations floor (op.apply left right) rest := by
  rw [readOperations, operations]
  cases h : leadingOp? floor ts with
  | none => rfl
  | some found =>
      obtain ⟨op, rest⟩ := found
      have hl := length_of_leadingOp? h
      simp only
      rw [expression_eq_read _ (by omega)]
      refine (within_readExpression _ rest).andThen_congr fun right rest' hr => ?_
      exact operations_eq_read floor _ (by omega)

theorem readOperand_cons (t : Token) (ts : List Token) :
    readOperand (t :: ts) =
      match t.kind with
      | .operator =>
        match UnaryOp.ofSymbol? t.text with
        | some op => (readOperand ts).andThen fun e rest => .found (op.apply e) rest
        | none => .failed (.unexpectedToken t.text) ts
      | .number =>
        match Numeral.literal? t.text.toList with
        | some x => .found (.number x) ts
        | none => .failed (.unexpectedToken t.text) ts
      | .text => .found (.text t.text) ts
      | .identifier =>
        if t.text = "true" then .found (.bool true) ts
        else if t.text = "false" then .found (.bool false) ts
        else
          match afterDelimiter? "(" ts with
          | some rest =>
            (readArguments rest).andThen fun args rest => .found (callNamed t.text args) rest
          | none => .found (.var t.text) ts
      | .delimiter =>
        if t.text = "(" then (readExpression 0 ts).andThen closed
        else .failed (.unexpectedToken t.text) ts := by
  have hl : (t :: ts).length = ts.length + 1 := rfl
  rw [readOperand, operand]
  rw [operand_eq_read (by omega), expression_eq_read 0 (by omega)]
  -- The arguments of a call have two tokens less, which is what their larger budget takes.
  cases h : afterDelimiter? "(" ts with
  | none => rfl
  | some rest =>
      have := length_of_afterDelimiter? h
      have hargs : arguments (2 * (t :: ts).length) rest = readArguments rest :=
        arguments_eq_read (by omega)
      cases t.kind with
      | identifier => simp only [hargs]
      | operator | number | text | delimiter => rfl

theorem readArguments_eq (ts : List Token) :
    readArguments ts =
      match afterDelimiter? ")" ts with
      | some rest => .found [] rest
      | none =>
        (readExpression 0 ts).andThen fun e rest =>
          (readMoreArguments rest).andThen fun es rest => .found (e :: es) rest := by
  rw [readArguments, arguments]
  rw [expression_eq_read 0 (by omega)]
  cases afterDelimiter? ")" ts with
  | some rest => rfl
  | none =>
      refine (within_readExpression 0 ts).andThen_congr fun e rest hr => ?_
      rw [moreArguments_eq_read (by omega)]

theorem readMoreArguments_eq (ts : List Token) :
    readMoreArguments ts =
      match afterDelimiter? "," ts with
      | some rest =>
        (readExpression 0 rest).andThen fun e rest =>
          (readMoreArguments rest).andThen fun es rest => .found (e :: es) rest
      | none => closed [] ts := by
  rw [readMoreArguments, moreArguments]
  cases h : afterDelimiter? "," ts with
  | none => rfl
  | some rest =>
      have hl := length_of_afterDelimiter? h
      simp only
      rw [expression_eq_read 0 (by omega)]
      refine (within_readExpression 0 rest).andThen_congr fun e rest' hr => ?_
      rw [moreArguments_eq_read (by omega)]

/-- What a whole token list stands for, read without a budget. -/
theorem ofTokens_eq (ts : List Token) :
    ofTokens ts =
      match readExpression 0 ts with
      | .found e [] => .ok e
      | .found _ (t :: _) => .error (.unexpectedToken t.text)
      | .failed error _ => .error error
      | .exhausted => .error .unexpectedEnd := rfl

end Expr

end SheetFormula
