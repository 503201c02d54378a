/-
  SheetFormula.Expr.Parse

  From tokens to expressions.  An expression is an operand followed by binary
  operators with their right operands; an operator takes part only if it is at
  least as strong as a given floor, and its right operand holds stronger
  operators only, so that operators of one strength group to the left.

  Each step costs one unit of a budget that is fixed beforehand: two units a
  token and two more, which is never used up.
-/
import SheetFormula.Decimal.Numeral
import SheetFormula.Expr.Basic
import SheetFormula.Token.Scan

namespace SheetFormula

/-- What reading the front of a token list comes to: a result or an error, each with the tokens that
follow, or a budget that was too small. -/
inductive Reading (α : Type) where
  | found (value : α) (rest : List Token)
  | failed (error : Error) (rest : List Token)
  | exhausted
  deriving Repr

namespace Reading

/-- Goes on after a result. -/
def andThen {α β : Type} (r : Reading α) (next : α → List Token → Reading β) : Reading β :=
  match r with
  | found value rest => next value rest
  | failed error rest => failed error rest
  | exhausted => exhausted

@[simp] theorem andThen_found {α β : Type} (a : α) (rest : List Token)
    (next : α → List Token → Reading β) : (found a rest).andThen next = next a rest := rfl

@[simp] theorem andThen_failed {α β : Type} (e : Error) (rest : List Token)
    (next : α → List Token → Reading β) : (failed e rest).andThen next = failed e rest := rfl

@[simp] theorem andThen_exhausted {α β : Type} (next : α → List Token → Reading β) :
    (exhausted : Reading α).andThen next = exhausted := rfl

end Reading

namespace Expr

/-! ## Single tokens -/

/-- The tokens after the given delimiter, if it comes next. -/
def afterDelimiter? (text : String) : List Token → Option (List Token)
  | t :: ts => if t.isDelimiter text then some ts else none
  | [] => none

/-- The result `a`, if a closing parenthesis comes next. -/
def closed {α : Type} (a : α) (ts : List Token) : Reading α :=
  match afterDelimiter? ")" ts with
  | some rest => .found a rest
  | none => .failed .missingClosingParen ts

/-- The binary operator that comes next and the tokens after it, if it is at least as strong as the
floor. -/
def leadingOp? (floor : Nat) : List Token → Option (BinaryOp × List Token)
  | t :: ts =>
    if t.kind = .operator then
      match BinaryOp.ofSymbol? t.text with
      | some op => if floor ≤ op.strength then some (op, ts) else none
      | none => none
    else none
  | [] => none

/-! ## Expressions -/

mutual

/-- An expression whose operators outside parentheses are at least as strong as the floor. -/
def expression : Nat → Nat → List Token → Reading Expr
  | 0, _, _ => .exhausted
  | budget + 1, floor, ts =>
    (operand budget ts).andThen fun left rest => operations budget floor left rest

/-- The operators and operands that follow the operand `left`. -/
def operations : Nat → Nat → Expr → List Token → Reading Expr
  | 0, _, _, _ => .exhausted
  | budget + 1, floor, left, ts =>
    match leadingOp? floor ts with
    | none => .found left ts
    | some (op, rest) =>
      (expression budget (op.strength + 1) rest).andThen fun right rest =>
        operations budget floor (op.apply left right) rest

/-- A literal, a variable, a call, an expression in parentheses, or an operand behind a unary
operator. -/
def operand : Nat → List Token → Reading Expr
  | 0, _ => .exhausted
  | _ + 1, [] => .failed .unexpectedEnd []
  | budget + 1, t :: ts =>
    match t.kind with
    | .operator =>
      match UnaryOp.ofSymbol? t.text with
      | some op => (operand budget ts).andThen fun e rest => .found (op.apply e) rest
      | none => .failed (.unexpectedToken t.text) ts
    | .number =>
      match Numeral.literal? t.text.toList with
      | some x => .found (.number x) ts
      | none => .failed (.unexpectedToken t.text) ts
    | .text => .found (.text t.text) ts
    | .identifier =>
      if t.text = "true" then .found (.bool true) ts
      else if t.text = "false" then .found (.bool false) ts
      else
        match afterDelimiter? "(" ts with
        | some rest =>
          (arguments budget rest).andThen fun args rest => .found (callNamed t.text args) rest
        | none => .found (.var t.text) ts
    | .delimiter =>
      if t.text = "(" then (expression budget 0 ts).andThen closed
      else .failed (.unexpectedToken t.text) ts

/-- Arguments separated by commas, up to and including the closing parenthesis. -/
def arguments : Nat → List Token → Reading (List Expr)
  | 0, _ => .exhausted
  | budget + 1, ts =>
    match afterDelimiter? ")" ts with
    | some rest => .found [] rest
    | none =>
      (expression budget 0 ts).andThen fun e rest =>
        (moreArguments budget rest).andThen fun es rest => .found (e :: es) rest

/-- The arguments behind the first, up to and including the closing parenthesis. -/
def moreArguments : Nat → List Token → Reading (List Expr)
  | 0, _ => .exhausted
  | budget + 1, ts =>
    match afterDelimiter? "," ts with
    | some rest =>
      (expression budget 0 rest).andThen fun e rest =>
        (moreArguments budget rest).andThen fun es rest => .found (e :: es) rest
    | none => closed [] ts

end

/-- A budget that suffices for this many tokens. -/
def sufficientBudget (tokens : Nat) : Nat := 2 * tokens + 2

/-- The expression that a whole token list stands for. -/
def ofTokens (ts : List Token) : Except Error Expr :=
  match expression (sufficientBudget ts.length) 0 ts with
  | .found e [] => .ok e
  | .found _ (t :: _) => .error (.unexpectedToken t.text)
  | .failed error _ => .error error
  | .exhausted => .error .unexpectedEnd

/-- The expression that a formula stands for. -/
def parse (formula : String) : Except Error Expr := do
  ofTokens (← Token.scan formula)

theorem parse_eq_ok_iff {formula : String} {e : Expr} :
    parse formula = .ok e ↔ ∃ ts, Token.scan formula = .ok ts ∧ ofTokens ts = .ok e := by
  rw [parse]
  cases hscan : Token.scan formula with
  | error error => simp [bind, Except.bind]
  | ok ts => simp [bind, Except.bind]

end Expr

end SheetFormula
