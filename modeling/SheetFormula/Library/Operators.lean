/-
  SheetFormula.Library.Operators

  What the operators compute.  Arithmetic takes its operands as numbers, except
  that `+` joins texts when one of the operands is a text.
-/
import SheetFormula.Expr.Basic
import SheetFormula.Value

namespace SheetFormula

namespace Value

/-- The sum, or the texts one after the other if one operand is a text. -/
def plus (a b : Value) : Value :=
  if a.isText || b.isText then text (a.display ++ b.display) else number (a.toNumber + b.toNumber)

/-- The difference of the numbers. -/
def minus (a b : Value) : Value := number (a.toNumber - b.toNumber)

/-- The product of the numbers. -/
def times (a b : Value) : Value := number (a.toNumber * b.toNumber)

/-- The quotient of the numbers; a division by zero gives an infinity or "not a number". -/
def dividedBy (a b : Value) : Value := number (a.toNumber / b.toNumber)

/-- The number with the other sign. -/
def negated (a : Value) : Value := number (-a.toNumber)

/-- Whether both operands count as true; both are looked at. -/
def both (a b : Value) : Value := bool (a.isTruthy && b.isTruthy)

/-- Whether one of the operands counts as true. -/
def either (a b : Value) : Value := bool (a.isTruthy || b.isTruthy)

/-- Whether the operand does not count as true. -/
def refuted (a : Value) : Value := bool !a.isTruthy

/-- Whether the operands stand in an order that the test accepts; what has no order passes no test. -/
def related (test : Ordering → Bool) (a b : Value) : Value := bool ((compare a b).any test)

end Value

/-- What a binary operator computes. -/
def BinaryOp.eval : BinaryOp → Value → Value → Value
  | or => Value.either
  | and => Value.both
  | equal => fun a b => .bool (a.strictEq b)
  | notEqual => fun a b => .bool !(a.strictEq b)
  | greater => Value.related Ordering.isGT
  | greaterEqual => Value.related Ordering.isGE
  | less => Value.related Ordering.isLT
  | lessEqual => Value.related Ordering.isLE
  | add => Value.plus
  | subtract => Value.minus
  | multiply => Value.times
  | divide => Value.dividedBy

/-- What a unary operator computes. -/
def UnaryOp.eval : UnaryOp → Value → Value
  | not => Value.refuted
  | negate => Value.negated

end SheetFormula
