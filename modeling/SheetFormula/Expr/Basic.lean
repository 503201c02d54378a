/-
  SheetFormula.Expr.Basic

  Expressions: literals, variables and calls.  Operators are calls of functions
  whose names begin with two underscores; the tables of the operators give each
  one's symbol, its strength and its function.
-/
import SheetFormula.Text.Case

namespace SheetFormula

/-- A formula as a tree. -/
inductive Expr where
  | number (x : Float)
  | text (s : String)
  | bool (b : Bool)
  /-- The value of a name, spelled as in the formula. -/
  | var (name : String)
  | call (function : String) (args : List Expr)
  deriving Repr

namespace Expr

/-- A call of a function whose name may be written in any letter case. -/
def callNamed (name : String) (args : List Expr) : Expr := call (Text.lower name) args

/-- Whether the expression is a literal. -/
def isLiteral : Expr → Bool
  | number _ | text _ | bool _ => true
  | var _ | call .. => false

end Expr

/-! ## Binary operators -/

/-- The operators between two operands. -/
inductive BinaryOp where
  | or
  | and
  | equal
  | notEqual
  | greater
  | greaterEqual
  | less
  | lessEqual
  | add
  | subtract
  | multiply
  | divide
  deriving DecidableEq, Repr

namespace BinaryOp

/-- All binary operators, weaker ones first. -/
def all : List BinaryOp :=
  [or, and, equal, notEqual, greater, greaterEqual, less, lessEqual, add, subtract, multiply, divide]

/-- How the operator is written. -/
def symbol : BinaryOp → String
  | or => "|"
  | and => "&"
  | equal => "="
  | notEqual => "!="
  | greater => ">"
  | greaterEqual => ">="
  | less => "<"
  | lessEqual => "<="
  | add => "+"
  | subtract => "-"
  | multiply => "*"
  | divide => "/"

/-- How tightly the operator binds; a stronger operator takes its operands first. -/
def strength : BinaryOp → Nat
  | or => 1
  | and => 2
  | equal | notEqual => 3
  | greater | greaterEqual | less | lessEqual => 4
  | add | subtract => 5
  | multiply | divide => 6

/-- The function that the operator calls. -/
def function : BinaryOp → String
  | or => "__or"
  | and => "__and"
  | equal => "__eq"
  | notEqual => "__neq"
  | greater => "__gt"
  | greaterEqual => "__gte"
  | less => "__lt"
  | lessEqual => "__lte"
  | add => "__add"
  | subtract => "__sub"
  | multiply => "__mul"
  | divide => "__div"

/-- The operator with a symbol. -/
def ofSymbol? (symbol : String) : Option BinaryOp := all.find? (·.symbol == symbol)

/-- The operator between two operands. -/
def apply (op : BinaryOp) (left right : Expr) : Expr := .call op.function [left, right]

theorem mem_all (op : BinaryOp) : op ∈ all := by cases op <;> decide

theorem ofSymbol?_symbol (op : BinaryOp) : ofSymbol? op.symbol = some op := by
  cases op <;> decide

theorem symbol_of_ofSymbol? {s : String} {op : BinaryOp} (h : ofSymbol? s = some op) :
    op.symbol = s := by
  simpa using List.find?_some h

theorem one_le_strength (op : BinaryOp) : 1 ≤ op.strength := by cases op <;> decide

theorem strength_le_six (op : BinaryOp) : op.strength ≤ 6 := by cases op <;> decide

end BinaryOp

/-! ## Unary operators -/

/-- The operators in front of one operand. -/
inductive UnaryOp where
  | not
  | negate
  deriving DecidableEq, Repr

namespace UnaryOp

/-- All unary operators. -/
def all : List UnaryOp := [not, negate]

/-- How the operator is written. -/
def symbol : UnaryOp → String
  | not => "!"
  | negate => "-"

/-- The function that the operator calls. -/
def function : UnaryOp → String
  | not => "__not"
  | negate => "__neg"

/-- The operator with a symbol. -/
def ofSymbol? (symbol : String) : Option UnaryOp := all.find? (·.symbol == symbol)

/-- The operator in front of an operand. -/
def apply (op : UnaryOp) (operand : Expr) : Expr := .call op.function [operand]

theorem mem_all (op : UnaryOp) : op ∈ all := by cases op <;> decide

theorem ofSymbol?_symbol (op : UnaryOp) : ofSymbol? op.symbol = some op := by
  cases op <;> decide

theorem symbol_of_ofSymbol? {s : String} {op : UnaryOp} (h : ofSymbol? s = some op) :
    op.symbol = s := by
  simpa using List.find?_some h

end UnaryOp

end SheetFormula
