/-
  SheetFormula.Library.Basic

  The functions that every engine has for its operators, and the library of
  functions that an engine may have beyond them, with the argument counts that
  they declare.  A missing argument counts as null.
-/
import SheetFormula.Host
import SheetFormula.Library.Numbers
import SheetFormula.Library.Operators
import SheetFormula.Library.Texts

namespace SheetFormula.Library

variable {σ : Type}

/-- The argument at a position, or null. -/
def arg (args : List Value) (position : Nat) : Value := args.getD position .null

/-- A function of the library with its declared counts. -/
def fallible (name : String) (minArgs : Nat) (maxArgs : Option Nat)
    (body : List Value → Except Error Value) : SheetFunction σ where
  name := name
  minArgs := minArgs
  maxArgs := maxArgs
  body := fun args => Host.ofExcept (body args)
  builtin := true

/-- A function of the library that cannot fail. -/
def total (name : String) (minArgs : Nat) (maxArgs : Option Nat) (body : List Value → Value) :
    SheetFunction σ := fallible name minArgs maxArgs fun args => .ok (body args)

/-- A function of any number of values. -/
def variadic (name : String) (f : List Value → Value) : SheetFunction σ := total name 0 none f

/-- A function of one value. -/
def unary (name : String) (f : Value → Value) : SheetFunction σ :=
  total name 1 (some 1) fun args => f (arg args 0)

/-- A function of two values. -/
def binary (name : String) (f : Value → Value → Value) : SheetFunction σ :=
  total name 2 (some 2) fun args => f (arg args 0) (arg args 1)

/-- A function of one number. -/
def unaryNumber (name : String) (f : Float → Float) : SheetFunction σ :=
  unary name fun a => .number (f a.toNumber)

/-- A function of two numbers. -/
def binaryNumber (name : String) (f : Float → Float → Float) : SheetFunction σ :=
  binary name fun a b => .number (f a.toNumber b.toNumber)

/-- A function of a text and an optional count of characters, whose name in capitals stands in its
refusals. -/
def counted (name : String) (f : Value → Nat → String) : SheetFunction σ :=
  fallible name 1 (some 2) fun args =>
    (count (Text.upper name) args[1]?).map fun n => .text (f (arg args 0) n)

/-- The functions of the operators. -/
def operators : List (SheetFunction σ) :=
  BinaryOp.all.map (fun op => binary op.function op.eval)
    ++ UnaryOp.all.map fun op => unary op.function op.eval

/-- Functions on numbers. -/
def numberFunctions : List (SheetFunction σ) :=
  [variadic "sum" fun args => .number (sum (numbers args)),
   variadic "mean" fun args => .number (mean (numbers args)),
   variadic "avg" fun args => .number (mean (numbers args)),
   variadic "min" fun args => .number (least (numbers args)),
   variadic "max" fun args => .number (greatest (numbers args)),
   unaryNumber "abs" Float.abs,
   total "round" 1 (some 2) fun args =>
     .number (round (arg args 0).toNumber (arg args 1).toNumber),
   unaryNumber "floor" Binary64.floor,
   unaryNumber "ceil" Binary64.ceil,
   unaryNumber "sqrt" Float.sqrt,
   binaryNumber "pow" Float.pow,
   binaryNumber "mod" modulo]

/-- Functions on texts. -/
def textFunctions : List (SheetFunction σ) :=
  [unary "len" fun a => .number (Binary64.ofNat (length a)),
   unary "upper" fun a => .text (Text.upper a.display),
   unary "lower" fun a => .text (Text.lower a.display),
   unary "trim" fun a => .text (trimmed a),
   variadic "concat" fun args => .text (concat args),
   counted "left" left,
   counted "right" right,
   binary "contains" fun a b => .bool (occursIn b.display.toList a.display.toList)]

/-- Functions on truth values, which look at all their arguments. -/
def truthFunctions : List (SheetFunction σ) :=
  [variadic "and" fun args => .bool (args.all Value.isTruthy),
   variadic "or" fun args => .bool (args.any Value.isTruthy),
   unary "not" Value.refuted]

/-- The functions of the operators and all functions of the library. -/
def standard : List (SheetFunction σ) :=
  operators ++ numberFunctions ++ textFunctions ++ truthFunctions

end SheetFormula.Library
