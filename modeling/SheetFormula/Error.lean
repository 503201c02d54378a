/-
  SheetFormula.Error

  What can go wrong, by cause, with the kind and the wording of each cause.
-/

namespace SheetFormula

/-- The argument counts that would have been right. -/
inductive ExpectedCount where
  | atLeast (n : Nat)
  | atMost (n : Nat)
  | between (lo hi : Nat)
  deriving DecidableEq, Repr

/-- The causes of failure, from reading a formula to running it and to changing functions. -/
inductive Error where
  /-- No token starts with this character, which stands at this byte of the formula. -/
  | unexpectedCharacter (offset : Nat) (char : Char)
  /-- A parenthesis is still open where it should close. -/
  | missingClosingParen
  /-- A token stands where it cannot be used. -/
  | unexpectedToken (text : String)
  /-- The formula ends where an operand should stand. -/
  | unexpectedEnd
  /-- No value has this name. -/
  | variableNotFound (name : String)
  /-- No function has this name. -/
  | functionNotFound (name : String)
  /-- A function was to be added under a blank name. -/
  | blankFunctionName
  /-- A function that does not exist was to get a second name. -/
  | notAFunction
  /-- A function of the library was to be removed. -/
  | builtinFunction (name : String)
  /-- A function was called with too few or too many arguments. -/
  | argumentCount (function : String) (expected : ExpectedCount) (actual : Nat)
  /-- A function refuses an argument. -/
  | invalidArgument (reason : String)
  /-- A function of the host fails in its own words. -/
  | custom (message : String)
  deriving DecidableEq, Repr

/-- What a failure is about. -/
inductive ErrorKind where
  | lexical
  | grammar
  | name
  | registration
  | function
  deriving DecidableEq, Repr

namespace Error

/-- The kind of a cause. -/
def kind : Error → ErrorKind
  | unexpectedCharacter .. => .lexical
  | missingClosingParen | unexpectedToken _ | unexpectedEnd => .grammar
  | variableNotFound _ | functionNotFound _ => .name
  | blankFunctionName | notAFunction | builtinFunction _ => .registration
  | argumentCount .. | invalidArgument _ | custom _ => .function

/-- The wording of an expected count. -/
def expectedText : ExpectedCount → String
  | .atLeast n => "at least " ++ n.repr
  | .atMost n => "at most " ++ n.repr
  | .between lo hi => lo.repr ++ " to " ++ hi.repr

/-- The wording of a cause. -/
def message : Error → String
  | unexpectedCharacter offset c => "Unexpected character at " ++ offset.repr ++ ": " ++ c.toString
  | missingClosingParen => "Missing closing parenthesis"
  | unexpectedToken t => "Unexpected token: " ++ t
  | unexpectedEnd => "Unexpected end of input"
  | variableNotFound x => "Variable \"" ++ x ++ "\" not found"
  | functionNotFound f => "Function \"" ++ f ++ "\" not found"
  | blankFunctionName => "Function name must be a non-empty string"
  | notAFunction => "Function implementation must be a function"
  | builtinFunction f => "Cannot unregister built-in function \"" ++ f ++ "\""
  | argumentCount f expected actual =>
    "Wrong number of arguments for " ++ f ++ ": expected " ++ expectedText expected ++ ", got "
      ++ actual.repr
  | invalidArgument reason => "Invalid argument: " ++ reason
  | custom m => m

end Error

end SheetFormula
