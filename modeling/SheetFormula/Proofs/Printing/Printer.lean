/-
  SheetFormula.Proofs.Printing.Printer

  Expressions as formulas.  Calls of operator functions are written with the
  operator's symbol, and an operand is put in parentheses only where its own
  operator binds too loosely for the place it stands in.  One space stands
  between two lexemes.  `Printable` says which expressions can be written.
-/
import SheetFormula.Proofs.Numbers.Plain
import SheetFormula.Expr.Parse

namespace SheetFormula

/-! ## Numbers -/

namespace Binary64

/-- A finite double whose sign bit is clear. -/
def IsUnsigned (x : Float) : Prop := magnitudeWord x < infinityWord ∧ isNegative x = false

instance (x : Float) : Decidable (IsUnsigned x) :=
  inferInstanceAs (Decidable (magnitudeWord x < infinityWord ∧ isNegative x = false))

end Binary64

/-- A way to write finite doubles as digits around a point that read back as the same double. -/
structure NumberFormat where
  digits : Float → Positional
  isPlain : ∀ x, Binary64.IsUnsigned x → (digits x).IsPlain
  unsigned : ∀ x, Binary64.IsUnsigned x → (digits x).negative = false
  reads_back : ∀ x, Binary64.IsUnsigned x → Numeral.literal? (digits x).text = some x

/-- The fewest digits that read back. -/
def NumberFormat.shortest : NumberFormat where
  digits x := (Decimal.shortest x).positional
  isPlain _ _ := Decimal.isPlain_positional _
  unsigned x h := by
    show (Decimal.shortest x).negative = false
    rw [Decimal.negative_shortest]
    exact h.2
  reads_back _ h := Numeral.literal?_shortest h.1

/-! ## Operators by the functions they call -/

/-- The binary operator that calls a function. -/
def BinaryOp.ofFunction? (name : String) : Option BinaryOp := all.find? (·.function == name)

/-- The unary operator that calls a function. -/
def UnaryOp.ofFunction? (name : String) : Option UnaryOp := all.find? (·.function == name)

theorem BinaryOp.ofFunction?_function (op : BinaryOp) : ofFunction? op.function = some op := by
  cases op <;> decide

theorem UnaryOp.ofFunction?_function (op : UnaryOp) : ofFunction? op.function = some op := by
  cases op <;> decide

/-! ## Lexemes -/

namespace Lexeme

/-- The lexeme of digits around a point. -/
def ofPositional (p : Positional) : Lexeme := ⟨.number, p.text⟩

/-- The lexeme of a text. -/
def quoted (s : String) : Lexeme := ⟨.text, '"' :: (s.toList ++ ['"'])⟩

/-- The lexeme of a name. -/
def word (name : String) : Lexeme := ⟨.identifier, name.toList⟩

/-- The lexeme of an operator's symbol. -/
def sign (symbol : String) : Lexeme := ⟨.operator, symbol.toList⟩

/-- The lexeme of a delimiter. -/
def mark (c : Char) : Lexeme := ⟨.delimiter, [c]⟩

@[simp] theorem ofList_content_quoted (s : String) : String.ofList (quoted s).content = s := by
  simp [quoted, content]

@[simp] theorem ofList_content_word (name : String) :
    String.ofList (word name).content = name := String.ofList_toList

@[simp] theorem ofList_content_sign (symbol : String) :
    String.ofList (sign symbol).content = symbol := String.ofList_toList

/-- The text of lexemes with one space between two of them. -/
def spelled : List Lexeme → List Char
  | [] => []
  | [l] => l.spelling
  | l :: m :: ls => l.spelling ++ ' ' :: spelled (m :: ls)

end Lexeme

/-! ## Phrases -/

/-- What an expression is written as.  The level is the strength of the operator outside
    parentheses; a phrase without one has the level 7. -/
structure Phrase where
  level : Nat
  lexemes : List Lexeme

namespace Phrase

/-- The phrase where a level is asked for; one of a lower level is put in parentheses. -/
def atLevel (floor : Nat) (p : Phrase) : List Lexeme :=
  if floor ≤ p.level then p.lexemes else .mark '(' :: (p.lexemes ++ [.mark ')'])

/-- Phrases, each behind a comma. -/
def behindCommas : List Phrase → List Lexeme
  | [] => []
  | p :: ps => .mark ',' :: (p.lexemes ++ behindCommas ps)

/-- Phrases with commas between them. -/
def separated : List Phrase → List Lexeme
  | [] => []
  | p :: ps => p.lexemes ++ behindCommas ps

/-- A name with arguments in parentheses. -/
def applied (name : String) (args : List Phrase) : Phrase :=
  ⟨7, .word name :: .mark '(' :: (separated args ++ [.mark ')'])⟩

/-- An operator between its operands.  Operators of one strength group to the left, so the right
    operand has to bind more tightly. -/
def infixed (op : BinaryOp) (left right : Phrase) : Phrase :=
  ⟨op.strength, left.atLevel op.strength ++ .sign op.symbol :: right.atLevel (op.strength + 1)⟩

/-- An operator in front of its operand. -/
def prefixed (op : UnaryOp) (operand : Phrase) : Phrase :=
  ⟨7, .sign op.symbol :: operand.atLevel 7⟩

/-- A call whose arguments have been written. -/
def ofCall (name : String) (args : List Phrase) : Phrase :=
  match args with
  | [left, right] =>
    match BinaryOp.ofFunction? name with
    | some op => infixed op left right
    | none => applied name args
  | [operand] =>
    match UnaryOp.ofFunction? name with
    | some op => prefixed op operand
    | none => applied name args
  | _ => applied name args

end Phrase

/-! ## Expressions -/

namespace Expr

mutual

/-- The phrase of an expression. -/
def phrase (format : NumberFormat) : Expr → Phrase
  | .number x => ⟨7, [.ofPositional (format.digits x)]⟩
  | .text s => ⟨7, [.quoted s]⟩
  | .bool true => ⟨7, [.word "true"]⟩
  | .bool false => ⟨7, [.word "false"]⟩
  | .var name => ⟨7, [.word name]⟩
  | .call name args => .ofCall name (phrases format args)

/-- The phrases of expressions. -/
def phrases (format : NumberFormat) : List Expr → List Phrase
  | [] => []
  | e :: es => phrase format e :: phrases format es

end

/-- The formula of an expression. -/
def print (format : NumberFormat) (e : Expr) : String :=
  String.ofList (Lexeme.spelled (e.phrase format).lexemes)

/-- A character that passes the first test and others that pass the second, but no truth value. -/
def isWord (first later : Char → Bool) (name : String) : Bool :=
  match name.toList with
  | [] => false
  | c :: cs => first c && cs.all later && name != "true" && name != "false"

/-- A name that a variable can have in a formula. -/
def isVariableName (name : String) : Bool := isWord Char.isAlpha Lexeme.isNameChar name

/-- A name that a function can have in a formula: all letters are small. -/
def isFunctionName (name : String) : Bool :=
  isWord Char.isLower (fun c => c.isLower || c.isDigit || c == '_') name

/-- The expressions that formulas can spell: numbers have no sign, no text has a quote in it, and
    a function is an operator's, with as many arguments, or has a name. -/
inductive Printable : Expr → Prop
  | number {x : Float} : Binary64.IsUnsigned x → Printable (.number x)
  | text {s : String} : '"' ∉ s.toList → Printable (.text s)
  | bool (b : Bool) : Printable (.bool b)
  | var {name : String} : isVariableName name = true → Printable (.var name)
  | binary (op : BinaryOp) {left right : Expr} : Printable left → Printable right →
      Printable (.call op.function [left, right])
  | unary (op : UnaryOp) {e : Expr} : Printable e → Printable (.call op.function [e])
  | call {name : String} {args : List Expr} : isFunctionName name = true →
      (∀ e ∈ args, Printable e) → Printable (.call name args)

end Expr

end SheetFormula
