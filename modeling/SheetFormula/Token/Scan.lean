/-
  SheetFormula.Token.Scan

  Tokens: lexemes with the bytes of the formula that they span.  `Token.scan`
  cuts a formula into tokens and drops the white space between them; a
  character that begins neither is an error, and then there are no tokens.
-/
import SheetFormula.Error
import SheetFormula.Token.Lexeme

namespace SheetFormula

/-- A piece of a formula.  It spans the bytes from `start` up to but not including `stop`. -/
structure Token where
  kind : TokenKind
  /-- What the token says, for a text without quotes. -/
  text : String
  start : Nat
  stop : Nat
  deriving DecidableEq, Repr

namespace Token

/-- Whether this is the delimiter with the given text. -/
def isDelimiter (t : Token) (text : String) : Bool := t.kind == .delimiter && t.text == text

/-- The bytes that characters take up. -/
def byteLength : List Char → Nat
  | [] => 0
  | c :: cs => c.utf8Size + byteLength cs

@[simp] theorem byteLength_nil : byteLength [] = 0 := rfl

@[simp] theorem byteLength_cons (c : Char) (cs : List Char) :
    byteLength (c :: cs) = c.utf8Size + byteLength cs := rfl

@[simp] theorem byteLength_append (cs ds : List Char) :
    byteLength (cs ++ ds) = byteLength cs + byteLength ds := by
  induction cs with
  | nil => simp
  | cons c cs ih => simp [ih, Nat.add_assoc]

/-- A lexeme as a token that starts at a byte. -/
def ofLexeme (l : Lexeme) (start : Nat) : Token :=
  ⟨l.kind, String.ofList l.content, start, start + byteLength l.spelling⟩

/-- The tokens of characters that start at a byte. -/
def scanFrom (offset : Nat) : List Char → Except Error (List Token)
  | [] => .ok []
  | c :: cs =>
    if Text.isBlank c then scanFrom (offset + c.utf8Size) cs
    else
      match h : Lexeme.read? (c :: cs) with
      | none => .error (.unexpectedCharacter offset c)
      | some (l, rest) =>
        have : rest.length < cs.length + 1 := Lexeme.length_rest_lt h
        (scanFrom (offset + byteLength l.spelling) rest).map (ofLexeme l offset :: ·)
  termination_by cs => cs.length

/-- The tokens of a formula. -/
def scan (formula : String) : Except Error (List Token) := scanFrom 0 formula.toList

/-! ## Equations -/

@[simp] theorem scanFrom_nil (offset : Nat) : scanFrom offset [] = .ok [] := by
  rw [scanFrom]

theorem scanFrom_blank {offset : Nat} {c : Char} (cs : List Char) (h : Text.isBlank c = true) :
    scanFrom offset (c :: cs) = scanFrom (offset + c.utf8Size) cs := by
  rw [scanFrom, if_pos h]

theorem scanFrom_lexeme {offset : Nat} {c : Char} {cs rest : List Char} {l : Lexeme}
    (hc : Text.isBlank c = false) (h : Lexeme.read? (c :: cs) = some (l, rest)) :
    scanFrom offset (c :: cs)
      = (scanFrom (offset + byteLength l.spelling) rest).map (ofLexeme l offset :: ·) := by
  rw [scanFrom]
  simp only [hc, Bool.false_eq_true, if_false]
  split
  · next hn => rw [h] at hn; cases hn
  · next hn => rw [h] at hn; cases hn; rfl

theorem scanFrom_error {offset : Nat} {c : Char} {cs : List Char}
    (hc : Text.isBlank c = false) (h : Lexeme.read? (c :: cs) = none) :
    scanFrom offset (c :: cs) = .error (.unexpectedCharacter offset c) := by
  rw [scanFrom]
  simp only [hc, Bool.false_eq_true, if_false]
  split
  · rfl
  · next hn => rw [h] at hn; cases hn

end Token

end SheetFormula
