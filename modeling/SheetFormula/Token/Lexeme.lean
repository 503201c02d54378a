/-
  SheetFormula.Token.Lexeme

  Lexemes: the spelled pieces that formulas are made of.  `Lexeme.read?` takes
  the longest lexeme off the front of a text.  Main statement: nothing is lost,
  the text is the lexeme's spelling followed by the rest
  (`spelling_append_of_read?`), and a spelling is never empty
  (`spelling_ne_nil_of_read?`).
-/
import SheetFormula.Text.Blank

namespace SheetFormula

/-- The kinds of tokens. -/
inductive TokenKind where
  | number
  | text
  | identifier
  | operator
  | delimiter
  deriving DecidableEq, Repr

/-- A kind with the characters of the formula that spell it. -/
structure Lexeme where
  kind : TokenKind
  spelling : List Char
  deriving DecidableEq, Repr

namespace Lexeme

/-- What the lexeme says: its spelling, for a text without the quotes around it. -/
def content (l : Lexeme) : List Char :=
  match l.kind with
  | .text => l.spelling.tail.dropLast
  | _ => l.spelling

/-! ## One reader for each kind -/

/-- Characters between two quotes; none of them is a quote. -/
def text? : List Char → Option (Lexeme × List Char)
  | '"' :: cs =>
    match cs.dropWhile (· != '"') with
    | _ :: rest => some (⟨.text, '"' :: (cs.takeWhile (· != '"') ++ ['"'])⟩, rest)
    | [] => none
  | _ => none

/-- Digits, and a fraction of a point and more digits; one of the two may be missing.  A point
without a digit behind it is no part of a number. -/
def number? (cs : List Char) : Option (Lexeme × List Char) :=
  let whole := cs.takeWhile Char.isDigit
  let rest := cs.dropWhile Char.isDigit
  let fraction := (rest.drop 1).takeWhile Char.isDigit
  -- Without a digit behind the point only the whole part is read.
  if rest.head? = some '.' ∧ fraction ≠ [] then
    some (⟨.number, whole ++ '.' :: fraction⟩, (rest.drop 1).dropWhile Char.isDigit)
  else if whole ≠ [] then some (⟨.number, whole⟩, rest)
  else none

/-- A character that may stand in an identifier after the first. -/
def isNameChar (c : Char) : Bool := c.isAlphanum || c == '_'

/-- A letter and any number of letters, digits and underscores. -/
def identifier? : List Char → Option (Lexeme × List Char)
  | c :: cs =>
    if c.isAlpha then
      some (⟨.identifier, c :: cs.takeWhile isNameChar⟩, cs.dropWhile isNameChar)
    else none
  | [] => none

/-- The characters that begin an operator of two characters, the second being `=`. -/
def pairStarts : List Char := ['!', '>', '<']

/-- The characters that are operators by themselves. -/
def operatorChars : List Char := ['-', '+', '=', '>', '<', '&', '|', '*', '/', '!']

/-- An operator, of two characters where that is possible. -/
def operator? : List Char → Option (Lexeme × List Char)
  | c :: '=' :: cs =>
    if c ∈ pairStarts then some (⟨.operator, [c, '=']⟩, cs)
    else if c ∈ operatorChars then some (⟨.operator, [c]⟩, '=' :: cs)
    else none
  | c :: cs => if c ∈ operatorChars then some (⟨.operator, [c]⟩, cs) else none
  | [] => none

/-- The characters that group and separate arguments. -/
def delimiterChars : List Char := ['(', ')', ',']

/-- A delimiter. -/
def delimiter? : List Char → Option (Lexeme × List Char)
  | c :: cs => if c ∈ delimiterChars then some (⟨.delimiter, [c]⟩, cs) else none
  | [] => none

/-- The readers of all kinds. -/
def readers : List (List Char → Option (Lexeme × List Char)) :=
  [text?, number?, identifier?, operator?, delimiter?]

/-- The lexeme at the front of a text, with the rest of the text. -/
def read? (cs : List Char) : Option (Lexeme × List Char) := readers.findSome? (· cs)

/-! ## Nothing is lost -/

/-- A reader splits the text into a spelling that is not empty and the rest. -/
def Splits (reader : List Char → Option (Lexeme × List Char)) : Prop :=
  ∀ cs l rest, reader cs = some (l, rest) → l.spelling ++ rest = cs ∧ l.spelling ≠ []

theorem splits_text? : Splits text? := by
  intro cs l rest h
  unfold text? at h
  split at h
  · next cs =>
    split at h
    · next q r hd =>
      have hq : q = '"' := by
        have hhead := List.head?_dropWhile_not (· != '"') cs
        rw [hd] at hhead
        simpa using hhead
      have hsplit := List.takeWhile_append_dropWhile (p := (· != '"')) (l := cs)
      rw [hd, hq] at hsplit
      cases h
      exact ⟨by simpa using hsplit, by simp⟩
    · cases h
  · cases h

theorem splits_number? : Splits number? := by
  intro cs l rest h
  have hwhole := List.takeWhile_append_dropWhile (p := Char.isDigit) (l := cs)
  simp only [number?] at h
  split at h
  · next hpoint =>
    obtain ⟨hhead, _⟩ := hpoint
    cases hd : cs.dropWhile Char.isDigit with
    | nil => simp [hd] at hhead
    | cons c tail =>
      have hc : c = '.' := by simpa [hd] using hhead
      have hfraction := List.takeWhile_append_dropWhile (p := Char.isDigit) (l := tail)
      simp only [hd, List.drop_succ_cons, List.drop_zero] at h
      cases h
      refine ⟨?_, by simp⟩
      rw [List.append_assoc, List.cons_append, hfraction, ← hc, ← hd, hwhole]
  · split at h
    · next hne =>
      cases h
      exact ⟨hwhole, hne⟩
    · cases h

theorem splits_identifier? : Splits identifier? := by
  intro cs l rest h
  unfold identifier? at h
  split at h
  · split at h
    · cases h
      exact ⟨by simp [List.takeWhile_append_dropWhile], by simp⟩
    · cases h
  · cases h

theorem splits_operator? : Splits operator? := by
  intro cs l rest h
  unfold operator? at h
  split at h
  · split at h
    · cases h
      exact ⟨rfl, by simp⟩
    · split at h
      · cases h
        exact ⟨rfl, by simp⟩
      · cases h
  · split at h
    · cases h
      exact ⟨rfl, by simp⟩
    · cases h
  · cases h

theorem splits_delimiter? : Splits delimiter? := by
  intro cs l rest h
  unfold delimiter? at h
  split at h
  · split at h
    · cases h
      exact ⟨rfl, by simp⟩
    · cases h
  · cases h

theorem splits_read? : Splits read? := by
  intro cs l rest h
  obtain ⟨reader, hmem, hread⟩ := List.exists_of_findSome?_eq_some h
  have hall : ∀ r ∈ readers, Splits r := by
    simp [readers, splits_text?, splits_number?, splits_identifier?, splits_operator?,
      splits_delimiter?]
  exact hall reader hmem cs l rest hread

theorem spelling_append_of_read? {cs rest : List Char} {l : Lexeme} (h : read? cs = some (l, rest)) :
    l.spelling ++ rest = cs := (splits_read? _ _ _ h).1

theorem spelling_ne_nil_of_read? {cs rest : List Char} {l : Lexeme} (h : read? cs = some (l, rest)) :
    l.spelling ≠ [] := (splits_read? _ _ _ h).2

/-- Reading a lexeme makes the text shorter. -/
theorem length_rest_lt {cs rest : List Char} {l : Lexeme} (h : read? cs = some (l, rest)) :
    rest.length < cs.length := by
  have hs := spelling_append_of_read? h
  have hpos := List.length_pos_iff.mpr (spelling_ne_nil_of_read? h)
  rw [← hs, List.length_append]
  omega

end Lexeme

end SheetFormula
