/-
  SheetFormula.Text.Case

  Capital and small letters by the full Unicode mappings, which depend on no
  language: a letter may become several, and a capital sigma becomes the final
  small sigma at the end of a word.
-/
import SheetFormula.Text.Blank
import SheetFormula.Text.CaseTable

namespace SheetFormula.Text

/-- The image of a code point: its expansion, else its partner, else itself. -/
def caseImage (expansions : List (Nat × List Nat)) (runs : List CaseRun) (n : Nat) : List Nat :=
  match expansions.lookup n with
  | some image => image
  | none => [(runs.findSome? (·.image? n)).getD n]

/-- The small form of a character by itself. -/
def lowerChar (c : Char) : List Char := (caseImage lowerExpansions lowerRuns c.toNat).map Char.ofNat

/-- The capital form of a character. -/
def upperChar (c : Char) : List Char := (caseImage upperExpansions upperRuns c.toNat).map Char.ofNat

/-- Whether a letter with a case comes next when marks are skipped. -/
def casedNext (cs : List Char) : Bool :=
  match cs.dropWhile fun c => inRanges caseIgnorableRanges c.toNat with
  | [] => false
  | c :: _ => inRanges casedRanges c.toNat

/-- Small letters, where the characters in `before`, the nearest first, precede the text.  A capital
sigma with a letter before it and none behind it ends a word. -/
def lowerAfter (before : List Char) : List Char → List Char
  | [] => []
  | c :: after =>
    (if c = 'Σ' then [if casedNext before && !casedNext after then 'ς' else 'σ'] else lowerChar c)
      ++ lowerAfter (c :: before) after

/-- The text in small letters. -/
def lower (s : String) : String := String.ofList (lowerAfter [] s.toList)

/-- The text in capital letters. -/
def upper (s : String) : String := String.ofList (s.toList.flatMap upperChar)

end SheetFormula.Text
