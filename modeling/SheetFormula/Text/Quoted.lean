/-
  SheetFormula.Text.Quoted

  Texts between quotes, so that each character can be told: quotes and
  backslashes stand behind a backslash, some controls have letters, and what
  has no picture of its own is written as its code point.
-/
import SheetFormula.Text.Blank
import SheetFormula.Text.UnprintableTable

namespace SheetFormula.Text

/-- The character as it stands between quotes. -/
def quotedChar (c : Char) : List Char :=
  if c = '\x00' then ['\\', '0']
  else if c = '\t' then ['\\', 't']
  else if c = '\n' then ['\\', 'n']
  else if c = '\r' then ['\\', 'r']
  else if c = '"' ∨ c = '\\' then ['\\', c]
  else if inRanges unprintableRanges c.toNat then
    ['\\', 'u', '\x7b'] ++ Nat.toDigits 16 c.toNat ++ ['\x7d']
  else [c]

/-- The text between quotes. -/
def quoted (s : String) : String :=
  String.ofList ('"' :: (s.toList.flatMap quotedChar ++ ['"']))

end SheetFormula.Text
