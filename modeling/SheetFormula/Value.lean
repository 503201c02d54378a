/-
  SheetFormula.Value

  The values that formulas compute with, and what each of them counts for when
  a truth value, a number or a text is asked for.
-/
import SheetFormula.Decimal.Numeral
import SheetFormula.Decimal.Positional
import SheetFormula.Text.Blank

namespace SheetFormula

/-- A number, a text, a truth value, or nothing. -/
inductive Value where
  | number (x : Float)
  | text (s : String)
  | bool (b : Bool)
  | null
  deriving DecidableEq, Repr

namespace Value

instance : Inhabited Value := ⟨null⟩

instance : Coe Float Value := ⟨number⟩

instance : Coe String Value := ⟨text⟩

instance : Coe Bool Value := ⟨bool⟩

/-- An integer as a value: the nearest number. -/
def ofInt (n : Int) : Value := number (Binary64.ofInt n)

/-- What is absent is null. -/
def ofOption {α : Type} (f : α → Value) : Option α → Value
  | some a => f a
  | none => null

/-! ## Kinds -/

/-- The name of the value's kind. -/
def typeName : Value → String
  | number _ => "number"
  | text _ => "string"
  | bool _ => "boolean"
  | null => "null"

/-- Whether the value is null. -/
def isNull : Value → Bool
  | null => true
  | _ => false

/-- Whether the value is a text. -/
def isText : Value → Bool
  | text _ => true
  | _ => false

/-- The number that the value is, without conversion. -/
def number? : Value → Option Float
  | number x => some x
  | _ => none

/-- The text that the value is, without conversion. -/
def text? : Value → Option String
  | text s => some s
  | _ => none

/-- The truth value that the value is, without conversion. -/
def bool? : Value → Option Bool
  | bool b => some b
  | _ => none

/-! ## Conversions -/

/-- Whether the value counts as true: zero, "not a number", the empty text, `false` and null do not. -/
def isTruthy : Value → Bool
  | number x => x != Binary64.ofNat 0 && !x.isNaN
  | text s => s != ""
  | bool b => b
  | null => false

/-- A letter that no decimal numeral holds. -/
def isForeignLetter (c : Char) : Bool := c.isAlpha && c != 'e' && c != 'E'

/-- The number that a text counts for: nothing but white space is zero, infinities have one spelling,
and what is no decimal numeral is "not a number". -/
def numberOfText (cs : List Char) : Float :=
  match Text.trim cs with
  | [] => Binary64.ofNat 0
  | cs =>
    if cs = "Infinity".toList ∨ cs = "+Infinity".toList then Binary64.infinity false
    else if cs = "-Infinity".toList then Binary64.infinity true
    -- Number literals have other names for the infinities, and each holds a letter.
    else if cs.any isForeignLetter then Binary64.nan
    else (Numeral.literal? cs).getD Binary64.nan

/-- The number that the value counts for in arithmetic. -/
def toNumber : Value → Float
  | number x => x
  | bool true => Binary64.ofNat 1
  | bool false => Binary64.ofNat 0
  | null => Binary64.ofNat 0
  | text s => numberOfText s.toList

/-- Numbers are shown with digits around a point from a millionth on and below `10 ^ 21`. -/
def numberLayout : NumberLayout where
  leastPlain := Binary64.ofRatio false 1 1000000
  plainLimit := Binary64.ofNat 1000000000000000000000
  notANumber := "NaN"
  infinity := "Infinity"

/-- The text that shows a number. -/
def numberText (x : Float) : String := String.ofList (numberLayout.text x)

/-- The text that shows the value. -/
def display : Value → String
  | number x => numberText x
  | text s => s
  | bool true => "true"
  | bool false => "false"
  | null => "null"

/-! ## Comparisons -/

/-- Equality without conversion; "not a number" does not equal itself, and the zeros are equal. -/
def strictEq : Value → Value → Bool
  | number x, number y => x == y
  | text s, text t => s == t
  | bool a, bool b => a == b
  | null, null => true
  | _, _ => false

/-- The order of two doubles; "not a number" has none. -/
def compareNumbers (x y : Float) : Option Ordering :=
  if x < y then some .lt
  else if x == y then some .eq
  else if y < x then some .gt
  else none

/-- The order of two values: two texts by code point, all else as numbers. -/
def compare : Value → Value → Option Ordering
  | text s, text t => some (Ord.compare s t)
  | a, b => compareNumbers a.toNumber b.toNumber

/-! ## Equations -/

@[simp] theorem toNumber_number (x : Float) : (number x).toNumber = x := rfl

@[simp] theorem display_text (s : String) : (text s).display = s := rfl

@[simp] theorem display_number (x : Float) : (number x).display = numberText x := rfl

@[simp] theorem compare_text (s t : String) :
    compare (text s) (text t) = some (Ord.compare s t) := rfl

/-- Values of different kinds are never strictly equal. -/
theorem strictEq_eq_false_of_typeName_ne {a b : Value} (h : a.typeName ≠ b.typeName) :
    strictEq a b = false := by
  cases a <;> cases b <;> first | rfl | exact absurd rfl h

end Value

end SheetFormula
