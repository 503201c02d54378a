/-
  SheetFormula.Binary64.Integral

  Integers next to a double: `floor`, `ceil`, `trunc` and rounding a half away
  from zero.  Each keeps the sign, so that what rounds to zero from below is
  the negative zero, and each leaves integers, infinities and "not a number"
  alone.
-/
import SheetFormula.Binary64.Basic

namespace SheetFormula.Binary64

/-- Whether the double is an integer; no infinity is. -/
def isIntegral (x : Float) : Bool :=
  match shape x with
  | .finite _ units => units % unitsPerOne == 0
  | _ => false

/-- The least whole number that is no less than `units / unitsPerOne`. -/
def wholeAbove (units : Nat) : Nat := (units + (unitsPerOne - 1)) / unitsPerOne

/-- The greatest whole number that is no greater than `units / unitsPerOne`. -/
def wholeBelow (units : Nat) : Nat := units / unitsPerOne

/-- Rounds a finite double that is no integer to one, magnitude by magnitude: `whole` says, for a
sign and a number of units, what becomes of the magnitude. -/
def toIntegral (whole : Bool → Nat → Nat) (x : Float) : Float :=
  match shape x with
  | .finite negative units =>
    if units % unitsPerOne = 0 then x else ofRatio negative (whole negative units) 1
  | _ => x

/-- The greatest integer that is no greater. -/
def floor : Float → Float :=
  toIntegral fun negative units => if negative then wholeAbove units else wholeBelow units

/-- The least integer that is no less. -/
def ceil : Float → Float :=
  toIntegral fun negative units => if negative then wholeBelow units else wholeAbove units

/-- The integer part. -/
def trunc : Float → Float := toIntegral fun _ units => wholeBelow units

/-- The nearest integer, a half away from zero. -/
def roundHalfAway : Float → Float :=
  toIntegral fun _ units => roundDiv .up units unitsPerOne

/-- The integer nearest to the integer part within the bounds `lo ≤ hi`: an infinity goes to its
bound, and "not a number" counts as zero. -/
def toIntWithin (lo hi : Int) (x : Float) : Int :=
  match shape x with
  | .finite true units => max lo (min hi (-(wholeBelow units : Int)))
  | .finite false units => max lo (min hi (wholeBelow units : Int))
  | .infinite true => lo
  | .infinite false => hi
  | .notANumber => max lo (min hi 0)

theorem le_toIntWithin {lo hi : Int} (h : lo ≤ hi) (x : Float) : lo ≤ toIntWithin lo hi x := by
  unfold toIntWithin
  split <;> omega

theorem toIntWithin_le {lo hi : Int} (h : lo ≤ hi) (x : Float) : toIntWithin lo hi x ≤ hi := by
  unfold toIntWithin
  split <;> omega

end SheetFormula.Binary64
