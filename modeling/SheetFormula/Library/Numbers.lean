/-
  SheetFormula.Library.Numbers

  Sums, means and extremes of argument lists, and functions of one or two
  numbers.  An empty list has the neutral element of its operation.
-/
import SheetFormula.Binary64.Integral
import SheetFormula.Library.Rounding
import SheetFormula.Value

namespace SheetFormula.Library

open Binary64

/-- The numbers that the arguments count for. -/
def numbers (args : List Value) : List Float := args.map Value.toNumber

/-- The sum from left to right; nothing sums up to negative zero. -/
def sum (xs : List Float) : Float := xs.foldl (· + ·) negZero

/-- The sum divided by the count; nothing has no mean. -/
def mean (xs : List Float) : Float := if xs.isEmpty then nan else sum xs / ofNat xs.length

/-- The number that a comparison prefers to all others, or "not a number" if that is among them. -/
def extreme (better : Float → Float → Bool) (neutral : Float) (xs : List Float) : Float :=
  if xs.any Float.isNaN then nan
  else xs.foldl (fun best x => if better x best then x else best) neutral

/-- The least number, infinity for none. -/
def least : List Float → Float := extreme (fun x best => x < best) (infinity false)

/-- The greatest number, negative infinity for none. -/
def greatest : List Float → Float := extreme (fun x best => best < x) (infinity true)

/-- The remainder of a division rounded down; a division by zero has none. -/
def modulo (x divisor : Float) : Float :=
  if divisor == ofNat 0 then nan else x - divisor * floor (x / divisor)

end SheetFormula.Library
