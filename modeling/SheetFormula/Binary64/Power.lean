/-
  SheetFormula.Binary64.Power

  Whole powers by repeated squaring.  Products of doubles are rounded, so the
  order of the multiplications is part of the result and is fixed here.
-/
import SheetFormula.Binary64.Basic

namespace SheetFormula.Binary64

/-- Multiplies `acc` by `base ^ n`: the factors are the squares of `base` at the one bits of `n`,
lowest bit first. -/
def mulPow (acc base : Float) (n : Nat) : Float :=
  let acc := if n % 2 = 1 then acc * base else acc
  if n < 2 then acc else mulPow acc (base * base) (n / 2)

/-- `base ^ n`; a negative power is one divided by the positive one. -/
def powInt (base : Float) (n : Int) : Float :=
  let power := mulPow (ofNat 1) base n.natAbs
  if n < 0 then ofNat 1 / power else power

end SheetFormula.Binary64
