/-
  SheetFormula.Rounding

  Rounding a quotient of natural numbers to the nearest integer.  Main
  statements: the result is within half a unit of the quotient
  (`two_mul_le_roundDiv`, `roundDiv_two_mul_le`), and an exact quotient is kept
  (`roundDiv_mul_self`).
-/

namespace SheetFormula

/-- Which neighbour an exact half goes to. -/
inductive Tie where
  /-- The even neighbour. -/
  | toEven
  /-- The larger neighbour. -/
  | up
  deriving DecidableEq, Repr

/-- The integer nearest to `num / den`; `tie` decides an exact half. -/
def roundDiv (tie : Tie) (num den : Nat) : Nat :=
  let q := num / den
  let r := num % den
  if 2 * r < den then q
  else if den < 2 * r then q + 1
  else match tie with
    | .toEven => q + q % 2
    | .up => q + 1

/-! ## Error bounds -/

/-- The result is at most one above the floor, and never below it. -/
theorem roundDiv_eq_or (tie : Tie) (num den : Nat) :
    roundDiv tie num den = num / den ∨ roundDiv tie num den = num / den + 1 := by
  unfold roundDiv
  cases tie <;> simp only <;> split <;> (try split) <;> omega

theorem div_le_roundDiv (tie : Tie) (num den : Nat) : num / den ≤ roundDiv tie num den := by
  rcases roundDiv_eq_or tie num den with h | h <;> omega

theorem roundDiv_le_div_add_one (tie : Tie) (num den : Nat) :
    roundDiv tie num den ≤ num / den + 1 := by
  rcases roundDiv_eq_or tie num den with h | h <;> omega

/-- An exact quotient is its own rounding. -/
theorem roundDiv_mul_self (tie : Tie) (n : Nat) {den : Nat} (h : 0 < den) :
    roundDiv tie (n * den) den = n := by
  simp [roundDiv, Nat.mul_div_cancel _ h, h]

@[simp] theorem roundDiv_one (tie : Tie) (n : Nat) : roundDiv tie n 1 = n := by
  simpa using roundDiv_mul_self tie n Nat.one_pos

@[simp] theorem roundDiv_zero (tie : Tie) {den : Nat} (h : 0 < den) : roundDiv tie 0 den = 0 := by
  simp [roundDiv, h]

/-- The quotient exceeds the result by at most half a unit. -/
theorem two_mul_le_roundDiv (tie : Tie) (num : Nat) {den : Nat} (h : 0 < den) :
    2 * num ≤ 2 * (roundDiv tie num den * den) + den := by
  have hr := Nat.mod_lt num h
  have hd := Nat.div_add_mod num den
  rw [Nat.mul_comm] at hd
  cases tie <;> simp only [roundDiv] <;> split <;> (try split) <;> (try rw [Nat.add_mul]) <;> omega

/-- The result exceeds the quotient by at most half a unit. -/
theorem roundDiv_two_mul_le (tie : Tie) (num : Nat) {den : Nat} (h : 0 < den) :
    2 * (roundDiv tie num den * den) ≤ 2 * num + den := by
  have hr := Nat.mod_lt num h
  have hd := Nat.div_add_mod num den
  rw [Nat.mul_comm] at hd
  have h2 : num / den % 2 * den ≤ den := by
    have : num / den % 2 ≤ 1 := by omega
    simpa using Nat.mul_le_mul_right den this
  cases tie <;> simp only [roundDiv] <;> split <;> (try split) <;> (try rw [Nat.add_mul]) <;> omega

end SheetFormula
