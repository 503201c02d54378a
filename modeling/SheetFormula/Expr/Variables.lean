/-
  SheetFormula.Expr.Variables

  The variables that an expression reads, found without evaluating it.
-/
import SheetFormula.Expr.Parse

namespace SheetFormula.Expr

mutual

/-- The names of all variables from left to right, repetitions included. -/
def occurrences : Expr → List String
  | number _ | text _ | bool _ => []
  | var name => [name]
  | call _ args => occurrencesIn args

/-- The names of all variables of the arguments of a call. -/
def occurrencesIn : List Expr → List String
  | [] => []
  | e :: es => occurrences e ++ occurrencesIn es

end

/-- The names of the variables in the order of their first occurrences. -/
def variableNames (e : Expr) : List String := e.occurrences.eraseDups

/-- The names of the variables of a formula. -/
def dependencies (formula : String) : Except Error (List String) :=
  (parse formula).map variableNames

/-! ## First occurrences -/

theorem nodup_eraseDups (names : List String) : names.eraseDups.Nodup := by
  match names with
  | [] => simp
  | name :: names =>
      rw [List.eraseDups_cons, List.nodup_cons]
      exact ⟨by simp, nodup_eraseDups _⟩
termination_by names.length
decreasing_by exact Nat.lt_succ_of_le (List.length_filter_le _ _)

/-- Leaving names out of a list leaves them out of its first occurrences. -/
theorem eraseDups_filter (p : String → Bool) (names : List String) :
    (names.filter p).eraseDups = names.eraseDups.filter p := by
  match names with
  | [] => simp
  | name :: names =>
      have ih := eraseDups_filter p (names.filter fun other => !other == name)
      rw [List.eraseDups_cons, List.filter_cons, List.filter_cons, ← ih]
      cases hname : p name with
      | true =>
          rw [if_pos rfl, if_pos rfl, List.eraseDups_cons, List.filter_filter, List.filter_filter]
          simp only [Bool.and_comm]
      | false =>
          -- The copies of the name are not there to be left out.
          have hcopies : ∀ x ∈ names, (p x && !x == name) = p x := by
            intro x _
            by_cases hx : x = name
            · simp [hx, hname]
            · simp [hx]
          simp only [Bool.false_eq_true, if_false]
          rw [List.filter_filter, List.filter_congr hcopies]
termination_by names.length
decreasing_by exact Nat.lt_succ_of_le (List.length_filter_le _ _)

/-- Each variable is named once. -/
theorem nodup_variableNames (e : Expr) : e.variableNames.Nodup := nodup_eraseDups _

end SheetFormula.Expr
