/-
  SheetFormula.Proofs.Evaluation.Dependencies

  An expression depends on no variables but those that it names: scopes that
  give these the same values cannot be told apart by any run of it, since every
  variable that is looked up is a part of the expression.
-/
import SheetFormula.Engine
import SheetFormula.Proofs.Evaluation.Run

namespace SheetFormula

variable {σ : Type}

/-- The scopes give the names the same values, or none. -/
def Scope.AgreeOn (names : List String) (s₁ s₂ : Scope) : Prop :=
  ∀ name ∈ names, s₁.get? name = s₂.get? name

namespace Expr

variable {s₁ s₂ : Scope}

/-! ## Evaluation looks at occurrences only -/

theorem eval_eq_of_agreeOn (functions : FunctionTable σ) (checkArity : Bool) (e : Expr)
    (h : s₁.AgreeOn e.occurrences s₂) :
    e.eval ⟨s₁, functions, checkArity⟩ = e.eval ⟨s₂, functions, checkArity⟩ := by
  refine eval_related ActionRelation.sequential_eq e fun path part hpart => ?_
  exact {
    lookup := fun name hvar => by
      have hname : s₁.get? name = s₂.get? name :=
        h name (mem_occurrences_of_subexpr? (hvar ▸ hpart))
      rw [Environment.lookup, Environment.lookup, hname]
    count := fun _ _ _ _ _ => rfl
    recover := fun _ _ _ _ _ _ _ _ hfirst hfallback => by rw [hfirst, hfallback]
    function := fun _ _ _ _ _ _ hargs => by
      rw [hargs]
      rfl }

/-- The reported variables are those that occur. -/
theorem agreeOn_occurrences {e : Expr} (h : s₁.AgreeOn e.variableNames s₂) :
    s₁.AgreeOn e.occurrences s₂ :=
  fun name hname => h name (List.mem_eraseDups.mpr hname)

/-! ## Runs depend on the reported variables only -/

/-- Scopes that agree on the variables of an expression give it the same run: the same result, the
    same calls in the same order and the same state of the host at the end. -/
theorem run_eq_of_agreeOn (functions : FunctionTable σ) (checkArity : Bool) (e : Expr)
    (h : s₁.AgreeOn e.variableNames s₂) (host : σ) :
    (e.eval ⟨s₁, functions, checkArity⟩).runOn host =
        (e.eval ⟨s₂, functions, checkArity⟩).runOn host ∧
      e.run ⟨s₁, functions, checkArity⟩ host = e.run ⟨s₂, functions, checkArity⟩ host := by
  have hocc := agreeOn_occurrences h
  constructor
  · rw [eval_eq_of_agreeOn functions checkArity e hocc]
  -- The journal is kept by the functions, and they are as arbitrary as the ones without.
  · have hjournaled := eval_eq_of_agreeOn functions.journaled checkArity e hocc
    simp only [run, Environment.journaled]
    rw [hjournaled]

/-- It makes no difference whether `x` is local or global, nor what `z` is. -/
theorem run_eq_of_local_or_global :
    Scope.AgreeOn (variableNames (.call "if" [.var "x", .call "abs" [.var "x"], .var "y"]))
        ⟨.ofList [("x", .bool true), ("z", .bool true)], .empty⟩
        ⟨.empty, .ofList [("x", .bool true)]⟩ ∧
      ((eval ⟨⟨.ofList [("x", .bool true), ("z", .bool true)], .empty⟩, .standard, true⟩
            (.call "if" [.var "x", .call "abs" [.var "x"], .var "y"])).runOn 0 =
          (eval ⟨⟨.empty, .ofList [("x", .bool true)]⟩, .standard, true⟩
            (.call "if" [.var "x", .call "abs" [.var "x"], .var "y"])).runOn (0 : Nat) ∧
        run ⟨⟨.ofList [("x", .bool true), ("z", .bool true)], .empty⟩, .standard, true⟩
            (.call "if" [.var "x", .call "abs" [.var "x"], .var "y"]) 0 =
          run ⟨⟨.empty, .ofList [("x", .bool true)]⟩, .standard, true⟩
            (.call "if" [.var "x", .call "abs" [.var "x"], .var "y"]) (0 : Nat)) := by
  have h : Scope.AgreeOn
      (variableNames (.call "if" [.var "x", .call "abs" [.var "x"], .var "y"]))
      ⟨.ofList [("x", .bool true), ("z", .bool true)], .empty⟩
      ⟨.empty, .ofList [("x", .bool true)]⟩ := by
    intro name hname
    have hcases : name = "x" ∨ name = "y" := by
      simpa [variableNames, List.mem_eraseDups, occurrences, occurrencesIn] using hname
    rcases hcases with rfl | rfl
    · simp [Scope.get?, Bindings.ofList, Bindings.get?_insert]
    · simp [Scope.get?, Bindings.ofList, Bindings.get?_insert]
  exact ⟨h, run_eq_of_agreeOn .standard true _ h 0⟩

end Expr

namespace Engine

variable {locals₁ locals₂ globals₁ globals₂ : Bindings}

/-- An expression sees of the bindings only those of its variables. -/
theorem evaluateExpr_eq_of_agreeOn (engine : Engine σ) (e : Expr)
    (h : Scope.AgreeOn e.occurrences ⟨locals₁, globals₁⟩ ⟨locals₂, globals₂⟩) :
    (engine.withGlobals globals₁).evaluateExpr e locals₁ =
      (engine.withGlobals globals₂).evaluateExpr e locals₂ :=
  Expr.eval_eq_of_agreeOn engine.functions engine.options.checkArity e h

/-- A formula sees of the bindings only those of its dependencies. -/
theorem evaluate_eq_of_agreeOn (engine : Engine σ) {formula : String} {names : List String}
    (hnames : Expr.dependencies formula = .ok names)
    (h : Scope.AgreeOn names ⟨locals₁, globals₁⟩ ⟨locals₂, globals₂⟩) :
    (engine.withGlobals globals₁).evaluate formula locals₁ =
      (engine.withGlobals globals₂).evaluate formula locals₂ := by
  unfold Expr.dependencies at hnames
  cases hparse : Expr.parse formula with
  | error e =>
      rw [hparse] at hnames
      cases hnames
  | ok e =>
      rw [hparse] at hnames
      cases hnames
      have heval := engine.evaluateExpr_eq_of_agreeOn e (Expr.agreeOn_occurrences h)
      simp only [evaluate, hparse, Host.ofExcept_ok, pure_bind, heval]

end Engine

end SheetFormula
