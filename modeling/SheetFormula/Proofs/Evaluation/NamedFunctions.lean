/-
  SheetFormula.Proofs.Evaluation.NamedFunctions

  An expression sees no functions but those that it calls by name.  Tables that
  give these names the same functions, up to the mark of the library, cannot be
  told apart by any run of it (`run_eq_of_agreeFor`); evaluation looks up
  nothing else, and of a function it reads the counts, the name for errors about
  them, and the body.
-/
import SheetFormula.Proofs.Evaluation.Run
import SheetFormula.Proofs.Expressions.Parts

namespace SheetFormula

variable {σ : Type}

/-! ## Functions without their marks -/

/-- The function without the mark of the library. -/
def SheetFunction.unmarked (f : SheetFunction σ) : SheetFunction σ := { f with builtin := false }

/-- What a function is run for does not depend on its mark. -/
theorem Environment.invoke_congr {scope : Scope} {t₁ t₂ : FunctionTable σ} {checkArity : Bool}
    {g₁ g₂ : SheetFunction σ} (h : g₁.unmarked = g₂.unmarked) (args : List Value) :
    Environment.invoke ⟨scope, t₁, checkArity⟩ g₁ args =
      Environment.invoke ⟨scope, t₂, checkArity⟩ g₂ args := by
  calc Environment.invoke ⟨scope, t₁, checkArity⟩ g₁ args
      = Environment.invoke ⟨scope, t₂, checkArity⟩ g₁.unmarked args := rfl
    _ = Environment.invoke ⟨scope, t₂, checkArity⟩ g₂.unmarked args := by rw [h]
    _ = Environment.invoke ⟨scope, t₂, checkArity⟩ g₂ args := rfl

namespace FunctionTable

/-- Up to marks the tables have the same function for each name that the expression calls, or
    none. -/
def AgreeFor (e : Expr) (t₁ t₂ : FunctionTable σ) : Prop :=
  ∀ f, e.Calls f →
    (t₁.find? f).map SheetFunction.unmarked = (t₂.find? f).map SheetFunction.unmarked

/-- Journals are kept under the names, which are the same. -/
theorem AgreeFor.journaled {e : Expr} {t₁ t₂ : FunctionTable σ} (h : t₁.AgreeFor e t₂) :
    t₁.journaled.AgreeFor e t₂.journaled := by
  have hcommute (t : FunctionTable σ) (f : String) :
      (t.journaled.find? f).map SheetFunction.unmarked =
        ((t.find? f).map SheetFunction.unmarked).map (·.journaled (Text.lower f)) := by
    rw [find?_journaled, Option.map_map, Option.map_map]
    rfl
  intro f hf
  rw [hcommute, hcommute, h f hf]

end FunctionTable

namespace Expr

/-! ## Evaluation looks up what is called -/

section Evaluation

variable {t₁ t₂ : FunctionTable σ}

/-- Calls of functions that differ in their marks only come to the same. -/
theorem function_eq_of_unmarked {f : String}
    (h : (t₁.find? f).map SheetFunction.unmarked = (t₂.find? f).map SheetFunction.unmarked)
    (scope : Scope) (checkArity : Bool) (action : Host σ (List Value)) :
    (Environment.function ⟨scope, t₁, checkArity⟩ f >>= fun g =>
        action >>= Environment.invoke ⟨scope, t₁, checkArity⟩ g) =
      (Environment.function ⟨scope, t₂, checkArity⟩ f >>= fun g =>
        action >>= Environment.invoke ⟨scope, t₂, checkArity⟩ g) := by
  rw [Environment.function, Environment.function]
  cases h₁ : t₁.find? f with
  | none =>
      rw [h₁, Option.map_none, eq_comm, Option.map_eq_none_iff] at h
      rw [h]
      rfl
  | some g₁ =>
      rw [h₁, Option.map_some, eq_comm, Option.map_eq_some_iff] at h
      obtain ⟨g₂, h₂, hunmarked⟩ := h
      rw [h₂]
      simp only [pure_bind]
      exact bind_congr fun values => Environment.invoke_congr hunmarked.symm values

theorem eval_eq_of_agreeFor (scope : Scope) (checkArity : Bool) {e : Expr}
    (h : t₁.AgreeFor e t₂) :
    e.eval ⟨scope, t₁, checkArity⟩ = e.eval ⟨scope, t₂, checkArity⟩ := by
  refine eval_related ActionRelation.sequential_eq e fun path part hpart => ?_
  exact {
    lookup := fun _ _ => rfl
    count := fun _ _ _ _ _ => rfl
    recover := fun _ _ _ _ _ _ _ _ hfirst hfallback => by rw [hfirst, hfallback]
    function := fun f args hcall hform _ _ hargs => by
      have hcalls : e.Calls f := .of_subexpr? (hcall ▸ hpart) hform
      rw [hargs, function_eq_of_unmarked (h f hcalls)] }

/-- Tables that agree for an expression give it the same run. -/
theorem run_eq_of_agreeFor {e : Expr} (h : t₁.AgreeFor e t₂) (scope : Scope) (checkArity : Bool)
    (host : σ) :
    e.run ⟨scope, t₁, checkArity⟩ host = e.run ⟨scope, t₂, checkArity⟩ host := by
  have hjournaled := eval_eq_of_agreeFor scope checkArity h.journaled
  simp only [run, Environment.journaled]
  rw [hjournaled]

end Evaluation

end Expr

end SheetFormula
