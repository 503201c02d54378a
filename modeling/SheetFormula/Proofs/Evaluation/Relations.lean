/-
  SheetFormula.Proofs.Evaluation.Relations

  Relations between the evaluations of an expression in two environments.  The
  evaluator does nothing but return, put actions one after the other, recover,
  look up variables, check counts and run functions; so a relation between
  actions that all these keep relates the two evaluations (`eval_related`).
  What must be kept is asked of the parts of the expression only, and a property
  of single actions is a relation that does not look at the second one.
-/
import SheetFormula.Expr.Eval
import SheetFormula.Proofs.Expressions.Parts

namespace SheetFormula

variable {σ τ : Type}

/-- A relation between actions on two hosts. -/
abbrev ActionRelation (σ τ : Type) := ∀ ⦃α : Type⦄, Host σ α → Host τ α → Prop

/-- Returning and putting one action after the other keep the relation. -/
structure ActionRelation.Sequential (R : ActionRelation σ τ) : Prop where
  pure : ∀ {α : Type} (a : α), R (Pure.pure a) (Pure.pure a)
  bind : ∀ {α β : Type} {x : Host σ α} {y : Host τ α} {next : α → Host σ β}
    {next' : α → Host τ β}, R x y → (∀ a, R (next a) (next' a)) → R (x >>= next) (y >>= next')

/-- Actions that are the same go on being the same. -/
theorem ActionRelation.sequential_eq : Sequential fun _ (x y : Host σ _) => x = y where
  pure _ := rfl
  bind hx hnext := by rw [hx, funext hnext]

namespace Expr

/-- What the evaluator does not take for a form is called. -/
theorem Calls.of_subexpr? {e : Expr} {path : List Nat} {f : String} {args : List Expr}
    (hpart : e.subexpr? path = some (call f args)) (hform : SpecialForm.ofName? f = none) :
    e.Calls f :=
  ⟨path, args, hpart, SpecialForm.ofName?_eq_none_iff.mp hform⟩

/-- What the evaluator does at the root of an expression keeps the relation between actions in two
    environments. -/
structure Respects (R : ActionRelation σ τ) (env : Environment σ) (env' : Environment τ)
    (e : Expr) : Prop where
  lookup : ∀ name, e = var name → R (env.lookup name) (env'.lookup name)
  count : ∀ f args form, e = call f args → SpecialForm.ofName? f = some form →
    R (Host.ofExcept (form.checkCount env.checkArity args.length))
      (Host.ofExcept (form.checkCount env'.checkArity args.length))
  recover : ∀ f args, e = call f args → SpecialForm.ofName? f = some .recovery →
    ∀ {x x' : Host σ Value} {y y' : Host τ Value}, R x y → R x' y' →
      R (tryCatch x fun _ => x') (tryCatch y fun _ => y')
  function : ∀ f args, e = call f args → SpecialForm.ofName? f = none →
    ∀ {x : Host σ (List Value)} {y : Host τ (List Value)}, R x y →
      R (env.function f >>= fun g => x >>= env.invoke g)
        (env'.function f >>= fun g => y >>= env'.invoke g)

section Evaluation

variable {R : ActionRelation σ τ} {env : Environment σ} {env' : Environment τ}

mutual

theorem eval_related (hR : R.Sequential) :
    (e : Expr) → e.EveryPart (Respects R env env') → R (e.eval env) (e.eval env')
  | number x, _ => by
      rw [eval, eval]
      exact hR.pure _
  | text s, _ => by
      rw [eval, eval]
      exact hR.pure _
  | bool b, _ => by
      rw [eval, eval]
      exact hR.pure _
  | var name, h => by
      rw [eval, eval]
      exact h.root.lookup name rfl
  | call f args, h => by
      have hat := evalAt_related hR args h.of_mem_args
      rw [eval, eval]
      cases hform : SpecialForm.ofName? f with
      | some form =>
          have hcount := h.root.count f args form rfl hform
          cases form with
          | conditional => exact hR.bind hcount fun _ => hR.bind (hat 0) fun condition => hat _
          | recovery =>
              exact hR.bind hcount fun _ => h.root.recover f args rfl hform (hat 0) (hat 1)
      | none => exact h.root.function f args rfl hform (evalAll_related hR args h.of_mem_args)

theorem evalAll_related (hR : R.Sequential) :
    (es : List Expr) → (∀ e ∈ es, e.EveryPart (Respects R env env')) →
      R (evalAll env es) (evalAll env' es)
  | [], _ => by
      rw [evalAll, evalAll]
      exact hR.pure _
  | e :: es, h => by
      obtain ⟨he, hes⟩ := List.forall_mem_cons.mp h
      rw [evalAll, evalAll]
      refine hR.bind (eval_related hR e he) fun v => ?_
      exact hR.bind (evalAll_related hR es hes) fun vs => hR.pure _

theorem evalAt_related (hR : R.Sequential) :
    (es : List Expr) → (∀ e ∈ es, e.EveryPart (Respects R env env')) → (position : Nat) →
      R (evalAt env es position) (evalAt env' es position)
  | [], _, _ => by
      rw [evalAt, evalAt]
      exact hR.pure _
  | e :: es, h, 0 => by
      rw [evalAt, evalAt]
      exact eval_related hR e (List.forall_mem_cons.mp h).1
  | e :: es, h, position + 1 => by
      rw [evalAt, evalAt]
      exact evalAt_related hR es (List.forall_mem_cons.mp h).2 position

end

end Evaluation

end Expr

end SheetFormula
