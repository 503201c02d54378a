/-
  SheetFormula.Proofs.Evaluation.Rewriting

  Laws by which calls of the special forms may be rewritten.  Nested recoveries
  may be regrouped, and a conditional that is the first argument of a function
  may be taken out of the call.  Main statement: under both laws the two sides
  are interchangeable wherever they stand in a larger expression
  (`forms_rewrite`).

  The second law is about functions that are there.  An unknown function is
  reported before any of its arguments runs, the conditional included; outside
  the call the condition would run first.
-/
import SheetFormula.Proofs.Evaluation.Laziness

namespace SheetFormula

variable {σ : Type}

namespace Expr

/-! ## Calls with the counts that they are written for -/

theorem eval_conditional (env : Environment σ) (c a b : Expr) :
    (call "if" [c, a, b]).eval env =
      (c.eval env >>= fun condition => if condition.isTruthy then a.eval env else b.eval env) := by
  have hform : SpecialForm.ofName? "if" = some .conditional := by decide
  have hcount : SpecialForm.conditional.checkCount env.checkArity [c, a, b].length = .ok () := by
    simp [SpecialForm.checkCount, SpecialForm.maxArgs]
  rw [eval, hform]
  simp only [hcount, Host.ofExcept_ok, pure_bind]
  rw [evalAt]
  refine bind_congr fun condition => ?_
  cases condition.isTruthy <;> simp [evalAt]

theorem eval_recovery (env : Environment σ) (a b : Expr) :
    (call "iferr" [a, b]).eval env = tryCatch (a.eval env) fun _ => b.eval env := by
  have hform : SpecialForm.ofName? "iferr" = some .recovery := by decide
  have hcount : SpecialForm.recovery.checkCount env.checkArity [a, b].length = .ok () := by
    simp [SpecialForm.checkCount, SpecialForm.maxArgs]
  rw [eval, hform]
  simp only [hcount, Host.ofExcept_ok, pure_bind, evalAt]

theorem eval_function {env : Environment σ} {f : String} {g : SheetFunction σ}
    (hform : SpecialForm.ofName? f = none) (hfind : env.functions.find? f = some g)
    (args : List Expr) : (call f args).eval env = evalAll env args >>= env.invoke g := by
  rw [eval, hform, Environment.function, hfind]
  rfl

/-! ## The laws at the root -/

/-- What stands in last runs on what both failures have left, in either grouping. -/
theorem eval_recovery_assoc (env : Environment σ) (a b c : Expr) :
    (call "iferr" [call "iferr" [a, b], c]).eval env =
      (call "iferr" [a, call "iferr" [b, c]]).eval env := by
  simp only [eval_recovery]
  funext host
  show Host.runOn _ host = Host.runOn _ host
  simp only [Host.runOn_tryCatch]
  -- A value of the first expression ends both sides; its failure leaves both with the same two.
  rcases (a.eval env).runOn host with ⟨_ | _, _⟩ <;> rfl

/-- The condition, the selected branch and the other arguments run in this order, in the call or
    outside. -/
theorem eval_conditional_argument {env : Environment σ} {f : String} {g : SheetFunction σ}
    (hform : SpecialForm.ofName? f = none) (hfind : env.functions.find? f = some g)
    (a b c : Expr) (ds : List Expr) :
    (call f (call "if" [c, a, b] :: ds)).eval env =
      (call "if" [c, call f (a :: ds), call f (b :: ds)]).eval env := by
  -- The lookup succeeds on either side and reads no state, so the condition comes first on both.
  simp only [eval_conditional, eval_function hform hfind, evalAll, bind_assoc, pure_bind]
  refine bind_congr fun condition => ?_
  split <;> rfl

/-! ## The laws inside other expressions -/

/-- Parts that evaluate alike can be replaced by each other. -/
theorem eval_replaceAt_congr {env : Environment σ} {new new' : Expr}
    (h : new.eval env = new'.eval env) (e : Expr) (path : List Nat) :
    (e.replaceAt path new).eval env = (e.replaceAt path new').eval env := by
  induction path generalizing e with
  | nil => simpa only [replaceAt] using h
  | cons i path ih =>
      cases e with
      | call f args =>
          funext host
          refine runOn_call_congr (by simp) fun j host' _ => ?_
          by_cases hij : i = j
          · subst hij
            cases harg : args[i]? with
            | some arg => rw [evalAt_modify_self harg, evalAt_modify_self harg, ih]
            | none =>
                -- The path leads past the last argument and changes nothing.
                have hlength : args.length ≤ i := List.getElem?_eq_none_iff.mp harg
                rw [List.modify_eq_self hlength, List.modify_eq_self hlength]
          · rw [evalAt_modify_of_ne _ args hij, evalAt_modify_of_ne _ args hij]
      | number x => simp only [replaceAt]
      | text s => simp only [replaceAt]
      | bool b => simp only [replaceAt]
      | var name => simp only [replaceAt]

/-- Two expressions do the same wherever they stand: the results, the calls of bodies with their
    arguments and the states of the host at the end are the same. -/
def Interchangeable (env : Environment σ) (e e' : Expr) : Prop :=
  ∀ (whole : Expr) (path : List Nat) (host : σ),
    (whole.replaceAt path e).run env host = (whole.replaceAt path e').run env host ∧
      ((whole.replaceAt path e).eval env).runOn host =
        ((whole.replaceAt path e').eval env).runOn host

theorem Interchangeable.of_eval {env : Environment σ} {e e' : Expr}
    (h : e.eval env = e'.eval env) (hjournaled : e.eval env.journaled = e'.eval env.journaled) :
    Interchangeable env e e' := by
  intro whole path host
  rw [run, run, eval_replaceAt_congr hjournaled, eval_replaceAt_congr h]
  exact ⟨rfl, rfl⟩

/-- Nested recoveries may be regrouped, and a conditional may be taken out of the first argument of
    a function that is there. -/
theorem forms_rewrite (env : Environment σ) (a b c : Expr) :
    Interchangeable env (call "iferr" [call "iferr" [a, b], c])
        (call "iferr" [a, call "iferr" [b, c]]) ∧
      ∀ (f : String) (ds : List Expr), f ≠ "if" → f ≠ "iferr" →
        env.functions.contains f = true →
          Interchangeable env (call f (call "if" [c, a, b] :: ds))
            (call "if" [c, call f (a :: ds), call f (b :: ds)]) := by
  refine ⟨.of_eval (eval_recovery_assoc _ a b c) (eval_recovery_assoc _ a b c), ?_⟩
  intro f ds hif hiferr hcontains
  have hform : SpecialForm.ofName? f = none := SpecialForm.ofName?_eq_none_iff.mpr ⟨hif, hiferr⟩
  obtain ⟨g, hfind⟩ := FunctionTable.contains_eq_true_iff.mp hcontains
  have hjournaled : env.journaled.functions.find? f = some (g.journaled (Text.lower f)) := by
    rw [Environment.journaled_functions, FunctionTable.find?_journaled, hfind]
    rfl
  exact .of_eval (eval_conditional_argument hform hfind a b c ds)
    (eval_conditional_argument hform hjournaled a b c ds)

/-- The condition turns the host's state over, and so does the argument behind the conditional. -/
theorem forms_rewrite_toggle :
    "toggle" ≠ "if" ∧ "toggle" ≠ "iferr" ∧ toggling.functions.contains "toggle" = true ∧
      Interchangeable toggling
        (call "toggle" [call "if" [call "toggle" [], var "x", bool true], call "toggle" []])
        (call "if" [call "toggle" [], call "toggle" [var "x", call "toggle" []],
          call "toggle" [bool true, call "toggle" []]]) := by
  have hcontains : toggling.functions.contains "toggle" = true :=
    FunctionTable.contains_eq_true_iff.mpr ⟨_, find?_toggling⟩
  exact ⟨by decide, by decide, hcontains,
    (forms_rewrite toggling (var "x") (bool true) (call "toggle" [])).2 "toggle"
      [call "toggle" []] (by decide) (by decide) hcontains⟩

end Expr

end SheetFormula
