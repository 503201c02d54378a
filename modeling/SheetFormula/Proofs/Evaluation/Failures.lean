/-
  SheetFormula.Proofs.Evaluation.Failures

  Where errors come from.  An evaluation fails with no error but one that a part
  of the expression gives rise to by itself (`failsOnlyWith_eval`): a variable
  without a value, a function that does not exist, a count that is not right, or
  what a body fails with.  A recovery swallows errors and makes none, so it is
  its fallback that answers for what it fails with.
-/
import SheetFormula.Engine
import SheetFormula.Proofs.Expressions.Parts

namespace SheetFormula

variable {σ : Type}

/-! ## Actions and the errors that they fail with -/

namespace Host

variable {α β : Type} {p q : Error → Prop}

/-- Whatever state the action begins on, it fails with no other errors. -/
def FailsOnlyWith (p : Error → Prop) (action : Host σ α) : Prop :=
  ∀ s e s', action.runOn s = (.error e, s') → p e

namespace FailsOnlyWith

theorem mono {action : Host σ α} (h : FailsOnlyWith p action) (hpq : ∀ e, p e → q e) :
    FailsOnlyWith q action :=
  fun s e s' hrun => hpq e (h s e s' hrun)

theorem pure (a : α) : FailsOnlyWith p (Pure.pure a : Host σ α) := fun s e s' hrun => by
  cases hrun

theorem throw {e : Error} (h : p e) : FailsOnlyWith p (MonadExcept.throw e : Host σ α) :=
  fun s e' s' hrun => by
    cases hrun
    exact h

theorem ofExcept {r : Except Error α} (h : ∀ e, r = .error e → p e) :
    FailsOnlyWith p (Host.ofExcept r : Host σ α) := by
  cases r with
  | ok a => exact .pure a
  | error e => exact .throw (h e rfl)

/-- What comes next counts for the results that the first action can have. -/
theorem bind {action : Host σ α} {next : α → Host σ β} (h : FailsOnlyWith p action)
    (hnext : ∀ s a s', action.runOn s = (.ok a, s') → FailsOnlyWith p (next a)) :
    FailsOnlyWith p (action >>= next) := by
  intro s e s' hrun
  rw [runOn_bind] at hrun
  rcases haction : action.runOn s with ⟨e' | a, s₁⟩
  · rw [haction] at hrun
    cases hrun
    exact h s e s' haction
  · rw [haction] at hrun
    exact hnext s a s₁ haction s₁ e s' hrun

/-- What the first action fails with is swallowed. -/
theorem tryCatch (action : Host σ α) {recover : Error → Host σ α}
    (hrecover : ∀ e, FailsOnlyWith p (recover e)) :
    FailsOnlyWith p (MonadExcept.tryCatch action recover) := by
  intro s e s' hrun
  rw [runOn_tryCatch] at hrun
  rcases haction : action.runOn s with ⟨e' | a, s₁⟩
  · rw [haction] at hrun
    exact hrecover e' s₁ e s' hrun
  · rw [haction] at hrun
    cases hrun

end FailsOnlyWith

end Host

/-! ## Counts that are not right -/

theorem SpecialForm.exists_of_checkCount_eq_error {form : SpecialForm} {checkArity : Bool} {n : Nat}
    {e : Error} (h : form.checkCount checkArity n = .error e) :
    ∃ expected, e = .argumentCount form.name expected n := by
  unfold checkCount at h
  split at h
  · cases h
    exact ⟨_, rfl⟩
  · cases h

theorem SheetFunction.exists_of_checkArity_eq_error {f : SheetFunction σ} {n : Nat} {e : Error}
    (h : f.checkArity n = .error e) : ∃ expected, e = .argumentCount f.name expected n := by
  unfold checkArity at h
  split at h
  · cases h
    exact ⟨_, rfl⟩
  · split at h
    · split at h
      · cases h
        exact ⟨_, rfl⟩
      · cases h
    · cases h

/-! ## Faults of expressions -/

namespace Expr

/-- What can go wrong at the root of an expression, whatever its arguments come to. -/
inductive RootFault (env : Environment σ) : Expr → Error → Prop where
  | unbound {name : String} (hname : env.scope.get? name = none) :
      RootFault env (var name) (.variableNotFound name)
  | formCount {f : String} {form : SpecialForm} {args : List Expr} {e : Error}
      (hform : SpecialForm.ofName? f = some form)
      (hcount : form.checkCount env.checkArity args.length = .error e) :
      RootFault env (call f args) e
  | unknown {f : String} {args : List Expr} (hform : SpecialForm.ofName? f = none)
      (hfind : env.functions.find? f = none) :
      RootFault env (call f args) (.functionNotFound f)
  | count {f : String} {args : List Expr} {g : SheetFunction σ} {e : Error}
      (hform : SpecialForm.ofName? f = none) (hfind : env.functions.find? f = some g)
      (hcount : g.checkArity args.length = .error e) :
      RootFault env (call f args) e
  | body {f : String} {args : List Expr} {g : SheetFunction σ} {vs : List Value} {e : Error}
      {host host' : σ} (hform : SpecialForm.ofName? f = none)
      (hfind : env.functions.find? f = some g) (hbody : (g.body vs).runOn host = (.error e, host')) :
      RootFault env (call f args) e

/-- The error is a fault of a part of the expression. -/
def Fault (env : Environment σ) (e : Expr) (error : Error) : Prop :=
  ∃ path part, e.subexpr? path = some part ∧ RootFault env part error

/-- The error is a fault of one of the expressions. -/
def FaultAmong (env : Environment σ) (es : List Expr) (error : Error) : Prop :=
  ∃ (i : Nat) (arg : Expr), es[i]? = some arg ∧ Fault env arg error

variable {env : Environment σ} {error : Error}

theorem RootFault.fault {e : Expr} (h : RootFault env e error) : Fault env e error :=
  ⟨[], e, subexpr?_nil e, h⟩

/-- The faults of arguments are faults of the call. -/
theorem Fault.call {f : String} {args : List Expr} (h : FaultAmong env args error) :
    Fault env (call f args) error := by
  obtain ⟨i, arg, harg, path, part, hpart, hfault⟩ := h
  exact ⟨i :: path, part, by rw [subexpr?_cons harg]; exact hpart, hfault⟩

theorem FaultAmong.head {e : Expr} (es : List Expr) (h : Fault env e error) :
    FaultAmong env (e :: es) error :=
  ⟨0, e, rfl, h⟩

theorem FaultAmong.tail (e : Expr) {es : List Expr} (h : FaultAmong env es error) :
    FaultAmong env (e :: es) error := by
  obtain ⟨i, arg, harg, hfault⟩ := h
  exact ⟨i + 1, arg, harg, hfault⟩

/-! ## Evaluation fails with faults only -/

theorem failsOnlyWith_lookup (env : Environment σ) (name : String) :
    (env.lookup name).FailsOnlyWith (Fault env (var name)) := by
  rw [Environment.lookup]
  cases hname : env.scope.get? name with
  | some v => exact .pure v
  | none => exact .throw (RootFault.unbound hname).fault

theorem failsOnlyWith_invoke {f : String} {args : List Expr} {g : SheetFunction σ}
    {vs : List Value} (hform : SpecialForm.ofName? f = none)
    (hfind : env.functions.find? f = some g) (hlength : vs.length = args.length) :
    (env.invoke g vs).FailsOnlyWith (Fault env (call f args)) := by
  have hbody : (g.body vs).FailsOnlyWith (Fault env (call f args)) := fun _ _ _ hrun =>
    (RootFault.body hform hfind hrun).fault
  rw [Environment.invoke]
  cases env.checkArity with
  | false => exact hbody
  | true =>
      refine (Host.FailsOnlyWith.ofExcept fun e hcount => ?_).bind fun _ _ _ _ => hbody
      rw [hlength] at hcount
      exact (RootFault.count hform hfind hcount).fault

/-- There are as many values as arguments. -/
theorem length_of_evalAll :
    (es : List Expr) → (s : σ) → (vs : List Value) → (s' : σ) →
      (evalAll env es).runOn s = (.ok vs, s') → vs.length = es.length
  | [], s, vs, s', h => by
      rw [evalAll] at h
      cases h
      rfl
  | e :: es, s, vs, s', h => by
      rw [evalAll, Host.runOn_bind] at h
      rcases hfirst : (e.eval env).runOn s with ⟨_ | v, s₁⟩
      · rw [hfirst] at h
        cases h
      · simp only [hfirst, Host.runOn_bind] at h
        rcases hrest : (evalAll env es).runOn s₁ with ⟨_ | vs', s₂⟩
        · rw [hrest] at h
          cases h
        · rw [hrest] at h
          cases h
          exact congrArg Nat.succ (length_of_evalAll es s₁ vs' s' hrest)

mutual

theorem failsOnlyWith_eval (env : Environment σ) :
    (e : Expr) → (e.eval env).FailsOnlyWith (Fault env e)
  | number x => by
      rw [eval]
      exact .pure _
  | text s => by
      rw [eval]
      exact .pure _
  | bool b => by
      rw [eval]
      exact .pure _
  | var name => by
      rw [eval]
      exact failsOnlyWith_lookup env name
  | call f args => by
      have hat : ∀ position, (evalAt env args position).FailsOnlyWith (Fault env (call f args)) :=
        fun position => (failsOnlyWith_evalAt env args position).mono fun _ => .call
      have hall : (evalAll env args).FailsOnlyWith (Fault env (call f args)) :=
        (failsOnlyWith_evalAll env args).mono fun _ => .call
      rw [eval]
      cases hform : SpecialForm.ofName? f with
      | some form =>
          have hcount : (Host.ofExcept (form.checkCount env.checkArity args.length) :
              Host σ Unit).FailsOnlyWith (Fault env (call f args)) :=
            .ofExcept fun e he => (RootFault.formCount hform he).fault
          cases form with
          | conditional => exact hcount.bind fun _ _ _ _ => (hat 0).bind fun _ _ _ _ => hat _
          | recovery => exact hcount.bind fun _ _ _ _ => .tryCatch _ fun _ => hat 1
      | none =>
          cases hfind : env.functions.find? f with
          | none =>
              rw [Environment.function, hfind]
              exact (Host.FailsOnlyWith.throw (RootFault.unknown hform hfind).fault).bind
                fun _ _ _ h => by cases h
          | some g =>
              simp only [Environment.function, hfind, pure_bind]
              -- The number of values that is checked is the number of arguments.
              exact hall.bind fun s vs s' hvs =>
                failsOnlyWith_invoke hform hfind (length_of_evalAll args s vs s' hvs)

theorem failsOnlyWith_evalAll (env : Environment σ) :
    (es : List Expr) → (evalAll env es).FailsOnlyWith (FaultAmong env es)
  | [] => by
      rw [evalAll]
      exact .pure _
  | e :: es => by
      rw [evalAll]
      refine ((failsOnlyWith_eval env e).mono fun _ => .head es).bind fun _ v _ _ => ?_
      exact ((failsOnlyWith_evalAll env es).mono fun _ => .tail e).bind fun _ vs _ _ => .pure _

theorem failsOnlyWith_evalAt (env : Environment σ) :
    (es : List Expr) → (position : Nat) →
      (evalAt env es position).FailsOnlyWith (FaultAmong env es)
  | [], position => by
      rw [evalAt]
      exact .pure _
  | e :: es, 0 => by
      rw [evalAt]
      exact (failsOnlyWith_eval env e).mono fun _ => .head es
  | e :: es, position + 1 => by
      rw [evalAt]
      exact (failsOnlyWith_evalAt env es position).mono fun _ => .tail e

end

end Expr

/-! ## Formulas -/

namespace Engine

/-- The formula's evaluation fails. -/
def FailsWith (engine : Engine σ) (formula : String) (locals : Bindings) (host : σ) (e : Error) :
    Prop :=
  ∃ host', (engine.evaluate formula locals).runOn host = (.error e, host')

variable {engine : Engine σ} {formula : String} {locals : Bindings} {host : σ} {error : Error}

/-- What a formula cannot be parsed for, its evaluation fails with. -/
theorem failsWith_of_parse (h : Expr.parse formula = .error error) :
    engine.FailsWith formula locals host error := by
  refine ⟨host, ?_⟩
  rw [evaluate, h]
  rfl

/-- An evaluation fails with what the formula cannot be parsed for, or with a fault of the parsed
    formula. -/
theorem parse_or_fault_of_failsWith (h : engine.FailsWith formula locals host error) :
    Expr.parse formula = .error error ∨
      ∃ e, Expr.parse formula = .ok e ∧ e.Fault (engine.environment locals) error := by
  obtain ⟨host', hrun⟩ := h
  rw [evaluate] at hrun
  cases hparse : Expr.parse formula with
  | error e =>
      rw [hparse] at hrun
      cases hrun
      exact .inl rfl
  | ok e =>
      rw [hparse] at hrun
      exact .inr ⟨e, rfl, Expr.failsOnlyWith_eval _ e host error host' hrun⟩

end Engine

end SheetFormula
