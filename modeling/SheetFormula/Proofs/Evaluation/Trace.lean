/-
  SheetFormula.Proofs.Evaluation.Trace

  Evaluation that keeps account of places.  The calls of an expression are told
  apart by their paths from the root, and each invocation of a function's body
  is entered together with the call that it serves.  Main statements: without
  the places a trace is the run (`run_eq_of_trace`), and no two calls of an
  expression are at the same place (`nodup_callSites`).
-/
import SheetFormula.Proofs.Evaluation.Run
import SheetFormula.Proofs.Expressions.Parts

namespace SheetFormula

variable {σ : Type}

/-! ## Places of calls -/

/-- A call in an expression: the positions of arguments on the way to it from the root, and the name
    that its function is kept by. -/
@[ext]
structure CallSite where
  path : List Nat
  function : String
  deriving DecidableEq, Repr

namespace Expr

mutual

/-- The calls of functions in an expression that stands at a path, each behind those in its
    arguments, which go from left to right.  Special forms call no function. -/
def callSites (path : List Nat) : Expr → List CallSite
  | number _ | text _ | bool _ | var _ => []
  | call f args =>
    callSitesIn path 0 args ++
      match SpecialForm.ofName? f with
      | some _ => []
      | none => [⟨path, Text.lower f⟩]

/-- The calls in the arguments of the call at a path, from a position on. -/
def callSitesIn (path : List Nat) (position : Nat) : List Expr → List CallSite
  | [] => []
  | e :: es => callSites (path ++ [position]) e ++ callSitesIn path (position + 1) es

end

/-- The function named `function` is called at a path in the expression. -/
def CallsAt (e : Expr) (path : List Nat) (function : String) : Prop :=
  ∃ f args, e.subexpr? path = some (.call f args) ∧ SpecialForm.ofName? f = none ∧
    function = Text.lower f

theorem callsAt_nil {f function : String} {args : List Expr} :
    (call f args).CallsAt [] function ↔
      SpecialForm.ofName? f = none ∧ function = Text.lower f := by
  simp [CallsAt, subexpr?]

theorem callsAt_cons {f function : String} {args : List Expr} {i : Nat} {path : List Nat} :
    (call f args).CallsAt (i :: path) function ↔
      ∃ arg, args[i]? = some arg ∧ arg.CallsAt path function := by
  cases h : args[i]? <;> simp [CallsAt, subexpr?, h]

mutual

/-- The listed calls are those that the parts of the expression make. -/
theorem mem_callSites {s : CallSite} {path : List Nat} :
    (e : Expr) → (s ∈ callSites path e ↔
      ∃ below, s.path = path ++ below ∧ e.CallsAt below s.function)
  | number _ | text _ | bool _ | var _ => by
      simp only [callSites, List.not_mem_nil, false_iff, not_exists, not_and]
      rintro (_ | ⟨i, below⟩) _ ⟨f, args, h, _⟩ <;> simp [subexpr?] at h
  | call f args => by
      have hself : (s ∈ match SpecialForm.ofName? f with
          | some _ => ([] : List CallSite)
          | none => [⟨path, Text.lower f⟩]) ↔
          s.path = path ∧ (call f args).CallsAt [] s.function := by
        rw [callsAt_nil]
        cases SpecialForm.ofName? f <;> simp [CallSite.ext_iff]
      rw [callSites, List.mem_append, hself, mem_callSitesIn args]
      constructor
      · rintro (⟨i, arg, below, harg, hpath, hcalls⟩ | ⟨hpath, hcalls⟩)
        · rw [Nat.zero_add] at hpath
          exact ⟨i :: below, hpath, callsAt_cons.mpr ⟨arg, harg, hcalls⟩⟩
        · exact ⟨[], by rw [hpath, List.append_nil], hcalls⟩
      · rintro ⟨below, hpath, hcalls⟩
        cases below with
        | nil => exact .inr ⟨by rw [hpath, List.append_nil], hcalls⟩
        | cons i below =>
            obtain ⟨arg, harg, hcalls⟩ := callsAt_cons.mp hcalls
            exact .inl ⟨i, arg, below, harg, by rwa [Nat.zero_add], hcalls⟩

theorem mem_callSitesIn {s : CallSite} {path : List Nat} {position : Nat} :
    (es : List Expr) → (s ∈ callSitesIn path position es ↔
      ∃ i e below, es[i]? = some e ∧ s.path = path ++ (position + i) :: below ∧
        e.CallsAt below s.function)
  | [] => by simp [callSitesIn]
  | e :: es => by
      rw [callSitesIn, List.mem_append, mem_callSites e, mem_callSitesIn es]
      constructor
      · rintro (⟨below, hpath, hcalls⟩ | ⟨i, arg, below, harg, hpath, hcalls⟩)
        · exact ⟨0, e, below, rfl, by rw [hpath, List.append_assoc]; rfl, hcalls⟩
        · refine ⟨i + 1, arg, below, harg, ?_, hcalls⟩
          rw [hpath, Nat.add_assoc, Nat.add_comm 1 i]
      · rintro ⟨i, arg, below, harg, hpath, hcalls⟩
        cases i with
        | zero =>
            cases harg
            exact .inl ⟨below, by rw [hpath, List.append_assoc]; rfl, hcalls⟩
        | succ i =>
            refine .inr ⟨i, arg, below, harg, ?_, hcalls⟩
            rw [hpath, Nat.add_assoc, Nat.add_comm 1 i]

end

mutual

/-- No two calls are at the same place. -/
theorem nodup_callSites (path : List Nat) : (e : Expr) → (callSites path e).Nodup
  | number _ | text _ | bool _ | var _ => by simp [callSites]
  | call f args => by
      rw [callSites]
      cases SpecialForm.ofName? f with
      | some form => simpa using nodup_callSitesIn path 0 args
      | none =>
          -- The call itself is above its arguments.
          have hself : ⟨path, Text.lower f⟩ ∉ callSitesIn path 0 args := by
            intro hmem
            obtain ⟨i, arg, below, _, hpath, _⟩ := (mem_callSitesIn args).mp hmem
            exact List.cons_ne_nil _ _ (List.self_eq_append_right.mp hpath)
          rw [List.nodup_append]
          refine ⟨nodup_callSitesIn path 0 args, by simp, fun s hs t ht => ?_⟩
          rintro rfl
          rw [List.mem_singleton] at ht
          exact hself (ht ▸ hs)

theorem nodup_callSitesIn (path : List Nat) (position : Nat) :
    (es : List Expr) → (callSitesIn path position es).Nodup
  | [] => by simp [callSitesIn]
  | e :: es => by
      rw [callSitesIn, List.nodup_append]
      refine ⟨nodup_callSites _ e, nodup_callSitesIn path (position + 1) es, fun s hs t ht => ?_⟩
      rintro rfl
      -- Arguments at different positions have no place in common.
      obtain ⟨below, hpath, _⟩ := (mem_callSites e).mp hs
      obtain ⟨i, arg, below', _, hpath', _⟩ := (mem_callSitesIn es).mp ht
      rw [hpath, List.append_assoc, List.append_cancel_left_eq, List.singleton_append,
        List.cons.injEq] at hpath'
      omega

end

/-- Two calls of one function are two calls, and a special form is none. -/
example : callSites [] (call "f" [call "if" [call "g" []], call "G" [var "x"]]) =
    [⟨[0, 0], "g"⟩, ⟨[1], "g"⟩, ⟨[], "f"⟩] := by
  decide +kernel

end Expr

/-! ## Traces -/

/-- An invocation of a function's body: the call that it serves and the arguments. -/
structure Invocation where
  site : CallSite
  args : List Value
  deriving DecidableEq, Repr

/-- What a journal has of the invocation. -/
def Invocation.call (i : Invocation) : Call := ⟨i.site.function, i.args⟩

/-- A host's state with the invocations made so far, the latest at the end. -/
structure Traced (σ : Type) where
  host : σ
  invocations : List Invocation

namespace Traced

variable {α : Type}

/-- The state with a journal in place of the trace. -/
def journaled (t : Traced σ) : Journaled σ := ⟨t.host, t.invocations.map Invocation.call⟩

/-- The host's part of an action; the trace stays as it is. -/
def lift (action : Host σ α) : Host (Traced σ) α :=
  ExceptT.mk fun t =>
    let (result, host) := action.runOn t.host
    (result, { t with host := host })

/-- A body whose invocation for a call is entered before it runs. -/
def record (site : CallSite) (body : List Value → Host σ Value) (args : List Value) :
    Host (Traced σ) Value := do
  modify fun t => { t with invocations := t.invocations ++ [⟨site, args⟩] }
  lift (body args)

@[simp] theorem lift_pure (a : α) : (lift (pure a) : Host (Traced σ) α) = pure a := rfl

@[simp] theorem runOn_lift (action : Host σ α) (t : Traced σ) :
    (lift action).runOn t
      = ((action.runOn t.host).1, { t with host := (action.runOn t.host).2 }) := rfl

theorem runOn_record (site : CallSite) (body : List Value → Host σ Value) (args : List Value)
    (t : Traced σ) :
    (record site body args).runOn t
      = (((body args).runOn t.host).1,
          ⟨((body args).runOn t.host).2, t.invocations ++ [⟨site, args⟩]⟩) := rfl

end Traced

/-- Runs a function for a call as `Environment.invoke` does, and enters the invocation. -/
def Environment.invokeFor (env : Environment σ) (site : CallSite) (f : SheetFunction σ)
    (args : List Value) : Host (Traced σ) Value := do
  if env.checkArity then Host.ofExcept (f.checkArity args.length)
  Traced.record site f.body args

namespace Expr

mutual

/-- The value of an expression that stands at a path, with its invocations entered. -/
def evalTraced (env : Environment σ) (path : List Nat) : Expr → Host (Traced σ) Value
  | number x => pure (.number x)
  | text s => pure (.text s)
  | bool b => pure (.bool b)
  | var name => Traced.lift (env.lookup name)
  | call f args =>
    match SpecialForm.ofName? f with
    | some .conditional => do
      Host.ofExcept (SpecialForm.conditional.checkCount env.checkArity args.length)
      let condition ← evalTracedAt env path 0 args 0
      evalTracedAt env path 0 args (if condition.isTruthy then 1 else 2)
    | some .recovery => do
      Host.ofExcept (SpecialForm.recovery.checkCount env.checkArity args.length)
      tryCatch (evalTracedAt env path 0 args 0) fun _ => evalTracedAt env path 0 args 1
    | none => do
      let function ← Traced.lift (env.function f)
      let values ← evalTracedAll env path 0 args
      env.invokeFor ⟨path, Text.lower f⟩ function values

/-- The values of all arguments of the call at a path, from a position on. -/
def evalTracedAll (env : Environment σ) (path : List Nat) (position : Nat) :
    List Expr → Host (Traced σ) (List Value)
  | [] => pure []
  | e :: es => do
    let v ← evalTraced env (path ++ [position]) e
    let vs ← evalTracedAll env path (position + 1) es
    pure (v :: vs)

/-- The value of one argument of the call at a path, counted from a position on. -/
def evalTracedAt (env : Environment σ) (path : List Nat) (position : Nat) :
    List Expr → Nat → Host (Traced σ) Value
  | [], _ => pure .null
  | e :: _, 0 => evalTraced env (path ++ [position]) e
  | _ :: es, count + 1 => evalTracedAt env path (position + 1) es count

end

/-- What a traced evaluation of a whole expression ends in. -/
def trace (env : Environment σ) (e : Expr) (host : σ) : Except Error Value × Traced σ :=
  (e.evalTraced env []).runOn ⟨host, []⟩

end Expr

/-! ## A trace is a run -/

/-- An action with a trace does what an action with a journal does. -/
def Traces {α : Type} (observed : Host (Journaled σ) α) (traced : Host (Traced σ) α) : Prop :=
  ∀ t, observed.runOn t.journaled = ((traced.runOn t).1, (traced.runOn t).2.journaled)

namespace Traces

variable {α β : Type}

theorem pure (a : α) : Traces (Pure.pure a : Host (Journaled σ) α) (Pure.pure a) := fun _ => rfl

theorem throw (e : Error) :
    Traces (MonadExcept.throw e : Host (Journaled σ) α) (MonadExcept.throw e) := fun _ => rfl

theorem ofExcept (r : Except Error α) :
    Traces (Host.ofExcept r : Host (Journaled σ) α) (Host.ofExcept r) := by
  cases r with
  | ok a => exact .pure a
  | error e => exact .throw e

theorem record (site : CallSite) (body : List Value → Host σ Value) (args : List Value) :
    Traces (Journaled.record site.function body args) (Traced.record site body args) := by
  intro t
  rw [Journaled.runOn_record, Traced.runOn_record]
  simp [Traced.journaled, Invocation.call]

theorem bind {observed : Host (Journaled σ) α} {traced : Host (Traced σ) α}
    {next : α → Host (Journaled σ) β} {next' : α → Host (Traced σ) β} (h : Traces observed traced)
    (hnext : ∀ a, Traces (next a) (next' a)) : Traces (observed >>= next) (traced >>= next') := by
  intro t
  rw [Host.runOn_bind, Host.runOn_bind, h t]
  rcases traced.runOn t with ⟨_ | a, t'⟩
  · rfl
  · exact hnext a t'

theorem tryCatch {observed : Host (Journaled σ) α} {traced : Host (Traced σ) α}
    {recover : Error → Host (Journaled σ) α} {recover' : Error → Host (Traced σ) α}
    (h : Traces observed traced) (hrecover : ∀ e, Traces (recover e) (recover' e)) :
    Traces (MonadExcept.tryCatch observed recover) (MonadExcept.tryCatch traced recover') := by
  intro t
  rw [Host.runOn_tryCatch, Host.runOn_tryCatch, h t]
  rcases traced.runOn t with ⟨e | _, t'⟩
  · exact hrecover e t'
  · rfl

end Traces

namespace Expr

theorem traces_lookup (env : Environment σ) (name : String) :
    Traces (env.journaled.lookup name) (Traced.lift (env.lookup name)) := by
  rw [Environment.lookup, Environment.lookup, Environment.journaled_scope]
  cases env.scope.get? name with
  | none => exact .throw _
  | some v => exact .pure v

theorem traces_invokeFor (env : Environment σ) (f : SheetFunction σ) (site : CallSite)
    (args : List Value) :
    Traces (env.journaled.invoke (f.journaled site.function) args) (env.invokeFor site f args) := by
  have hbody : Traces ((f.journaled site.function).body args) (Traced.record site f.body args) :=
    .record site f.body args
  rw [Environment.invoke, Environment.invokeFor, Environment.journaled_checkArity]
  cases env.checkArity with
  | true => exact (Traces.ofExcept (f.checkArity args.length)).bind fun _ => hbody
  | false => exact hbody

mutual

theorem traces_eval (env : Environment σ) (path : List Nat) :
    (e : Expr) → Traces (e.eval env.journaled) (e.evalTraced env path)
  | number x => by
      rw [eval, evalTraced]
      exact .pure _
  | text s => by
      rw [eval, evalTraced]
      exact .pure _
  | bool b => by
      rw [eval, evalTraced]
      exact .pure _
  | var name => by
      rw [eval, evalTraced]
      exact traces_lookup env name
  | call f args => by
      rw [eval, evalTraced]
      cases SpecialForm.ofName? f with
      | some form =>
          cases form with
          | conditional =>
              refine (Traces.ofExcept _).bind fun _ => ?_
              refine (traces_evalAt env path 0 args 0).bind fun condition => ?_
              exact traces_evalAt env path 0 args _
          | recovery =>
              refine (Traces.ofExcept _).bind fun _ => ?_
              exact (traces_evalAt env path 0 args 0).tryCatch fun _ =>
                traces_evalAt env path 0 args 1
      | none =>
          rw [Environment.function, Environment.function, Environment.journaled_functions,
            FunctionTable.find?_journaled]
          cases env.functions.find? f with
          | none => exact fun _ => rfl
          | some g =>
              simp only [Option.map_some, Traced.lift_pure, pure_bind]
              refine (traces_evalAll env path 0 args).bind fun values => ?_
              exact traces_invokeFor env g ⟨path, Text.lower f⟩ values

theorem traces_evalAll (env : Environment σ) (path : List Nat) (position : Nat) :
    (es : List Expr) → Traces (evalAll env.journaled es) (evalTracedAll env path position es)
  | [] => by
      rw [evalAll, evalTracedAll]
      exact .pure _
  | e :: es => by
      rw [evalAll, evalTracedAll]
      refine (traces_eval env (path ++ [position]) e).bind fun v => ?_
      exact (traces_evalAll env path (position + 1) es).bind fun vs => .pure _

theorem traces_evalAt (env : Environment σ) (path : List Nat) (position : Nat) :
    (es : List Expr) → (count : Nat) →
      Traces (evalAt env.journaled es count) (evalTracedAt env path position es count)
  | [], count => by
      rw [evalAt, evalTracedAt]
      exact .pure _
  | e :: es, 0 => by
      rw [evalAt, evalTracedAt]
      exact traces_eval env (path ++ [position]) e
  | e :: es, count + 1 => by
      rw [evalAt, evalTracedAt]
      exact traces_evalAt env path (position + 1) es count

end

/-- Without the places, a trace is the run. -/
theorem run_eq_of_trace (env : Environment σ) (e : Expr) (host : σ) :
    e.run env host =
      ⟨(e.trace env host).1, (e.trace env host).2.invocations.map Invocation.call,
        (e.trace env host).2.host⟩ := by
  have h := traces_eval env [] e ⟨host, []⟩
  simp only [Traced.journaled, List.map_nil] at h
  rw [run, h]
  rfl

end Expr

end SheetFormula
