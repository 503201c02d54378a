/-
  SheetFormula.Proofs.Evaluation.Run

  The run of an expression as an observer sees it: the result, the calls of
  function bodies in their order with their arguments, and the host's state at
  the end.  Runs are recorded by functions that keep a journal; keeping it
  changes neither the result nor what the host ends in (`run_result`,
  `run_host`).
-/
import SheetFormula.Expr.Eval
import SheetFormula.Proofs.Evaluation.Relations

namespace SheetFormula

variable {σ : Type}

/-! ## Journals for functions -/

/-- The function with a journal of its calls. -/
def SheetFunction.journaled (f : SheetFunction σ) (label : String) :
    SheetFunction (Journaled σ) where
  name := f.name
  minArgs := f.minArgs
  maxArgs := f.maxArgs
  body := Journaled.record label f.body
  builtin := f.builtin

/-- The table whose functions enter their calls in a journal, under the names that they are kept
    by. -/
def FunctionTable.journaled (t : FunctionTable σ) : FunctionTable (Journaled σ) where
  entries := t.entries.map fun key f => f.journaled key

theorem FunctionTable.find?_journaled (t : FunctionTable σ) (name : String) :
    t.journaled.find? name = (t.find? name).map (·.journaled (Text.lower name)) := by
  simp [journaled, find?]

/-- The environment whose functions keep a journal. -/
def Environment.journaled (env : Environment σ) : Environment (Journaled σ) where
  scope := env.scope
  functions := env.functions.journaled
  checkArity := env.checkArity

@[simp] theorem Environment.journaled_scope (env : Environment σ) :
    env.journaled.scope = env.scope := rfl

@[simp] theorem Environment.journaled_functions (env : Environment σ) :
    env.journaled.functions = env.functions.journaled := rfl

@[simp] theorem Environment.journaled_checkArity (env : Environment σ) :
    env.journaled.checkArity = env.checkArity := rfl

/-! ## Runs -/

/-- What can be seen of an evaluation. -/
structure Run (σ : Type) where
  result : Except Error Value
  /-- The calls of function bodies, the first one in front. -/
  calls : List Call
  /-- The host's state at the end. -/
  host : σ

/-- The run of an expression from a state of the host. -/
def Expr.run (env : Environment σ) (e : Expr) (host : σ) : Run σ :=
  let outcome := (e.eval env.journaled).runOn ⟨host, []⟩
  ⟨outcome.1, outcome.2.calls, outcome.2.host⟩

/-! ## A journal changes nothing else -/

/-- An action with a journal ends as the plain action does and adds to the journal. -/
def Observes {α : Type} (plain : Host σ α) (observed : Host (Journaled σ) α) : Prop :=
  ∀ state, ∃ calls, observed.runOn state =
    ((plain.runOn state.host).1, ⟨(plain.runOn state.host).2, state.calls ++ calls⟩)

namespace Observes

variable {α β : Type}

theorem pure (a : α) : Observes (Pure.pure a : Host σ α) (Pure.pure a) :=
  fun state => ⟨[], by simp⟩

theorem throw (e : Error) :
    Observes (MonadExcept.throw e : Host σ α) (MonadExcept.throw e) :=
  fun state => ⟨[], by simp⟩

theorem ofExcept (r : Except Error α) : Observes (Host.ofExcept r : Host σ α) (Host.ofExcept r) :=
  fun state => ⟨[], by simp⟩

theorem record (label : String) (body : List Value → Host σ Value) (args : List Value) :
    Observes (body args) (Journaled.record label body args) :=
  fun state => ⟨[⟨label, args⟩], by rw [Journaled.runOn_record]⟩

theorem bind {plain : Host σ α} {observed : Host (Journaled σ) α} {next : α → Host σ β}
    {next' : α → Host (Journaled σ) β} (h : Observes plain observed)
    (hnext : ∀ a, Observes (next a) (next' a)) :
    Observes (plain >>= next) (observed >>= next') := by
  intro state
  obtain ⟨calls, hcalls⟩ := h state
  rw [Host.runOn_bind, Host.runOn_bind, hcalls]
  rcases hplain : plain.runOn state.host with ⟨_ | a, host⟩
  -- After an error nothing more is called.
  · exact ⟨calls, rfl⟩
  · obtain ⟨calls', hcalls'⟩ := hnext a ⟨host, state.calls ++ calls⟩
    refine ⟨calls ++ calls', ?_⟩
    rw [← List.append_assoc]
    exact hcalls'

theorem tryCatch {plain : Host σ α} {observed : Host (Journaled σ) α} {recover : Error → Host σ α}
    {recover' : Error → Host (Journaled σ) α} (h : Observes plain observed)
    (hrecover : ∀ e, Observes (recover e) (recover' e)) :
    Observes (MonadExcept.tryCatch plain recover) (MonadExcept.tryCatch observed recover') := by
  intro state
  obtain ⟨calls, hcalls⟩ := h state
  rw [Host.runOn_tryCatch, Host.runOn_tryCatch, hcalls]
  rcases hplain : plain.runOn state.host with ⟨e | _, host⟩
  -- The calls before the error stay in the journal.
  · obtain ⟨calls', hcalls'⟩ := hrecover e ⟨host, state.calls ++ calls⟩
    refine ⟨calls ++ calls', ?_⟩
    rw [← List.append_assoc]
    exact hcalls'
  · exact ⟨calls, rfl⟩

theorem sequential : ActionRelation.Sequential fun _ => @Observes σ _ where
  pure := .pure
  bind := .bind

/-- Observed, an action comes to the same from a state with any journal. -/
theorem runOn_eq {plain : Host σ α} {observed : Host (Journaled σ) α}
    (h : Observes plain observed) {host host' : σ} {result : Except Error α}
    (hplain : plain.runOn host = (result, host')) (calls : List Call) :
    ∃ calls', observed.runOn ⟨host, calls⟩ = (result, ⟨host', calls'⟩) := by
  obtain ⟨added, hadded⟩ := h ⟨host, calls⟩
  rw [hplain] at hadded
  exact ⟨_, hadded⟩

end Observes

namespace Expr

theorem observes_lookup (env : Environment σ) (name : String) :
    Observes (env.lookup name) (env.journaled.lookup name) := by
  rw [Environment.lookup, Environment.lookup, Environment.journaled_scope]
  cases env.scope.get? name with
  | none => exact .throw _
  | some v => exact .pure v

theorem observes_invoke (env : Environment σ) (f : SheetFunction σ) (label : String)
    (args : List Value) :
    Observes (env.invoke f args) (env.journaled.invoke (f.journaled label) args) := by
  have hbody : Observes (f.body args) ((f.journaled label).body args) := .record label f.body args
  rw [Environment.invoke, Environment.invoke, Environment.journaled_checkArity]
  cases env.checkArity with
  | true => exact (Observes.ofExcept (f.checkArity args.length)).bind fun _ => hbody
  | false => exact hbody

theorem observes_function (env : Environment σ) (f : String) {x : Host σ (List Value)}
    {y : Host (Journaled σ) (List Value)} (h : Observes x y) :
    Observes (env.function f >>= fun g => x >>= env.invoke g)
      (env.journaled.function f >>= fun g => y >>= env.journaled.invoke g) := by
  rw [Environment.function, Environment.function, Environment.journaled_functions,
    FunctionTable.find?_journaled]
  cases env.functions.find? f with
  | none => exact fun state => ⟨[], by simp⟩
  | some g =>
      simp only [Option.map_some, pure_bind]
      exact h.bind fun values => observes_invoke env g _ values

theorem respects_observes (env : Environment σ) (e : Expr) :
    e.Respects (fun _ => Observes) env env.journaled where
  lookup name _ := observes_lookup env name
  count _ _ _ _ _ := .ofExcept _
  recover _ _ _ _ _ _ _ _ h h' := h.tryCatch fun _ => h'
  function f _ _ _ _ _ h := observes_function env f h

theorem observes_eval (env : Environment σ) (e : Expr) :
    Observes (e.eval env) (e.eval env.journaled) :=
  eval_related Observes.sequential e fun _ part _ => respects_observes env part

theorem observes_evalAll (env : Environment σ) (es : List Expr) :
    Observes (evalAll env es) (evalAll env.journaled es) :=
  evalAll_related Observes.sequential es fun _ _ _ part _ => respects_observes env part

theorem observes_evalAt (env : Environment σ) (es : List Expr) (position : Nat) :
    Observes (evalAt env es position) (evalAt env.journaled es position) :=
  evalAt_related Observes.sequential es (fun _ _ _ part _ => respects_observes env part) position

/-- A run ends in the result of the evaluation. -/
theorem run_result (env : Environment σ) (e : Expr) (host : σ) :
    (e.run env host).result = ((e.eval env).runOn host).1 := by
  obtain ⟨calls, hcalls⟩ := observes_eval env e ⟨host, []⟩
  rw [run, hcalls]

/-- A run leaves the host in the state that the evaluation leaves. -/
theorem run_host (env : Environment σ) (e : Expr) (host : σ) :
    (e.run env host).host = ((e.eval env).runOn host).2 := by
  obtain ⟨calls, hcalls⟩ := observes_eval env e ⟨host, []⟩
  rw [run, hcalls]

end Expr

end SheetFormula
