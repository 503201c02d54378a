/-
  SheetFormula.Proofs.Evaluation.Admission

  Bodies are not run on numbers of arguments that they do not declare.  Where
  calls are checked, a body runs behind the check of its own function, and this
  is the only place where a body runs, so it holds of every call in the journal
  of a run, also of those that are made before a failure that is recovered.
  Main statement: after any history of the function table, the functions in the
  journal of a checked run have got numbers of arguments that they take
  (`calls_admitted`).
-/
import SheetFormula.Proofs.Evaluation.Run
import SheetFormula.Proofs.Expressions.Parts
import SheetFormula.Proofs.Functions.LastChange

namespace SheetFormula

variable {σ : Type}

/-! ## Actions and the calls that they enter -/

/-- Whatever the journal has, the action enters only calls with the property. -/
def EntersOnly {α : Type} (p : Call → Prop) (action : Host (Journaled σ) α) : Prop :=
  ∀ state, ∃ added, (action.runOn state).2.calls = state.calls ++ added ∧ ∀ c ∈ added, p c

namespace EntersOnly

variable {α β : Type} {p : Call → Prop}

theorem pure (a : α) : EntersOnly p (Pure.pure a : Host (Journaled σ) α) :=
  fun state => ⟨[], by simp⟩

theorem ofExcept (r : Except Error α) :
    EntersOnly p (Host.ofExcept r : Host (Journaled σ) α) :=
  fun state => ⟨[], by simp⟩

theorem record {label : String} {args : List Value} (h : p ⟨label, args⟩)
    (body : List Value → Host σ Value) : EntersOnly p (Journaled.record label body args) :=
  fun state => ⟨[⟨label, args⟩], by simp [Journaled.runOn_record, h]⟩

theorem bind {action : Host (Journaled σ) α} {next : α → Host (Journaled σ) β}
    (h : EntersOnly p action) (hnext : ∀ a, EntersOnly p (next a)) :
    EntersOnly p (action >>= next) := by
  intro state
  obtain ⟨added, hadded, hp⟩ := h state
  rw [Host.runOn_bind]
  rcases hrun : action.runOn state with ⟨e | a, state'⟩
  · rw [hrun] at hadded
    exact ⟨added, hadded, hp⟩
  · rw [hrun] at hadded
    obtain ⟨added', hadded', hp'⟩ := hnext a state'
    refine ⟨added ++ added', ?_, List.forall_mem_append.mpr ⟨hp, hp'⟩⟩
    rw [hadded', hadded, List.append_assoc]

/-- The calls before the failure stay in the journal, so they count as well. -/
theorem tryCatch {action : Host (Journaled σ) α} {recover : Error → Host (Journaled σ) α}
    (h : EntersOnly p action) (hrecover : ∀ e, EntersOnly p (recover e)) :
    EntersOnly p (MonadExcept.tryCatch action recover) := by
  intro state
  obtain ⟨added, hadded, hp⟩ := h state
  rw [Host.runOn_tryCatch]
  rcases hrun : action.runOn state with ⟨e | a, state'⟩
  · rw [hrun] at hadded
    obtain ⟨added', hadded', hp'⟩ := hrecover e state'
    refine ⟨added ++ added', ?_, List.forall_mem_append.mpr ⟨hp, hp'⟩⟩
    rw [hadded', hadded, List.append_assoc]
  · rw [hrun] at hadded
    exact ⟨added, hadded, hp⟩

end EntersOnly

namespace Expr

/-! ## Checked evaluation -/

/-- The call is of a function that the expression names and that takes as many arguments. -/
def Admitted (functions : FunctionTable σ) (e : Expr) (c : Call) : Prop :=
  ∃ f g, e.Calls f ∧ c.label = Text.lower f ∧ functions.find? f = some g ∧
    g.checkArity c.args.length = .ok ()

section Checked

variable {functions : FunctionTable σ} {e : Expr}

theorem entersOnly_lookup {p : Call → Prop} (env : Environment (Journaled σ)) (name : String) :
    EntersOnly p (env.lookup name) := by
  rw [Environment.lookup]
  split
  · exact .pure _
  · exact .ofExcept (.error _)

theorem entersOnly_invoke (scope : Scope) {f : String} {g : SheetFunction σ} (hcalls : e.Calls f)
    (hfind : functions.find? f = some g) (args : List Value) :
    EntersOnly (Admitted functions e)
      ((Environment.journaled ⟨scope, functions, true⟩).invoke
        (g.journaled (Text.lower f)) args) := by
  show EntersOnly _ (Host.ofExcept (g.checkArity args.length) >>= fun _ =>
    Journaled.record (Text.lower f) g.body args)
  cases hcount : g.checkArity args.length with
  | ok _ => exact .record ⟨f, g, hcalls, rfl, hfind, hcount⟩ g.body
  -- A refused count keeps the body from being run.
  | error error => exact .ofExcept (.error error)

theorem entersOnly_function (scope : Scope) {f : String} (hcalls : e.Calls f)
    {action : Host (Journaled σ) (List Value)} (h : EntersOnly (Admitted functions e) action) :
    EntersOnly (Admitted functions e)
      ((Environment.journaled ⟨scope, functions, true⟩).function f >>= fun g =>
        action >>= (Environment.journaled ⟨scope, functions, true⟩).invoke g) := by
  simp only [Environment.function, Environment.journaled_functions, FunctionTable.find?_journaled]
  cases hfind : functions.find? f with
  | none => exact .ofExcept (.error _)
  | some g =>
      simp only [Option.map_some, pure_bind]
      exact h.bind fun values => entersOnly_invoke scope hcalls hfind values

theorem entersOnly_eval (scope : Scope) (functions : FunctionTable σ) (e : Expr) :
    EntersOnly (Admitted functions e)
      (e.eval (Environment.journaled ⟨scope, functions, true⟩)) := by
  let env : Environment (Journaled σ) := Environment.journaled ⟨scope, functions, true⟩
  -- The property is one of a single evaluation, so nothing is asked of the second one.
  let R : ActionRelation (Journaled σ) (Journaled σ) := fun _ action _ =>
    EntersOnly (Admitted functions e) action
  have hR : R.Sequential := ⟨.pure, .bind⟩
  have hparts : e.EveryPart (Respects R env env) := fun path part hpart => {
    lookup := fun name _ => entersOnly_lookup env name
    count := fun _ _ _ _ _ => .ofExcept _
    recover := fun _ _ _ _ _ _ _ _ h h' => h.tryCatch fun _ => h'
    function := fun f args hcall hform _ _ h => by
      have hcalls : e.Calls f := .of_subexpr? (hcall ▸ hpart) hform
      exact entersOnly_function scope hcalls h }
  exact eval_related hR e hparts

end Checked

/-- In a checked run each call is of a function that the expression calls and that takes as many
    arguments. -/
theorem admitted_of_mem_calls {scope : Scope} {functions : FunctionTable σ} {e : Expr} {host : σ}
    {c : Call} (h : c ∈ (e.run ⟨scope, functions, true⟩ host).calls) :
    Admitted functions e c := by
  obtain ⟨added, hadded, hall⟩ := entersOnly_eval scope functions e ⟨host, []⟩
  rw [List.nil_append] at hadded
  exact hall c (hadded ▸ h)

end Expr

/-! ## Tables with a history -/

/-- A second name that is the last change declares what its target declared when it was given. -/
theorem FunctionTable.counts_of_lastChange?_addAlias {first before : FunctionTable σ}
    {cs : List (Change σ)} {f name target : String} {g : SheetFunction σ}
    (hlast : first.lastChange? cs f = some (before, .addAlias name target))
    (hfind : (first.afterAll cs).find? f = some g) :
    ∃ h, before.find? target = some h ∧ g.minArgs = h.minArgs ∧ g.maxArgs = h.maxArgs := by
  have hwritten := behaviour_afterAll_of_lastChange? hlast
  rw [hfind, Option.map_some, Change.written, eq_comm, Option.map_eq_some_iff] at hwritten
  obtain ⟨h, htarget, hbehaviour⟩ := hwritten
  exact ⟨h, htarget, (congrArg Behaviour.minArgs hbehaviour).symm,
    (congrArg Behaviour.maxArgs hbehaviour).symm⟩

namespace Expr

/-- Where calls are checked, whatever has been done to the function table, each call in the run of
    an expression is of a function that the expression names, and gives it as many arguments as the
    function of this name declares; a second name declares what its target did. -/
theorem calls_admitted (first : FunctionTable σ) (cs : List (Change σ)) (scope : Scope) (e : Expr)
    (host : σ) :
    ∀ c ∈ (e.run ⟨scope, first.afterAll cs, true⟩ host).calls,
      ∃ f g, e.Calls f ∧ c.label = Text.lower f ∧ (first.afterAll cs).find? f = some g ∧
        g.minArgs ≤ c.args.length ∧ (∀ most, g.maxArgs = some most → c.args.length ≤ most) ∧
        ∀ before name target, first.lastChange? cs f = some (before, .addAlias name target) →
          ∃ h, before.find? target = some h ∧ g.minArgs = h.minArgs ∧ g.maxArgs = h.maxArgs := by
  intro c hc
  obtain ⟨f, g, hcalls, hlabel, hfind, hcount⟩ := admitted_of_mem_calls hc
  obtain ⟨hmin, hmax⟩ := (g.checkArity_eq_ok_iff c.args.length).mp hcount
  exact ⟨f, g, hcalls, hlabel, hfind, hmin, hmax, fun _ _ _ hlast =>
    FunctionTable.counts_of_lastChange?_addAlias hlast hfind⟩

/-- The conjunction gets a second name, and then one that takes a single argument is added. -/
def conjunctionRenamed : List (Change Unit) :=
  [.addAlias "Both" "__AND",
   .add { name := "__and", minArgs := 1, maxArgs := some 1, body := fun _ => pure .null }]

/-- A call with one argument is refused; the recovery makes another one with two. -/
def bothRecovered : Expr :=
  call "iferr" [call "both" [bool true], call "BOTH" [bool true, bool false]]

theorem calls_admitted_bothRecovered :
    ⟨"both", [.bool true, .bool false]⟩ ∈
        (bothRecovered.run ⟨⟨.empty, .empty⟩,
          FunctionTable.operators.afterAll conjunctionRenamed, true⟩ ()).calls ∧
      ∃ f g, bothRecovered.Calls f ∧ "both" = Text.lower f ∧
        (FunctionTable.operators.afterAll conjunctionRenamed).find? f = some g ∧ g.minArgs ≤ 2 ∧
        (∀ most, g.maxArgs = some most → 2 ≤ most) ∧
        ∀ before name target,
          FunctionTable.operators.lastChange? conjunctionRenamed f =
              some (before, .addAlias name target) →
            ∃ h, before.find? target = some h ∧ g.minArgs = h.minArgs ∧ g.maxArgs = h.maxArgs := by
  have hcall : ⟨"both", [.bool true, .bool false]⟩ ∈
      (bothRecovered.run ⟨⟨.empty, .empty⟩,
        FunctionTable.operators.afterAll conjunctionRenamed, true⟩ ()).calls := by
    decide +kernel
  exact ⟨hcall, calls_admitted .operators conjunctionRenamed ⟨.empty, .empty⟩ bothRecovered ()
    _ hcall⟩

end Expr

end SheetFormula
