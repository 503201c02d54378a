/-
  SheetFormula.Proofs.Evaluation.CountChecks

  What checking the counts of arguments changes.  In an expression without
  recoveries a refused count ends the run, so checking cuts a run short or
  leaves it as it is.  Main statement: with checks, a run is the run without
  them, or it fails with a wrong count after calls with which the run without
  them begins (`run_eq_or_cutShort`).

  A recovery would turn the failure into a value and go on, so recoveries have
  to be left out.  The two runs go in step up to the first refused count; from
  there on nothing is known of the run without checks but that its journal
  grows (`Guards`).
-/
import SheetFormula.Proofs.Evaluation.Failures
import SheetFormula.Proofs.Evaluation.Run

namespace SheetFormula

variable {σ : Type}

/-- The error is about a number of arguments. -/
def Error.IsCount (e : Error) : Prop := ∃ f expected actual, e = .argumentCount f expected actual

/-! ## Actions with and without checks -/

/-- From any state the checked action ends as the unchecked one, or it fails with a wrong count and
    has made calls with which the unchecked one begins. -/
structure Guards {α : Type} (checked unchecked : Host (Journaled σ) α) : Prop where
  eq_or_cutShort : ∀ state, checked.runOn state = unchecked.runOn state ∨
    (∃ e, e.IsCount ∧ (checked.runOn state).1 = .error e) ∧
      (checked.runOn state).2.calls <+: (unchecked.runOn state).2.calls
  grows : ∀ state, state.calls <+: (unchecked.runOn state).2.calls

namespace Guards

variable {α β : Type}

/-- Where nothing is checked, all that matters is that the journal grows. -/
theorem refl {action : Host (Journaled σ) α}
    (hgrows : ∀ state, state.calls <+: (action.runOn state).2.calls) : Guards action action :=
  ⟨fun _ => .inl rfl, hgrows⟩

theorem pure (a : α) : Guards (Pure.pure a : Host (Journaled σ) α) (Pure.pure a) :=
  refl fun state => List.prefix_refl state.calls

theorem ofExcept (r : Except Error α) :
    Guards (Host.ofExcept r : Host (Journaled σ) α) (Host.ofExcept r) :=
  refl fun state => by simp

theorem record (label : String) (body : List Value → Host σ Value) (args : List Value) :
    Guards (Journaled.record label body args) (Journaled.record label body args) :=
  refl fun state => by simp [Journaled.runOn_record]

/-- A refused count comes before whatever the unchecked action does. -/
theorem refused {e : Error} (he : e.IsCount) {unchecked : Host (Journaled σ) α}
    (hgrows : ∀ state, state.calls <+: (unchecked.runOn state).2.calls) :
    Guards (throw e) unchecked :=
  ⟨fun state => .inr ⟨⟨e, he, rfl⟩, hgrows state⟩, hgrows⟩

theorem bind {checked unchecked : Host (Journaled σ) α}
    {next next' : α → Host (Journaled σ) β} (h : Guards checked unchecked)
    (hnext : ∀ a, Guards (next a) (next' a)) :
    Guards (checked >>= next) (unchecked >>= next') := by
  -- What the unchecked action has entered is still there behind the next one.
  have hkept : ∀ state, (unchecked.runOn state).2.calls <+:
      ((unchecked >>= next').runOn state).2.calls := by
    intro state
    rw [Host.runOn_bind]
    rcases unchecked.runOn state with ⟨_ | a, state'⟩
    · exact List.prefix_refl _
    · exact (hnext a).grows state'
  constructor
  · intro state
    rcases h.eq_or_cutShort state with hsame | ⟨⟨e, he, herror⟩, hcalls⟩
    · rw [Host.runOn_bind, Host.runOn_bind, hsame]
      rcases unchecked.runOn state with ⟨_ | a, state'⟩
      · exact .inl rfl
      · exact (hnext a).eq_or_cutShort state'
    · -- An action that is cut short is the last one.
      have hend : (checked >>= next).runOn state = (.error e, (checked.runOn state).2) := by
        rw [Host.runOn_bind]
        rcases hrun : checked.runOn state with ⟨_ | a, state'⟩
        · rw [hrun] at herror
          cases herror
          rfl
        · rw [hrun] at herror
          cases herror
      rw [hend]
      exact .inr ⟨⟨e, he, rfl⟩, hcalls.trans (hkept state)⟩
  · exact fun state => (h.grows state).trans (hkept state)

theorem sequential : ActionRelation.Sequential fun _ => @Guards σ _ where
  pure := .pure
  bind := .bind

end Guards

/-! ## Checks of counts -/

/-- A form refuses no number without checks that it takes with them. -/
theorem SpecialForm.checkCount_false_of_true {form : SpecialForm} {n : Nat}
    (h : form.checkCount true n = .ok ()) : form.checkCount false n = .ok () := by
  unfold checkCount at h ⊢
  split at h
  · cases h
  · next hcount => exact if_neg fun hzero => hcount (.inl (by simpa using hzero))

theorem SpecialForm.guards_checkCount (form : SpecialForm) (n : Nat) :
    Guards (Host.ofExcept (form.checkCount true n) : Host (Journaled σ) Unit)
      (Host.ofExcept (form.checkCount false n)) := by
  cases htrue : form.checkCount true n with
  | ok _ =>
      rw [checkCount_false_of_true htrue]
      exact .ofExcept _
  | error e =>
      obtain ⟨_, rfl⟩ := exists_of_checkCount_eq_error htrue
      exact .refused ⟨_, _, _, rfl⟩ (Guards.ofExcept _).grows

namespace Expr

/-! ## Evaluation with and without checks -/

/-- No part of the expression is a recovery. -/
def Unrecovered (e : Expr) : Prop := e.EveryPart fun part => ∀ args, part ≠ call "iferr" args

theorem unrecovered_call_iff {f : String} {args : List Expr} :
    (call f args).Unrecovered ↔ f ≠ "iferr" ∧ ∀ arg ∈ args, arg.Unrecovered := by
  constructor
  · intro h
    exact ⟨fun hf => h.root args (hf ▸ rfl), h.of_mem_args⟩
  · rintro ⟨hf, hargs⟩
    exact .call (fun args' hcall => hf (call.inj hcall).1) hargs

theorem guards_lookup (scope : Scope) (functions : FunctionTable σ) (name : String) :
    Guards ((Environment.journaled ⟨scope, functions, true⟩).lookup name)
      ((Environment.journaled ⟨scope, functions, false⟩).lookup name) := by
  refine Guards.refl fun state => ?_
  rw [Environment.lookup]
  split <;> simp

theorem guards_invoke (scope : Scope) (functions : FunctionTable σ) (f : SheetFunction σ)
    (label : String) (args : List Value) :
    Guards ((Environment.journaled ⟨scope, functions, true⟩).invoke (f.journaled label) args)
      ((Environment.journaled ⟨scope, functions, false⟩).invoke (f.journaled label) args) := by
  have hbody : Guards ((f.journaled label).body args) ((f.journaled label).body args) :=
    .record label f.body args
  show Guards (Host.ofExcept (f.checkArity args.length) >>= fun _ => (f.journaled label).body args)
    ((f.journaled label).body args)
  cases hcount : f.checkArity args.length with
  | ok _ => exact hbody
  | error e =>
      obtain ⟨_, rfl⟩ := SheetFunction.exists_of_checkArity_eq_error hcount
      exact .refused ⟨_, _, _, rfl⟩ hbody.grows

theorem guards_function (scope : Scope) (functions : FunctionTable σ) (f : String)
    {checked unchecked : Host (Journaled σ) (List Value)} (h : Guards checked unchecked) :
    Guards
      ((Environment.journaled ⟨scope, functions, true⟩).function f >>= fun g =>
        checked >>= (Environment.journaled ⟨scope, functions, true⟩).invoke g)
      ((Environment.journaled ⟨scope, functions, false⟩).function f >>= fun g =>
        unchecked >>= (Environment.journaled ⟨scope, functions, false⟩).invoke g) := by
  simp only [Environment.function, Environment.journaled_functions, FunctionTable.find?_journaled]
  cases functions.find? f with
  | none => exact .ofExcept (.error _)
  | some g =>
      simp only [Option.map_some, pure_bind]
      exact h.bind fun values => guards_invoke scope functions g _ values

theorem guards_eval (scope : Scope) (functions : FunctionTable σ) {e : Expr}
    (h : e.Unrecovered) :
    Guards (e.eval (Environment.journaled ⟨scope, functions, true⟩))
      (e.eval (Environment.journaled ⟨scope, functions, false⟩)) := by
  refine eval_related Guards.sequential e fun path part hpart => ?_
  exact {
    lookup := fun name _ => guards_lookup scope functions name
    count := fun _ args form _ _ => form.guards_checkCount args.length
    -- No part is a recovery; if one were, the two runs could go on after a refused count.
    recover := fun f args hcall hform _ _ _ _ _ _ => by
      have hf : f = "iferr" := (SpecialForm.name_of_ofName? hform).symm
      exact absurd (hf ▸ hcall) (h path part hpart args)
    function := fun f _ _ _ _ _ hargs => guards_function scope functions f hargs }

/-! ## Runs -/

/-- Without recoveries, checking counts leaves a run as it is or makes it fail with a wrong count,
    and then it has made the first ones of the calls that are made without checks.  So what
    succeeds with checks has the same value without them. -/
theorem run_eq_or_cutShort (scope : Scope) (functions : FunctionTable σ) {e : Expr}
    (h : e.Unrecovered) (host : σ) :
    (e.run ⟨scope, functions, true⟩ host = e.run ⟨scope, functions, false⟩ host ∨
      (∃ f expected actual, (e.run ⟨scope, functions, true⟩ host).result =
          .error (.argumentCount f expected actual)) ∧
        (e.run ⟨scope, functions, true⟩ host).calls <+:
          (e.run ⟨scope, functions, false⟩ host).calls) ∧
      ∀ v, (e.run ⟨scope, functions, true⟩ host).result = .ok v →
        (e.run ⟨scope, functions, false⟩ host).result = .ok v := by
  rcases (guards_eval scope functions h).eq_or_cutShort ⟨host, []⟩ with hsame | hcut
  · have hrun : e.run ⟨scope, functions, true⟩ host = e.run ⟨scope, functions, false⟩ host := by
      rw [run, run, hsame]
    exact ⟨.inl hrun, fun v hv => hrun ▸ hv⟩
  · obtain ⟨⟨_, ⟨f, expected, actual, rfl⟩, herror⟩, hcalls⟩ := hcut
    have hresult : (e.run ⟨scope, functions, true⟩ host).result =
        .error (.argumentCount f expected actual) := herror
    refine ⟨.inr ⟨⟨f, expected, actual, hresult⟩, hcalls⟩, fun v hv => ?_⟩
    rw [hresult] at hv
    cases hv

/-- Notes its arguments, of which it declares one, and gives the first one back. -/
def note : SheetFunction (List Value) where
  name := "note"
  minArgs := 1
  maxArgs := some 1
  body args := do
    modify (· ++ args)
    pure (args.headD .null)

/-- The second of three notes is given two arguments. -/
def threeNotes : Expr :=
  call "if" [call "note" [bool true],
    call "note" [call "note" [bool false, bool true], call "note" [bool true]]]

theorem run_eq_or_cutShort_threeNotes :
    threeNotes.Unrecovered ∧
      ((threeNotes.run ⟨⟨.empty, .empty⟩, .ofList [note], true⟩ [] =
            threeNotes.run ⟨⟨.empty, .empty⟩, .ofList [note], false⟩ [] ∨
          (∃ f expected actual,
              (threeNotes.run ⟨⟨.empty, .empty⟩, .ofList [note], true⟩ []).result =
                .error (.argumentCount f expected actual)) ∧
            (threeNotes.run ⟨⟨.empty, .empty⟩, .ofList [note], true⟩ []).calls <+:
              (threeNotes.run ⟨⟨.empty, .empty⟩, .ofList [note], false⟩ []).calls) ∧
        ∀ v, (threeNotes.run ⟨⟨.empty, .empty⟩, .ofList [note], true⟩ []).result = .ok v →
          (threeNotes.run ⟨⟨.empty, .empty⟩, .ofList [note], false⟩ []).result = .ok v) := by
  have hbool (b : Bool) : (bool b).Unrecovered := .leaf (by simp) (by simp)
  have h : threeNotes.Unrecovered := by simp [threeNotes, unrecovered_call_iff, hbool]
  exact ⟨h, run_eq_or_cutShort ⟨.empty, .empty⟩ (.ofList [note]) h []⟩

/-- The first call is made with checks and without them, the others only without. -/
example :
    (threeNotes.run ⟨⟨.empty, .empty⟩, .ofList [note], true⟩ []).calls =
        [⟨"note", [.bool true]⟩] ∧
      (threeNotes.run ⟨⟨.empty, .empty⟩, .ofList [note], false⟩ []).calls =
        [⟨"note", [.bool true]⟩, ⟨"note", [.bool false, .bool true]⟩, ⟨"note", [.bool true]⟩,
          ⟨"note", [.bool false, .bool true]⟩] := by
  decide +kernel

end Expr

end SheetFormula
