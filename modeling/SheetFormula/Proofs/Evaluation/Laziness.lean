/-
  SheetFormula.Proofs.Evaluation.Laziness

  What a run passes over.  A part of an expression is dead in a run if the call
  above it that decides the matter skips the argument with the part: the other
  branch is selected, the first value does not fail, the count is refused, an
  earlier argument fails or the function is unknown.  Main statement: whatever
  is put in place of a dead part, the run is the same (`run_replaceAt_of_dead`).

  A call reads of its arguments only what they do from the states in which it
  reaches them (`runOn_call_congr`), and an argument is either reached or
  skipped (`reaches_or_skips`).  The state matters: an argument that is skipped
  from one state of the host may be evaluated from another.
-/
import SheetFormula.Proofs.Evaluation.Run
import SheetFormula.Proofs.Expressions.Parts
import SheetFormula.Proofs.Functions.Shipped

namespace SheetFormula

variable {σ : Type}

namespace Expr

/-! ## Arguments that a call reaches -/

/-- The call of `f`, begun on `host`, evaluates its argument at a position, and does so on another
    state. -/
inductive Reaches (env : Environment σ) (f : String) (args : List Expr) (host : σ) :
    Nat → σ → Prop where
  | first {form : SpecialForm} (hform : SpecialForm.ofName? f = some form)
      (hcount : form.checkCount env.checkArity args.length = .ok ()) :
      Reaches env f args host 0 host
  | branch {condition : Value} {i : Nat} {host' : σ}
      (hform : SpecialForm.ofName? f = some .conditional)
      (hcount : SpecialForm.conditional.checkCount env.checkArity args.length = .ok ())
      (hcondition : (evalAt env args 0).runOn host = (.ok condition, host'))
      (hi : i = if condition.isTruthy then 1 else 2) :
      Reaches env f args host i host'
  | fallback {e : Error} {host' : σ} (hform : SpecialForm.ofName? f = some .recovery)
      (hcount : SpecialForm.recovery.checkCount env.checkArity args.length = .ok ())
      (hfirst : (evalAt env args 0).runOn host = (.error e, host')) :
      Reaches env f args host 1 host'
  | argument {g : SheetFunction σ} {i : Nat} {vs : List Value} {host' : σ}
      (hform : SpecialForm.ofName? f = none) (hfind : env.functions.find? f = some g)
      (hbefore : (evalAll env (args.take i)).runOn host = (.ok vs, host')) :
      Reaches env f args host i host'

/-- The call of `f`, begun on `host`, does without its argument at a position. -/
inductive Skips (env : Environment σ) (f : String) (args : List Expr) (host : σ) :
    Nat → Prop where
  /-- The branch that the condition does not select. -/
  | unselected {condition : Value} {i : Nat} {host' : σ}
      (hform : SpecialForm.ofName? f = some .conditional)
      (hcondition : (evalAt env args 0).runOn host = (.ok condition, host'))
      (hfirst : i ≠ 0) (hi : i ≠ if condition.isTruthy then 1 else 2) :
      Skips env f args host i
  /-- The fallback of a value that does not fail. -/
  | spared {v : Value} {i : Nat} {host' : σ} (hform : SpecialForm.ofName? f = some .recovery)
      (hfirst : (evalAt env args 0).runOn host = (.ok v, host')) (hi : i ≠ 0) :
      Skips env f args host i
  /-- Arguments that a form takes where calls are not checked, and has no use for. -/
  | surplus {form : SpecialForm} {i : Nat} (hform : SpecialForm.ofName? f = some form)
      (hi : form.maxArgs ≤ i) :
      Skips env f args host i
  /-- Any argument of a form that refuses their number. -/
  | refused {form : SpecialForm} {e : Error} {i : Nat} (hform : SpecialForm.ofName? f = some form)
      (hcount : form.checkCount env.checkArity args.length = .error e) :
      Skips env f args host i
  /-- A branch behind a condition that fails. -/
  | undecided {e : Error} {i : Nat} {host' : σ}
      (hform : SpecialForm.ofName? f = some .conditional)
      (hcondition : (evalAt env args 0).runOn host = (.error e, host')) (hi : i ≠ 0) :
      Skips env f args host i
  /-- An argument behind one that fails. -/
  | behindFailure {e : Error} {i : Nat} {host' : σ} (hform : SpecialForm.ofName? f = none)
      (hbefore : (evalAll env (args.take i)).runOn host = (.error e, host')) :
      Skips env f args host i
  /-- Any argument of a function that does not exist. -/
  | unknown {i : Nat} (hform : SpecialForm.ofName? f = none)
      (hfind : env.functions.find? f = none) :
      Skips env f args host i

section Inversion

variable {env : Environment σ} {f : String} {args : List Expr} {host host' : σ} {i : Nat}

theorem Reaches.of_conditional (h : Reaches env f args host i host')
    (hform : SpecialForm.ofName? f = some .conditional) :
    SpecialForm.conditional.checkCount env.checkArity args.length = .ok () ∧
      (i = 0 ∧ host' = host ∨
        ∃ condition, (evalAt env args 0).runOn host = (.ok condition, host') ∧
          i = if condition.isTruthy then 1 else 2) := by
  cases h with
  | first hform' hcount =>
      rw [hform] at hform'
      cases hform'
      exact ⟨hcount, .inl ⟨rfl, rfl⟩⟩
  | branch _ hcount hcondition hi => exact ⟨hcount, .inr ⟨_, hcondition, hi⟩⟩
  | fallback hform' => simp [hform] at hform'
  | argument hform' => simp [hform] at hform'

theorem Reaches.of_recovery (h : Reaches env f args host i host')
    (hform : SpecialForm.ofName? f = some .recovery) :
    SpecialForm.recovery.checkCount env.checkArity args.length = .ok () ∧
      (i = 0 ∧ host' = host ∨
        ∃ e, (evalAt env args 0).runOn host = (.error e, host') ∧ i = 1) := by
  cases h with
  | first hform' hcount =>
      rw [hform] at hform'
      cases hform'
      exact ⟨hcount, .inl ⟨rfl, rfl⟩⟩
  | branch hform' => simp [hform] at hform'
  | fallback _ hcount hfirst => exact ⟨hcount, .inr ⟨_, hfirst, rfl⟩⟩
  | argument hform' => simp [hform] at hform'

theorem Reaches.of_function (h : Reaches env f args host i host')
    (hform : SpecialForm.ofName? f = none) :
    (∃ g, env.functions.find? f = some g) ∧
      ∃ vs, (evalAll env (args.take i)).runOn host = (.ok vs, host') := by
  cases h with
  | first hform' => simp [hform] at hform'
  | branch hform' => simp [hform] at hform'
  | fallback hform' => simp [hform] at hform'
  | argument _ hfind hbefore => exact ⟨⟨_, hfind⟩, _, hbefore⟩

/-- From one state an argument is reached on one state. -/
theorem Reaches.state_unique {host₁ host₂ : σ} (h₁ : Reaches env f args host i host₁)
    (h₂ : Reaches env f args host i host₂) : host₁ = host₂ := by
  cases hform : SpecialForm.ofName? f with
  | none =>
      obtain ⟨-, vs₁, hbefore₁⟩ := h₁.of_function hform
      obtain ⟨-, vs₂, hbefore₂⟩ := h₂.of_function hform
      rw [hbefore₁] at hbefore₂
      exact congrArg Prod.snd hbefore₂
  | some form =>
      -- The first argument is reached at once, and no other position is the first one's.
      have hzero {condition : Value} : 0 ≠ if condition.isTruthy then 1 else 2 := by
        split <;> decide
      cases form with
      | conditional =>
          obtain ⟨-, ⟨rfl, rfl⟩ | ⟨c₁, hrun₁, hi₁⟩⟩ := h₁.of_conditional hform <;>
          obtain ⟨-, ⟨hi₂, rfl⟩ | ⟨c₂, hrun₂, hi₂⟩⟩ := h₂.of_conditional hform
          · rfl
          · exact absurd hi₂ hzero
          · exact absurd (hi₂.symm.trans hi₁) hzero
          · rw [hrun₁] at hrun₂
            exact congrArg Prod.snd hrun₂
      | recovery =>
          obtain ⟨-, ⟨rfl, rfl⟩ | ⟨e₁, hrun₁, rfl⟩⟩ := h₁.of_recovery hform <;>
          obtain ⟨-, ⟨hi₂, rfl⟩ | ⟨e₂, hrun₂, hi₂⟩⟩ := h₂.of_recovery hform
          · rfl
          · cases hi₂
          · cases hi₂
          · rw [hrun₁] at hrun₂
            exact congrArg Prod.snd hrun₂

/-- An argument that is skipped is not reached. -/
theorem Skips.not_reaches (h : Skips env f args host i) : ¬ Reaches env f args host i host' := by
  intro hreach
  cases h with
  | unselected hform hcondition hfirst hi =>
      obtain ⟨-, ⟨rfl, -⟩ | ⟨c, hrun, rfl⟩⟩ := hreach.of_conditional hform
      · exact hfirst rfl
      · rw [hcondition] at hrun
        cases hrun
        exact hi rfl
  | spared hform hfirst hi =>
      obtain ⟨-, ⟨rfl, -⟩ | ⟨e, hrun, -⟩⟩ := hreach.of_recovery hform
      · exact hi rfl
      · rw [hfirst] at hrun
        cases hrun
  | @surplus form _ hform hi =>
      cases form with
      | conditional =>
          obtain ⟨-, ⟨rfl, -⟩ | ⟨c, -, rfl⟩⟩ := hreach.of_conditional hform
          · cases hi
          · split at hi <;> simp [SpecialForm.maxArgs] at hi
      | recovery =>
          obtain ⟨-, ⟨rfl, -⟩ | ⟨e, -, rfl⟩⟩ := hreach.of_recovery hform
          · cases hi
          · simp [SpecialForm.maxArgs] at hi
  | @refused form _ _ hform hcount =>
      cases form with
      | conditional => simp [(hreach.of_conditional hform).1] at hcount
      | recovery => simp [(hreach.of_recovery hform).1] at hcount
  | undecided hform hcondition hi =>
      obtain ⟨-, ⟨rfl, -⟩ | ⟨c, hrun, -⟩⟩ := hreach.of_conditional hform
      · exact hi rfl
      · rw [hcondition] at hrun
        cases hrun
  | behindFailure hform hbefore =>
      obtain ⟨-, vs, hrun⟩ := hreach.of_function hform
      rw [hbefore] at hrun
      cases hrun
  | unknown hform hfind =>
      obtain ⟨⟨g, hg⟩, -⟩ := hreach.of_function hform
      rw [hfind] at hg
      cases hg

/-- Each argument is reached or skipped. -/
theorem reaches_or_skips (env : Environment σ) (f : String) (args : List Expr) (host : σ)
    (i : Nat) : (∃ host', Reaches env f args host i host') ∨ Skips env f args host i := by
  cases hform : SpecialForm.ofName? f with
  | none =>
      cases hfind : env.functions.find? f with
      | none => exact .inr (.unknown hform hfind)
      | some g =>
          rcases hbefore : (evalAll env (args.take i)).runOn host with ⟨_ | vs, host'⟩
          · exact .inr (.behindFailure hform hbefore)
          · exact .inl ⟨host', .argument hform hfind hbefore⟩
  | some form =>
      cases hcount : form.checkCount env.checkArity args.length with
      | error e => exact .inr (.refused hform hcount)
      | ok _ =>
          by_cases hi : i = 0
          · exact .inl ⟨host, hi ▸ .first hform hcount⟩
          rcases hrun : (evalAt env args 0).runOn host with ⟨e | v, host'⟩
          · cases form with
            | conditional => exact .inr (.undecided hform hrun hi)
            | recovery =>
                by_cases hone : i = 1
                · exact .inl ⟨host', hone ▸ .fallback hform hcount hrun⟩
                · exact .inr (.surplus hform (by simp only [SpecialForm.maxArgs]; omega))
          · cases form with
            | conditional =>
                by_cases hselected : i = if v.isTruthy then 1 else 2
                · exact .inl ⟨host', .branch hform hcount hrun hselected⟩
                · exact .inr (.unselected hform hrun hi hselected)
            | recovery => exact .inr (.spared hform hrun hi)

end Inversion

/-! ## Calls read the arguments that they reach -/

/-- Lists whose members do the same from the states in which they are evaluated. -/
theorem runOn_evalAll_congr {env : Environment σ} :
    {es es' : List Expr} → {host : σ} → es'.length = es.length →
      (∀ i vs host', (evalAll env (es.take i)).runOn host = (.ok vs, host') →
        (evalAt env es' i).runOn host' = (evalAt env es i).runOn host') →
      (evalAll env es').runOn host = (evalAll env es).runOn host
  | [], [], _, _, _ => rfl
  | [], _ :: _, _, hlength, _ => by cases hlength
  | _ :: _, [], _, hlength, _ => by cases hlength
  | e :: es, e' :: es', host, hlength, hsame => by
      have he : (e'.eval env).runOn host = (e.eval env).runOn host := by
        have hfirst := hsame 0 [] host (by rw [List.take_zero, evalAll]; rfl)
        rwa [evalAt, evalAt] at hfirst
      rw [evalAll, evalAll, Host.runOn_bind, Host.runOn_bind, he]
      -- What is evaluated before an argument of the rest is evaluated behind the first one.
      rcases hrun : (e.eval env).runOn host with ⟨_ | v, host₁⟩
      · rfl
      · have hrest : (evalAll env es').runOn host₁ = (evalAll env es).runOn host₁ := by
          refine runOn_evalAll_congr (Nat.succ.inj hlength) fun i vs host' hbefore => ?_
          have hnext := hsame (i + 1) (v :: vs) host' (by
            rw [List.take_succ_cons, evalAll, Host.runOn_bind, hrun]
            simp only [Host.runOn_bind, hbefore, Host.runOn_pure])
          rwa [evalAt, evalAt] at hnext
        simp only [Host.runOn_bind, hrest]

/-- A call does the same with other arguments if these do the same wherever it reaches them. -/
theorem runOn_call_congr {env : Environment σ} {f : String} {args args' : List Expr} {host : σ}
    (hlength : args'.length = args.length)
    (hsame : ∀ i host', Reaches env f args host i host' →
      (evalAt env args' i).runOn host' = (evalAt env args i).runOn host') :
    ((call f args').eval env).runOn host = ((call f args).eval env).runOn host := by
  rw [eval, eval, hlength]
  cases hform : SpecialForm.ofName? f with
  | some form =>
      cases hcount : form.checkCount env.checkArity args.length with
      | error e => cases form <;> simp [hcount]
      | ok _ =>
          have hfirst := hsame 0 host (.first hform hcount)
          cases form with
          | conditional =>
              simp only [hcount, Host.ofExcept_ok, pure_bind, Host.runOn_bind, hfirst]
              rcases hrun : (evalAt env args 0).runOn host with ⟨_ | condition, host'⟩
              · rfl
              · exact hsame _ host' (.branch hform hcount hrun rfl)
          | recovery =>
              simp only [hcount, Host.ofExcept_ok, pure_bind, Host.runOn_tryCatch, hfirst]
              rcases hrun : (evalAt env args 0).runOn host with ⟨_ | v, host'⟩
              · exact hsame 1 host' (.fallback hform hcount hrun)
              · rfl
  | none =>
      cases hfind : env.functions.find? f with
      | none => simp [Environment.function, hfind]
      | some g =>
          have hall : (evalAll env args').runOn host = (evalAll env args).runOn host :=
            runOn_evalAll_congr hlength fun i vs host' hbefore =>
              hsame i host' (.argument hform hfind hbefore)
          simp only [Environment.function, hfind, pure_bind, Host.runOn_bind, hall]

/-! ## Changing one argument -/

theorem evalAt_eq_of_getElem? {env : Environment σ} :
    {es : List Expr} → {i : Nat} → {e : Expr} → es[i]? = some e → evalAt env es i = e.eval env
  | [], _, _, h => by simp at h
  | e :: es, 0, _, h => by
      cases h
      rw [evalAt]
  | e :: es, i + 1, _, h => by
      rw [evalAt]
      exact evalAt_eq_of_getElem? h

theorem evalAt_modify_of_ne {env : Environment σ} (change : Expr → Expr) :
    (es : List Expr) → {i j : Nat} → i ≠ j → evalAt env (es.modify i change) j = evalAt env es j
  | [], _, _, _ => by rw [List.modify_nil]
  | e :: es, 0, 0, h => absurd rfl h
  | e :: es, 0, j + 1, _ => by rw [List.modify_zero_cons, evalAt, evalAt]
  | e :: es, i + 1, 0, _ => by rw [List.modify_succ_cons, evalAt, evalAt]
  | e :: es, i + 1, j + 1, h => by
      rw [List.modify_succ_cons, evalAt, evalAt]
      exact evalAt_modify_of_ne change es (fun hij => h (congrArg Nat.succ hij))

theorem evalAt_modify_self {env : Environment σ} {es : List Expr} {i : Nat} {e : Expr}
    (h : es[i]? = some e) (change : Expr → Expr) :
    evalAt env (es.modify i change) i = (change e).eval env :=
  evalAt_eq_of_getElem? (by simp [h])

/-! ## Dead parts -/

/-- In the run of an expression from a state of the host, the part at a path is in an argument that
    is skipped by a call that is evaluated. -/
inductive Dead (env : Environment σ) : Expr → σ → List Nat → Prop where
  | skipped {f : String} {args : List Expr} {host : σ} {i : Nat}
      (hskips : Skips env f args host i) (below : List Nat) :
      Dead env (call f args) host (i :: below)
  | inside {f : String} {args : List Expr} {host host' : σ} {i : Nat} {arg : Expr}
      {below : List Nat} (hreaches : Reaches env f args host i host') (harg : args[i]? = some arg)
      (hdead : Dead env arg host' below) :
      Dead env (call f args) host (i :: below)

/-- Evaluation does not read what is dead. -/
theorem Dead.runOn_replaceAt {env : Environment σ} {e : Expr} {host : σ} {path : List Nat}
    (h : Dead env e host path) (new : Expr) :
    ((e.replaceAt path new).eval env).runOn host = (e.eval env).runOn host := by
  induction h with
  | @skipped f args host i hskips below =>
      rw [replaceAt_cons]
      refine runOn_call_congr (List.length_modify ..) fun j host' hreaches => ?_
      have hij : i ≠ j := by
        rintro rfl
        exact hskips.not_reaches hreaches
      rw [evalAt_modify_of_ne _ args hij]
  | @inside f args host host' i arg below hreaches harg _ ih =>
      rw [replaceAt_cons]
      refine runOn_call_congr (List.length_modify ..) fun j host'' hreaches' => ?_
      -- Only the argument with the dead part differs, and the call reaches it on one state only.
      by_cases hij : i = j
      · subst hij
        rw [hreaches'.state_unique hreaches, evalAt_modify_self harg, evalAt_eq_of_getElem? harg]
        exact ih
      · rw [evalAt_modify_of_ne _ args hij]

/-! ## Journals do not revive -/

section Journals

variable {env : Environment σ} {f : String} {args : List Expr} {host host' : σ} {i : Nat}

theorem Reaches.journaled (h : Reaches env f args host i host') (calls : List Call) :
    ∃ calls', Reaches env.journaled f args ⟨host, calls⟩ i ⟨host', calls'⟩ := by
  cases h with
  | first hform hcount => exact ⟨calls, .first hform hcount⟩
  | branch hform hcount hcondition hi =>
      obtain ⟨calls', hrun⟩ := (observes_evalAt env args 0).runOn_eq hcondition calls
      exact ⟨calls', .branch hform hcount hrun hi⟩
  | fallback hform hcount hfirst =>
      obtain ⟨calls', hrun⟩ := (observes_evalAt env args 0).runOn_eq hfirst calls
      exact ⟨calls', .fallback hform hcount hrun⟩
  | @argument g _ _ _ hform hfind hbefore =>
      obtain ⟨calls', hrun⟩ := (observes_evalAll env (args.take i)).runOn_eq hbefore calls
      refine ⟨calls', .argument (g := g.journaled (Text.lower f)) hform ?_ hrun⟩
      rw [Environment.journaled_functions, FunctionTable.find?_journaled, hfind]
      rfl

theorem Skips.journaled (h : Skips env f args host i) (calls : List Call) :
    Skips env.journaled f args ⟨host, calls⟩ i := by
  cases h with
  | unselected hform hcondition hfirst hi =>
      obtain ⟨calls', hrun⟩ := (observes_evalAt env args 0).runOn_eq hcondition calls
      exact .unselected hform hrun hfirst hi
  | spared hform hfirst hi =>
      obtain ⟨calls', hrun⟩ := (observes_evalAt env args 0).runOn_eq hfirst calls
      exact .spared hform hrun hi
  | surplus hform hi => exact .surplus hform hi
  | refused hform hcount => exact .refused hform hcount
  | undecided hform hcondition hi =>
      obtain ⟨calls', hrun⟩ := (observes_evalAt env args 0).runOn_eq hcondition calls
      exact .undecided hform hrun hi
  | behindFailure hform hbefore =>
      obtain ⟨calls', hrun⟩ := (observes_evalAll env (args.take i)).runOn_eq hbefore calls
      exact .behindFailure hform hrun
  | unknown hform hfind =>
      refine .unknown hform ?_
      rw [Environment.journaled_functions, FunctionTable.find?_journaled, hfind]
      rfl

theorem Dead.journaled {e : Expr} {path : List Nat} (h : Dead env e host path)
    (calls : List Call) : Dead env.journaled e ⟨host, calls⟩ path := by
  induction h generalizing calls with
  | skipped hskips below => exact .skipped (hskips.journaled calls) below
  | inside hreaches harg _ ih =>
      obtain ⟨calls', hreaches'⟩ := hreaches.journaled calls
      exact .inside hreaches' harg (ih calls')

end Journals

/-! ## Runs -/

/-- Whatever is put in place of a dead part, the run is the same: the same result, the same calls of
    bodies with the same arguments and the same state of the host at the end. -/
theorem run_replaceAt_of_dead (env : Environment σ) {e old : Expr} {host : σ} {path : List Nat}
    (hpart : e.subexpr? path = some old) (hdead : Dead env e host path) (new : Expr) :
    (e.replaceAt path new).subexpr? path = some new ∧
      (e.replaceAt path new).run env host = e.run env host ∧
      ((e.replaceAt path new).eval env).runOn host = (e.eval env).runOn host := by
  refine ⟨subexpr?_replaceAt hpart new, ?_, hdead.runOn_replaceAt new⟩
  rw [run, run, (hdead.journaled []).runOn_replaceAt new]

/-- Gives the host's state and turns it over. -/
def toggle : SheetFunction Bool where
  name := "toggle"
  body _ := do
    let b ← get
    set !b
    pure (.bool b)

/-- Knows no function but the toggle and binds no names. -/
def toggling : Environment Bool := ⟨⟨.empty, .empty⟩, .ofList [toggle], true⟩

theorem find?_toggling : toggling.functions.find? "toggle" = some toggle := by
  have hname : Text.lower "toggle" = "toggle" := by decide +kernel
  rw [toggling, FunctionTable.find?_ofList, hname]
  rfl

/-- The toggle gives what the host has. -/
theorem runOn_toggle (b : Bool) (rest : List Expr) :
    (evalAt toggling (call "toggle" [] :: rest) 0).runOn b = (.ok (.bool b), !b) := by
  have hform : SpecialForm.ofName? "toggle" = none := by decide
  rw [evalAt, eval, hform, Environment.function, find?_toggling]
  simp only [evalAll, pure_bind]
  cases b <;> rfl

/-- The outer condition turns the state over, so the inner one, spelled alike, selects the other
    branch. -/
def toggledTwice : Expr :=
  call "if" [call "toggle" [], call "if" [call "toggle" [], call "f" [var "x"], bool true]]

theorem run_replaceAt_of_dead_toggledTwice :
    toggledTwice.subexpr? [1, 1, 0] = some (var "x") ∧
      Dead toggling toggledTwice true [1, 1, 0] ∧
      ((toggledTwice.replaceAt [1, 1, 0] (call "toggle" [])).subexpr? [1, 1, 0] =
          some (call "toggle" []) ∧
        (toggledTwice.replaceAt [1, 1, 0] (call "toggle" [])).run toggling true =
          toggledTwice.run toggling true ∧
        ((toggledTwice.replaceAt [1, 1, 0] (call "toggle" [])).eval toggling).runOn true =
          (toggledTwice.eval toggling).runOn true) := by
  have hpart : toggledTwice.subexpr? [1, 1, 0] = some (var "x") := by
    simp [toggledTwice, subexpr?]
  have hdead : Dead toggling toggledTwice true [1, 1, 0] :=
    .inside (.branch (by decide) rfl (runOn_toggle true _) (by decide)) rfl
      (.skipped (.unselected (by decide) (runOn_toggle false _) (by decide) (by decide)) [0])
  exact ⟨hpart, hdead, run_replaceAt_of_dead toggling hpart hdead (call "toggle" [])⟩

end Expr

end SheetFormula
