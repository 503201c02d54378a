/-
  SheetFormula.Proofs.Evaluation.CallOrder

  The order in which functions run.  Whatever fails, is recovered or is passed
  over, the invocations of a run serve calls of the expression in their order,
  each at most once (`invocations_follow_callSites`).

  Evaluation is put together by sequencing and recovery, and so is what is shown
  of it: `InvokesAmong` bounds the calls that any action can serve, and
  `InvokesInOrder` says, for expressions without special forms, that a failure
  alone can keep calls from being served.
-/
import SheetFormula.Proofs.Evaluation.Trace

namespace SheetFormula

variable {σ : Type}

/-! ## Calls that an action may serve -/

/-- An action serves none but the given calls, in their order and each at most once. -/
def InvokesAmong {α : Type} (sites : List CallSite) (action : Host (Traced σ) α) : Prop :=
  ∀ t, ∃ added, (action.runOn t).2.invocations = t.invocations ++ added ∧
    (added.map Invocation.site).Sublist sites

namespace InvokesAmong

variable {α β : Type} {sites sites' : List CallSite}

theorem mono {action : Host (Traced σ) α} (h : InvokesAmong sites action)
    (hsub : sites.Sublist sites') : InvokesAmong sites' action := by
  intro t
  obtain ⟨added, hadded, hsites⟩ := h t
  exact ⟨added, hadded, hsites.trans hsub⟩

theorem pure (a : α) : InvokesAmong [] (Pure.pure a : Host (Traced σ) α) :=
  fun t => ⟨[], by simp⟩

theorem ofExcept (r : Except Error α) :
    InvokesAmong [] (Host.ofExcept r : Host (Traced σ) α) :=
  fun t => ⟨[], by simp⟩

theorem lift (action : Host σ α) : InvokesAmong [] (Traced.lift action) :=
  fun t => ⟨[], by simp⟩

theorem record (site : CallSite) (body : List Value → Host σ Value) (args : List Value) :
    InvokesAmong [site] (Traced.record site body args) :=
  fun t => ⟨[⟨site, args⟩], by simp [Traced.runOn_record]⟩

theorem bind {action : Host (Traced σ) α} {next : α → Host (Traced σ) β}
    (h : InvokesAmong sites action) (hnext : ∀ a, InvokesAmong sites' (next a)) :
    InvokesAmong (sites ++ sites') (action >>= next) := by
  intro t
  obtain ⟨added, hadded, hsites⟩ := h t
  rw [Host.runOn_bind]
  rcases hrun : action.runOn t with ⟨e | a, t'⟩
  · rw [hrun] at hadded
    exact ⟨added, hadded, hsites.trans (List.sublist_append_left _ _)⟩
  · rw [hrun] at hadded
    obtain ⟨added', hadded', hsites'⟩ := hnext a t'
    refine ⟨added ++ added', ?_, ?_⟩
    · rw [hadded', hadded, List.append_assoc]
    · rw [List.map_append]
      exact hsites.append hsites'

theorem tryCatch {action : Host (Traced σ) α} {recover : Error → Host (Traced σ) α}
    (h : InvokesAmong sites action) (hrecover : ∀ e, InvokesAmong sites' (recover e)) :
    InvokesAmong (sites ++ sites') (MonadExcept.tryCatch action recover) := by
  intro t
  obtain ⟨added, hadded, hsites⟩ := h t
  rw [Host.runOn_tryCatch]
  rcases hrun : action.runOn t with ⟨e | a, t'⟩
  -- What the failed part has served stays served; the recovery goes on behind it.
  · rw [hrun] at hadded
    obtain ⟨added', hadded', hsites'⟩ := hrecover e t'
    refine ⟨added ++ added', ?_, ?_⟩
    · rw [hadded', hadded, List.append_assoc]
    · rw [List.map_append]
      exact hsites.append hsites'
  · rw [hrun] at hadded
    exact ⟨added, hadded, hsites.trans (List.sublist_append_left _ _)⟩

end InvokesAmong

/-! ## Calls that an action serves one after the other -/

/-- An action serves the given calls in their order, all of them if it succeeds. -/
def InvokesInOrder {α : Type} (sites : List CallSite) (action : Host (Traced σ) α) : Prop :=
  ∀ t, ∃ added, (action.runOn t).2.invocations = t.invocations ++ added ∧
    added.map Invocation.site <+: sites ∧
    ∀ a, (action.runOn t).1 = .ok a → added.map Invocation.site = sites

namespace InvokesInOrder

variable {α β : Type} {sites sites' : List CallSite}

theorem pure (a : α) : InvokesInOrder [] (Pure.pure a : Host (Traced σ) α) :=
  fun t => ⟨[], by simp⟩

theorem ofExcept (r : Except Error α) :
    InvokesInOrder [] (Host.ofExcept r : Host (Traced σ) α) :=
  fun t => ⟨[], by simp⟩

theorem lift (action : Host σ α) : InvokesInOrder [] (Traced.lift action) :=
  fun t => ⟨[], by simp⟩

theorem record (site : CallSite) (body : List Value → Host σ Value) (args : List Value) :
    InvokesInOrder [site] (Traced.record site body args) :=
  fun t => ⟨[⟨site, args⟩], by simp [Traced.runOn_record]⟩

theorem bind {action : Host (Traced σ) α} {next : α → Host (Traced σ) β}
    (h : InvokesInOrder sites action) (hnext : ∀ a, InvokesInOrder sites' (next a)) :
    InvokesInOrder (sites ++ sites') (action >>= next) := by
  intro t
  obtain ⟨added, hadded, hfront, hall⟩ := h t
  rw [Host.runOn_bind]
  rcases hrun : action.runOn t with ⟨e | a, t'⟩
  · rw [hrun] at hadded
    exact ⟨added, hadded, hfront.trans (List.prefix_append _ _), fun _ h => by cases h⟩
  · rw [hrun] at hadded hall
    have hsites : added.map Invocation.site = sites := hall a rfl
    obtain ⟨added', hadded', hfront', hall'⟩ := hnext a t'
    refine ⟨added ++ added', ?_, ?_, fun b hb => ?_⟩
    · rw [hadded', hadded, List.append_assoc]
    · rw [List.map_append, hsites]
      exact (List.prefix_append_right_inj sites).mpr hfront'
    · rw [List.map_append, hsites, hall' b hb]

end InvokesInOrder

namespace Expr

/-! ## Any expression -/

/-- The calls in one of the arguments of the call at a path, counted from a position on. -/
def callSitesAt (path : List Nat) (position : Nat) : List Expr → Nat → List CallSite
  | [], _ => []
  | e :: _, 0 => callSites (path ++ [position]) e
  | _ :: es, count + 1 => callSitesAt path (position + 1) es count

theorem callSitesAt_sublist (path : List Nat) (position : Nat) (es : List Expr) (count : Nat) :
    (callSitesAt path position es count).Sublist (callSitesIn path position es) := by
  induction es generalizing position count with
  | nil => simp [callSitesAt]
  | cons e es ih =>
      rw [callSitesIn]
      cases count with
      | zero => exact List.sublist_append_left _ _
      | succ count => exact (ih (position + 1) count).trans (List.sublist_append_right _ _)

/-- The calls in the first argument come before those in the others. -/
theorem callSitesIn_eq_append (path : List Nat) (position : Nat) (es : List Expr) :
    callSitesIn path position es =
      callSitesAt path position es 0 ++ callSitesIn path (position + 1) es.tail := by
  cases es with
  | nil => rfl
  | cons e es => rw [callSitesIn, callSitesAt, List.tail_cons]

theorem callSitesAt_sublist_tail (path : List Nat) (position : Nat) (es : List Expr) {count : Nat}
    (h : 0 < count) :
    (callSitesAt path position es count).Sublist (callSitesIn path (position + 1) es.tail) := by
  obtain ⟨n, rfl⟩ : ∃ n, count = n + 1 := ⟨count - 1, by omega⟩
  cases es with
  | nil => simp [callSitesAt]
  | cons e es => exact callSitesAt_sublist path (position + 1) es n

theorem invokesAmong_invokeFor (env : Environment σ) (site : CallSite) (f : SheetFunction σ)
    (args : List Value) : InvokesAmong [site] (env.invokeFor site f args) := by
  have hrecord := InvokesAmong.record site f.body args
  rw [Environment.invokeFor]
  cases env.checkArity with
  | true => exact (InvokesAmong.ofExcept (f.checkArity args.length)).bind fun _ => hrecord
  | false => exact hrecord

mutual

theorem invokesAmong_evalTraced (env : Environment σ) (path : List Nat) :
    (e : Expr) → InvokesAmong (callSites path e) (e.evalTraced env path)
  | number _ | text _ | bool _ => by
      rw [evalTraced, callSites]
      exact .pure _
  | var name => by
      rw [evalTraced, callSites]
      exact .lift _
  | call f args => by
      rw [evalTraced, callSites]
      cases SpecialForm.ofName? f with
      | some form =>
          rw [List.append_nil, callSitesIn_eq_append]
          have hfirst := invokesAmong_evalTracedAt env path 0 args 0
          have hlater : ∀ count, 0 < count →
              InvokesAmong (callSitesIn path 1 args.tail) (evalTracedAt env path 0 args count) :=
            fun count hcount => (invokesAmong_evalTracedAt env path 0 args count).mono
              (callSitesAt_sublist_tail path 0 args hcount)
          cases form with
          | conditional =>
              refine (InvokesAmong.ofExcept _).bind fun _ => ?_
              exact hfirst.bind fun condition => hlater _ (by split <;> decide)
          | recovery =>
              refine (InvokesAmong.ofExcept _).bind fun _ => ?_
              exact hfirst.tryCatch fun _ => hlater 1 (by decide)
      | none =>
          refine (InvokesAmong.lift _).bind fun function => ?_
          refine (invokesAmong_evalTracedAll env path 0 args).bind fun values => ?_
          exact invokesAmong_invokeFor env _ function values

theorem invokesAmong_evalTracedAll (env : Environment σ) (path : List Nat) (position : Nat) :
    (es : List Expr) →
      InvokesAmong (callSitesIn path position es) (evalTracedAll env path position es)
  | [] => by
      rw [evalTracedAll, callSitesIn]
      exact .pure _
  | e :: es => by
      rw [evalTracedAll, callSitesIn]
      refine (invokesAmong_evalTraced env (path ++ [position]) e).bind fun v => ?_
      have hrest := (invokesAmong_evalTracedAll env path (position + 1) es).bind
        fun vs => InvokesAmong.pure (v :: vs)
      rwa [List.append_nil] at hrest

theorem invokesAmong_evalTracedAt (env : Environment σ) (path : List Nat) (position : Nat) :
    (es : List Expr) → (count : Nat) →
      InvokesAmong (callSitesAt path position es count) (evalTracedAt env path position es count)
  | [], count => by
      rw [evalTracedAt, callSitesAt]
      exact .pure _
  | e :: es, 0 => by
      rw [evalTracedAt, callSitesAt]
      exact invokesAmong_evalTraced env (path ++ [position]) e
  | e :: es, count + 1 => by
      rw [evalTracedAt, callSitesAt]
      exact invokesAmong_evalTracedAt env path (position + 1) es count

end

/-! ## Expressions without special forms -/

mutual

/-- Whether no special form is called in an expression. -/
def isEager : Expr → Bool
  | number _ | text _ | bool _ | var _ => true
  | call f args => (SpecialForm.ofName? f).isNone && areEager args

/-- Whether no special form is called in any of the expressions. -/
def areEager : List Expr → Bool
  | [] => true
  | e :: es => isEager e && areEager es

end

theorem invokesInOrder_invokeFor (env : Environment σ) (site : CallSite) (f : SheetFunction σ)
    (args : List Value) : InvokesInOrder [site] (env.invokeFor site f args) := by
  have hrecord := InvokesInOrder.record site f.body args
  rw [Environment.invokeFor]
  cases env.checkArity with
  | true => exact (InvokesInOrder.ofExcept (f.checkArity args.length)).bind fun _ => hrecord
  | false => exact hrecord

mutual

theorem invokesInOrder_evalTraced (env : Environment σ) (path : List Nat) :
    (e : Expr) → e.isEager = true → InvokesInOrder (callSites path e) (e.evalTraced env path)
  | number _, _ | text _, _ | bool _, _ => by
      rw [evalTraced, callSites]
      exact .pure _
  | var name, _ => by
      rw [evalTraced, callSites]
      exact .lift _
  | call f args, h => by
      rw [isEager, Bool.and_eq_true, Option.isNone_iff_eq_none] at h
      obtain ⟨hform, hargs⟩ := h
      rw [evalTraced, callSites, hform]
      refine (InvokesInOrder.lift _).bind fun function => ?_
      refine (invokesInOrder_evalTracedAll env path 0 args hargs).bind fun values => ?_
      exact invokesInOrder_invokeFor env _ function values

theorem invokesInOrder_evalTracedAll (env : Environment σ) (path : List Nat) (position : Nat) :
    (es : List Expr) → areEager es = true →
      InvokesInOrder (callSitesIn path position es) (evalTracedAll env path position es)
  | [], _ => by
      rw [evalTracedAll, callSitesIn]
      exact .pure _
  | e :: es, h => by
      rw [areEager, Bool.and_eq_true] at h
      obtain ⟨he, hes⟩ := h
      rw [evalTracedAll, callSitesIn]
      refine (invokesInOrder_evalTraced env (path ++ [position]) e he).bind fun v => ?_
      have hrest := (invokesInOrder_evalTracedAll env path (position + 1) es hes).bind
        fun vs => InvokesInOrder.pure (v :: vs)
      rwa [List.append_nil] at hrest

end

/-! ## Runs -/

/-- The calls that the invocations of a run serve, the first one in front. -/
def servedSites (env : Environment σ) (e : Expr) (host : σ) : List CallSite :=
  (e.trace env host).2.invocations.map Invocation.site

theorem servedSites_sublist (env : Environment σ) (e : Expr) (host : σ) :
    (e.servedSites env host).Sublist (e.callSites []) := by
  obtain ⟨added, hadded, hsites⟩ := invokesAmong_evalTraced env [] e ⟨host, []⟩
  rw [List.nil_append] at hadded
  rw [servedSites, trace, hadded]
  exact hsites

theorem servedSites_of_isEager (env : Environment σ) {e : Expr} (h : e.isEager = true) (host : σ) :
    e.servedSites env host <+: e.callSites [] ∧
      ∀ v, (e.trace env host).1 = .ok v → e.servedSites env host = e.callSites [] := by
  obtain ⟨added, hadded, hfront, hall⟩ := invokesInOrder_evalTraced env [] e h ⟨host, []⟩
  rw [List.nil_append] at hadded
  rw [servedSites, trace, hadded]
  exact ⟨hfront, hall⟩

/-- The bodies that a run invokes serve calls of the expression in their order from left to right,
    those in arguments first, and no call twice.  Without special forms, a run that succeeds serves
    all calls, and a run that fails serves those in front. -/
theorem invocations_follow_callSites (env : Environment σ) (e : Expr) (host : σ) :
    e.run env host =
        ⟨(e.trace env host).1, (e.trace env host).2.invocations.map Invocation.call,
          (e.trace env host).2.host⟩ ∧
      (∀ s, s ∈ e.callSites [] ↔ e.CallsAt s.path s.function) ∧
      (e.servedSites env host).Sublist (e.callSites []) ∧
      (e.servedSites env host).Nodup ∧
      (e.isEager = true →
        (∀ v, (e.run env host).result = .ok v → e.servedSites env host = e.callSites []) ∧
        (∀ error, (e.run env host).result = .error error →
          e.servedSites env host <+: e.callSites [])) := by
  have hrun := run_eq_of_trace env e host
  have hmem : ∀ s, s ∈ e.callSites [] ↔ e.CallsAt s.path s.function := by
    intro s
    simp [mem_callSites]
  have hsub := servedSites_sublist env e host
  refine ⟨hrun, hmem, hsub, hsub.nodup (nodup_callSites [] e), fun heager => ?_⟩
  obtain ⟨hfront, hall⟩ := servedSites_of_isEager env heager host
  rw [hrun]
  exact ⟨hall, fun _ _ => hfront⟩

end Expr

end SheetFormula
