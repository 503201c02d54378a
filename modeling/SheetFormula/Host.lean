/-
  SheetFormula.Host

  Functions that formulas call.  A function's body may read and change a state
  of its host and may fail; a change stays when the body fails afterwards.  A
  journal keeps the calls of a function in the order in which they are made.
-/
import SheetFormula.Error
import SheetFormula.Value

namespace SheetFormula

/-- A computation that may change the host's state and may fail. -/
abbrev Host (σ : Type) := ExceptT Error (StateM σ)

namespace Host

variable {σ α : Type}

/-- The result and the state at the end. -/
def runOn (action : Host σ α) (state : σ) : Except Error α × σ := action.run.run state

/-- An outcome that is settled without the host. -/
def ofExcept : Except Error α → Host σ α
  | .ok a => pure a
  | .error e => throw e

@[simp] theorem ofExcept_ok (a : α) : (ofExcept (.ok a) : Host σ α) = pure a := rfl

@[simp] theorem ofExcept_error (e : Error) : (ofExcept (.error e) : Host σ α) = throw e := rfl

@[simp] theorem runOn_pure (a : α) (s : σ) : (pure a : Host σ α).runOn s = (.ok a, s) := rfl

@[simp] theorem runOn_throw (e : Error) (s : σ) : (throw e : Host σ α).runOn s = (.error e, s) := rfl

@[simp] theorem runOn_ofExcept (r : Except Error α) (s : σ) :
    (ofExcept r : Host σ α).runOn s = (r, s) := by
  cases r <;> rfl

/-- What comes after runs on the state that the first action leaves, if that action succeeds. -/
theorem runOn_bind {β : Type} (action : Host σ α) (next : α → Host σ β) (s : σ) :
    (action >>= next).runOn s =
      match action.runOn s with
      | (.ok a, s') => (next a).runOn s'
      | (.error e, s') => (.error e, s') := by
  show (ExceptT.bindCont next (action s).1).run (action s).2 = match action s with
    | (.ok a, s') => (next a).runOn s'
    | (.error e, s') => (.error e, s')
  rcases action s with ⟨_ | _, _⟩ <;> rfl

/-- A recovery runs on the state that the failed action leaves. -/
theorem runOn_tryCatch (action : Host σ α) (recover : Error → Host σ α) (s : σ) :
    (tryCatch action recover).runOn s =
      match action.runOn s with
      | (.ok a, s') => (.ok a, s')
      | (.error e, s') => (recover e).runOn s' := by
  simp only [runOn, tryCatch, tryCatchThe, MonadExceptOf.tryCatch, ExceptT.tryCatch, ExceptT.mk,
    ExceptT.run, StateT.run, bind, StateT.bind]
  rcases action s with ⟨_ | _, _⟩ <;> rfl

end Host

/-! ## Functions -/

/-- A function with the argument counts that it declares; no `maxArgs` is no upper bound. -/
structure SheetFunction (σ : Type) where
  name : String
  minArgs : Nat := 0
  maxArgs : Option Nat := none
  body : List Value → Host σ Value
  /-- Whether the function belongs to the library and cannot be removed. -/
  builtin : Bool := false

namespace SheetFunction

variable {σ : Type}

/-- Whether a number of arguments is one that the function declares. -/
def checkArity (f : SheetFunction σ) (actual : Nat) : Except Error Unit :=
  if actual < f.minArgs then .error (.argumentCount f.name (.atLeast f.minArgs) actual)
  else
    match f.maxArgs with
    | some most =>
      if most < actual then .error (.argumentCount f.name (.atMost most) actual) else .ok ()
    | none => .ok ()

/-- The declared counts are exactly those that pass. -/
theorem checkArity_eq_ok_iff (f : SheetFunction σ) (n : Nat) :
    f.checkArity n = .ok () ↔ f.minArgs ≤ n ∧ ∀ most, f.maxArgs = some most → n ≤ most := by
  unfold checkArity
  split
  · simp; omega
  · cases f.maxArgs with
    | none => simp; omega
    | some most =>
      by_cases h : most < n
      · simp [h]
      · simp [h]
        omega

end SheetFunction

/-! ## Journals -/

/-- A call of a function, under the label that its journal gives it. -/
structure Call where
  label : String
  args : List Value
  deriving DecidableEq, Repr

/-- A host's state with the calls made so far, the latest at the end. -/
structure Journaled (σ : Type) where
  host : σ
  calls : List Call := []

namespace Journaled

variable {σ α : Type}

/-- The host's part of an action; the journal stays as it is. -/
def lift (action : Host σ α) : Host (Journaled σ) α :=
  ExceptT.mk fun state =>
    let (result, host) := action.runOn state.host
    (result, { state with host := host })

/-- A body whose calls are entered before it runs. -/
def record (label : String) (body : List Value → Host σ Value) :
    List Value → Host (Journaled σ) Value := fun args => do
  modify fun state => { state with calls := state.calls ++ [⟨label, args⟩] }
  lift (body args)

@[simp] theorem runOn_lift (action : Host σ α) (state : Journaled σ) :
    (lift action).runOn state
      = ((action.runOn state.host).1, { state with host := (action.runOn state.host).2 }) := rfl

theorem runOn_record (label : String) (body : List Value → Host σ Value) (args : List Value)
    (state : Journaled σ) :
    (record label body args).runOn state
      = (((body args).runOn state.host).1,
          ⟨((body args).runOn state.host).2, state.calls ++ [⟨label, args⟩]⟩) := rfl

end Journaled

end SheetFormula
