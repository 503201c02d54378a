/-
  SheetFormula.Expr.Eval

  The value of an expression.  A call evaluates its arguments from left to
  right, then checks their number, then runs the function; the two special
  forms evaluate only the arguments that they need.
-/
import SheetFormula.Bindings
import SheetFormula.Expr.Basic
import SheetFormula.FunctionTable

namespace SheetFormula

/-- What expressions are evaluated in. -/
structure Environment (σ : Type) where
  scope : Scope
  functions : FunctionTable σ
  /-- Whether calls with undeclared argument counts are errors. -/
  checkArity : Bool := true

/-! ## Special forms -/

/-- The forms that evaluate only some of their arguments. -/
inductive SpecialForm where
  /-- A condition and one branch for each outcome. -/
  | conditional
  /-- A value and what stands in for it if it fails. -/
  | recovery
  deriving DecidableEq, Repr

namespace SpecialForm

/-- The name that calls the form. -/
def name : SpecialForm → String
  | conditional => "if"
  | recovery => "iferr"

/-- The most arguments. -/
def maxArgs : SpecialForm → Nat
  | conditional => 3
  | recovery => 2

/-- The form that a name calls; letter case counts. -/
def ofName? (name : String) : Option SpecialForm :=
  [conditional, recovery].find? (·.name == name)

/-- Whether a number of arguments is right: too many are right where calls are not checked. -/
def checkCount (form : SpecialForm) (checkArity : Bool) (actual : Nat) : Except Error Unit :=
  if actual = 0 ∨ (checkArity ∧ form.maxArgs < actual) then
    .error (.argumentCount form.name (.between 1 form.maxArgs) actual)
  else .ok ()

@[simp] theorem ofName?_name (form : SpecialForm) : ofName? form.name = some form := by
  cases form <;> decide

theorem name_of_ofName? {s : String} {form : SpecialForm} (h : ofName? s = some form) :
    form.name = s := by
  simpa using List.find?_some h

theorem ofName?_eq_none_iff {s : String} : ofName? s = none ↔ s ≠ "if" ∧ s ≠ "iferr" := by
  rw [ofName?, List.find?_eq_none]
  simp [name, eq_comm (b := s)]

end SpecialForm

/-! ## Evaluation -/

namespace Environment

variable {σ : Type}

/-- The value of a variable. -/
def lookup (env : Environment σ) (name : String) : Host σ Value :=
  match env.scope.get? name with
  | some v => pure v
  | none => throw (.variableNotFound name)

/-- The function that a call means. -/
def function (env : Environment σ) (name : String) : Host σ (SheetFunction σ) :=
  match env.functions.find? name with
  | some f => pure f
  | none => throw (.functionNotFound name)

/-- Runs a function, after its argument count has been checked if calls are checked. -/
def invoke (env : Environment σ) (f : SheetFunction σ) (args : List Value) : Host σ Value := do
  if env.checkArity then Host.ofExcept (f.checkArity args.length)
  f.body args

end Environment

namespace Expr

variable {σ : Type}

mutual

/-- The value of an expression. -/
def eval (env : Environment σ) : Expr → Host σ Value
  | number x => pure (.number x)
  | text s => pure (.text s)
  | bool b => pure (.bool b)
  | var name => env.lookup name
  | call f args =>
    match SpecialForm.ofName? f with
    | some .conditional => do
      Host.ofExcept (SpecialForm.conditional.checkCount env.checkArity args.length)
      let condition ← evalAt env args 0
      evalAt env args (if condition.isTruthy then 1 else 2)
    | some .recovery => do
      Host.ofExcept (SpecialForm.recovery.checkCount env.checkArity args.length)
      tryCatch (evalAt env args 0) fun _ => evalAt env args 1
    -- The function is looked up before its arguments run: an unknown one hides their errors.
    | none => do
      let function ← env.function f
      let values ← evalAll env args
      env.invoke function values

/-- The values of all arguments from left to right. -/
def evalAll (env : Environment σ) : List Expr → Host σ (List Value)
  | [] => pure []
  | e :: es => do
    let v ← eval env e
    let vs ← evalAll env es
    pure (v :: vs)

/-- The value of the argument at a position, and null if there is none; no other is evaluated. -/
def evalAt (env : Environment σ) : List Expr → Nat → Host σ Value
  | [], _ => pure .null
  | e :: _, 0 => eval env e
  | _ :: es, position + 1 => evalAt env es position

end

end Expr

end SheetFormula
