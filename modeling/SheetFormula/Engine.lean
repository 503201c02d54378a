/-
  SheetFormula.Engine

  An engine: a function table, global bindings and options.  Local bindings are
  given for each evaluation and hide global ones.
-/
import SheetFormula.Expr.Eval
import SheetFormula.Expr.Variables

namespace SheetFormula

/-- How an engine is set up. -/
structure EngineOptions where
  /-- Whether the library's functions are there; the functions of operators always are. -/
  standardLibrary : Bool := true
  /-- Whether calls with undeclared argument counts are errors. -/
  checkArity : Bool := true
  deriving DecidableEq, Repr

/-- Evaluates formulas. -/
structure Engine (σ : Type) where
  functions : FunctionTable σ
  globals : Bindings
  options : EngineOptions

namespace Engine

variable {σ : Type}

/-- An engine without global bindings. -/
def ofOptions (options : EngineOptions) : Engine σ where
  functions := if options.standardLibrary then .standard else .operators
  globals := .empty
  options := options

/-- The engine with other global bindings. -/
def withGlobals (engine : Engine σ) (globals : Bindings) : Engine σ :=
  { engine with globals := globals }

/-- Gives a global name a value. -/
def setGlobal (engine : Engine σ) (name : String) (v : Value) : Engine σ :=
  engine.withGlobals (engine.globals.insert name v)

/-- What expressions are evaluated in, given local bindings. -/
def environment (engine : Engine σ) (locals : Bindings) : Environment σ where
  scope := ⟨locals, engine.globals⟩
  functions := engine.functions
  checkArity := engine.options.checkArity

/-- The value of an expression. -/
def evaluateExpr (engine : Engine σ) (e : Expr) (locals : Bindings) : Host σ Value :=
  e.eval (engine.environment locals)

/-- The value of a formula. -/
def evaluate (engine : Engine σ) (formula : String) (locals : Bindings) : Host σ Value := do
  let e ← Host.ofExcept (Expr.parse formula)
  engine.evaluateExpr e locals

/-! ## Functions -/

/-- Adds a function to the table. -/
def addFunction (engine : Engine σ) (f : SheetFunction σ) : Except Error (Engine σ) :=
  (engine.functions.add f).map fun t => { engine with functions := t }

/-- Gives a function of the table a second name. -/
def aliasFunction (engine : Engine σ) (name target : String) : Except Error (Engine σ) :=
  (engine.functions.addAlias name target).map fun t => { engine with functions := t }

/-- Removes a function from the table and says whether there was one. -/
def removeFunction (engine : Engine σ) (name : String) : Except Error (Bool × Engine σ) :=
  (engine.functions.remove name).map fun (found, t) => (found, { engine with functions := t })

end Engine

end SheetFormula
