/-
  SheetFormula.Proofs.Engines.History

  Histories of an engine: changes of its functions and of its global bindings,
  one after the other, where a change that is refused leaves the engine as it
  was.  Of such a history the function table sees the changes of functions
  (`functions_afterAll`), so what is known of all histories of a table holds of
  engines (`raisesOnly_afterAll`).
-/
import SheetFormula.Engine
import SheetFormula.Proofs.Functions.Origins

namespace SheetFormula

variable {σ : Type}

/-- A change of an engine. -/
inductive EngineChange (σ : Type) where
  | functions (c : Change σ)
  | setGlobal (name : String) (v : Value)

namespace EngineChange

/-- The changed engine, or why the change is refused. -/
def apply (engine : Engine σ) : EngineChange σ → Except Error (Engine σ)
  | functions (.add f) => engine.addFunction f
  | functions (.addAlias name target) => engine.aliasFunction name target
  | functions (.remove name) => (engine.removeFunction name).map Prod.snd
  | setGlobal name v => .ok (engine.setGlobal name v)

/-- The change of functions, if it is one. -/
def ofFunctions? : EngineChange σ → Option (Change σ)
  | functions c => some c
  | setGlobal _ _ => none

theorem apply_functions (engine : Engine σ) (c : Change σ) :
    (functions c).apply engine =
      (c.apply engine.functions).map fun t => { engine with functions := t } := by
  cases c with
  | add f => rfl
  | addAlias name target => rfl
  | remove name =>
      rw [apply, Engine.removeFunction, Change.apply]
      cases engine.functions.remove name <;> rfl

end EngineChange

namespace Engine

/-- The engine after a change was tried. -/
def after (engine : Engine σ) (c : EngineChange σ) : Engine σ :=
  match c.apply engine with
  | .ok engine' => engine'
  | .error _ => engine

/-- The engine after changes were tried one after the other. -/
def afterAll (engine : Engine σ) (cs : List (EngineChange σ)) : Engine σ := cs.foldl after engine

theorem after_functions (engine : Engine σ) (c : Change σ) :
    engine.after (.functions c) = { engine with functions := engine.functions.after c } := by
  rw [after, EngineChange.apply_functions, FunctionTable.after]
  cases c.apply engine.functions <;> rfl

theorem functions_afterAll (engine : Engine σ) (cs : List (EngineChange σ)) :
    (engine.afterAll cs).functions =
      engine.functions.afterAll (cs.filterMap EngineChange.ofFunctions?) := by
  induction cs generalizing engine with
  | nil => rfl
  | cons c cs ih =>
      rw [afterAll, List.foldl_cons]
      refine (ih (engine.after c)).trans ?_
      cases c with
      | functions c => rw [after_functions]; rfl
      | setGlobal name v => rfl

theorem isShipped_ofOptions (options : EngineOptions) :
    (ofOptions options : Engine σ).functions.IsShipped := by
  rw [ofOptions]
  split
  · exact .standard
  · exact .operators

/-- Bodies fail with refusals of arguments and with what the added functions fail with. -/
theorem raisesOnly_afterAll (options : EngineOptions) {p : Error → Prop}
    (hp : ∀ e, Library.IsRefusal e → p e) {cs : List (EngineChange σ)}
    (h : ∀ c, .functions c ∈ cs → c.RaisesOnly p) :
    ((ofOptions options).afterAll cs).functions.RaisesOnly p := by
  rw [functions_afterAll]
  refine ((isShipped_ofOptions options).raisesOnly hp).afterAll fun c hc => ?_
  obtain ⟨d, hd, hdc⟩ := List.mem_filterMap.mp hc
  cases d with
  | functions c' =>
      cases hdc
      exact h c hd
  | setGlobal name v => cases hdc

end Engine

end SheetFormula
