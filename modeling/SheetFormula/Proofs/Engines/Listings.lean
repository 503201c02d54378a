/-
  SheetFormula.Proofs.Engines.Listings

  Values of formulas that list bound names, in an engine whose functions are the
  library's.  An operator between any number of operands folds up their values
  (`evaluate_chain`), and a function of any number of values gets all of them
  (`evaluate_listed`), whatever the options, the other bindings and the host
  are.
-/
import SheetFormula.Proofs.Engines.Layering
import SheetFormula.Proofs.Engines.UnnamedChanges
import SheetFormula.Proofs.Evaluation.Rewriting
import SheetFormula.Proofs.Parsing.Chains

namespace SheetFormula

variable {σ : Type}

/-! ## Finding functions of the library -/

theorem FunctionTable.find?_standard {f : SheetFunction σ} (h : f ∈ Library.standard) :
    standard.find? f.name = some f := by
  have hname : f.name = Text.lower f.name := (Library.lower_name_of_mem h).symm
  have hcontains : standard.contains f.name = true := contains_ofList h hname
  obtain ⟨g, hg⟩ := contains_eq_true_iff.mp hcontains
  obtain ⟨hmem, hgname⟩ := mem_of_find?_ofList hg
  -- What is found under the name is a function of the library with it, and there is only one.
  rw [hg, Library.eq_of_name_eq hmem h (hgname.trans hname.symm)]

/-- No function of the library is named as a special form. -/
theorem Library.ofName?_name {f : SheetFunction σ} (h : f ∈ standard) :
    SpecialForm.ofName? f.name = none := by
  have hall : ∀ i ∈ catalogue, SpecialForm.ofName? i.name = none := by decide +kernel
  exact hall f.info (info_mem_catalogue h)

theorem Library.operator_mem_standard (op : BinaryOp) :
    binary op.function op.eval ∈ (standard : List (SheetFunction σ)) :=
  mem_standard_of_mem_operators (List.mem_append_left _ (List.mem_map_of_mem op.mem_all))

theorem Library.computes_operator (op : BinaryOp) :
    Computes op.function fun vs => op.eval (arg vs 0) (arg vs 1) :=
  computes_of_mem fun _ => operator_mem_standard op

/-! ## Evaluations that only give a value -/

namespace Expr

variable {env : Environment σ}

/-- Whatever the host's state is, the expressions evaluate to the values and leave it as it is. -/
def GiveAll (env : Environment σ) : List Expr → List Value → Prop :=
  List.Forall₂ fun e v => e.eval env = pure v

theorem evalAll_eq_pure {es : List Expr} {vs : List Value} (h : GiveAll env es vs) :
    evalAll env es = pure vs := by
  induction h with
  | nil => rw [evalAll]
  | cons he _ ih => rw [evalAll, he, ih, pure_bind, pure_bind]

/-- A call of a function of the library runs it on the values of the arguments. -/
theorem eval_library (htable : env.functions = .standard) {f : SheetFunction σ}
    (hmem : f ∈ Library.standard) {es : List Expr} {vs : List Value} (h : GiveAll env es vs) :
    (call f.name es).eval env = env.invoke f vs := by
  have hfind : env.functions.find? f.name = some f := by
    rw [htable, FunctionTable.find?_standard hmem]
  rw [eval_function (Library.ofName?_name hmem) hfind, evalAll_eq_pure h, pure_bind]

/-- A function that cannot fail gives its value if the number of arguments is right. -/
theorem invoke_total {name : String} {minArgs : Nat} {maxArgs : Option Nat}
    {f : List Value → Value} {vs : List Value}
    (h : (Library.total name minArgs maxArgs f : SheetFunction σ).checkArity vs.length = .ok ()) :
    env.invoke (Library.total name minArgs maxArgs f) vs = pure (f vs) := by
  rw [Environment.invoke, h]
  cases env.checkArity <;> rfl

theorem eval_apply (htable : env.functions = .standard) (op : BinaryOp) {x y : Expr} {v w : Value}
    (hx : x.eval env = pure v) (hy : y.eval env = pure w) :
    (op.apply x y).eval env = pure (op.eval v w) := by
  have hargs : GiveAll env [x, y] [v, w] := .cons hx (.cons hy .nil)
  exact (eval_library htable (Library.operator_mem_standard op) hargs).trans (invoke_total rfl)

theorem eval_chain (htable : env.functions = .standard) (op : BinaryOp) {es : List Expr}
    {vs : List Value} (h : GiveAll env es vs) {x : Expr} {v : Value} (hx : x.eval env = pure v) :
    (es.foldl op.apply x).eval env = pure (vs.foldl op.eval v) := by
  induction h generalizing x v with
  | nil => exact hx
  | cons he _ ih => exact ih (eval_apply htable op hx he)

theorem eval_variadic (htable : env.functions = .standard) {name : String}
    {f : List Value → Value}
    (hmem : Library.variadic name f ∈ (Library.standard : List (SheetFunction σ)))
    {es : List Expr} {vs : List Value} (h : GiveAll env es vs) :
    (callNamed name es).eval env = pure (f vs) := by
  have hlower : Text.lower name = name := Library.lower_name_of_mem hmem
  rw [callNamed, hlower]
  exact (eval_library htable hmem h).trans (invoke_total rfl)

end Expr

/-! ## Formulas that list names -/

namespace Engine

/-- A formula can name the value. -/
structure Names (engine : Engine σ) (locals : Bindings) (name : String) (v : Value) : Prop where
  isName : Expr.isVariableName name = true
  bound : (engine.environment locals).scope.get? name = some v

/-- Local bindings that are given as a list name the last value of each name. -/
theorem names_ofList (engine : Engine σ) {ps : List (String × Value)} {name : String} {v : Value}
    (hname : Expr.isVariableName name = true) (h : ps.reverse.lookup name = some v) :
    engine.Names (.ofList ps) name v where
  isName := hname
  bound := by
    rw [environment, Scope.get?_ofList, Bindings.get?_extend, h]
    rfl

theorem evaluate_of_parse (engine : Engine σ) {formula : String} {e : Expr}
    (h : Expr.parse formula = .ok e) (locals : Bindings) :
    engine.evaluate formula locals = e.eval (engine.environment locals) := by
  rw [evaluate, h, Host.ofExcept_ok, pure_bind, evaluateExpr]

section Listings

variable {engine : Engine σ} {locals : Bindings} {names : List String} {vs : List Value}

theorem Names.eval {name : String} {v : Value} (h : engine.Names locals name v) :
    (Expr.var name).eval (engine.environment locals) = pure v := by
  rw [Expr.eval, Environment.lookup, h.bound]

theorem isOperand_names (h : List.Forall₂ (engine.Names locals) names vs) :
    List.Forall₂ Expr.IsOperand names (names.map Expr.var) := by
  induction h with
  | nil => exact .nil
  | cons hname _ ih => exact .cons (Expr.isOperand_var hname.isName) ih

theorem giveAll_names (h : List.Forall₂ (engine.Names locals) names vs) :
    Expr.GiveAll (engine.environment locals) (names.map Expr.var) vs :=
  List.forall₂_map_left_iff.mpr (h.imp fun _ _ => Names.eval)

/-- Behind a first operand, the values of the names are taken up by the operator from the left. -/
theorem evaluate_chain (htable : engine.functions = .standard) (op : BinaryOp) {a : String}
    {e : Expr} {v : Value} (ha : Expr.IsOperand a e)
    (hv : e.eval (engine.environment locals) = pure v)
    (h : List.Forall₂ (engine.Names locals) names vs) :
    engine.evaluate (op.spaced.intercalate (a :: names)) locals = pure (vs.foldl op.eval v) := by
  rw [engine.evaluate_of_parse (Expr.parse_chain op ha (isOperand_names h))]
  exact Expr.eval_chain htable op (giveAll_names h) hv

/-- A function of any number of values gets the values of the names. -/
theorem evaluate_listed (htable : engine.functions = .standard) {f : String}
    {g : List Value → Value} (hf : Expr.isVariableName f = true)
    (hmem : Library.variadic f g ∈ (Library.standard : List (SheetFunction σ)))
    (h : List.Forall₂ (engine.Names locals) names vs) :
    engine.evaluate (f ++ "(" ++ ", ".intercalate names ++ ")") locals = pure (g vs) := by
  rw [engine.evaluate_of_parse (Expr.parse_listed hf (isOperand_names h))]
  exact Expr.eval_variadic htable hmem (giveAll_names h)

end Listings

end Engine

end SheetFormula
