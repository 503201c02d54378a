/-
  SheetFormula.Proofs.Engines.Layering

  Local bindings in front of global ones are one set of bindings.  An engine
  cannot tell whether the pairs of a list are given as local bindings, are put
  into its global bindings beforehand, or come as local bindings together with
  all that is global (`evaluateExpr_layered`).  For each name all three find the
  last value that the list gives it, and the global value if it gives none
  (`Bindings.get?_extend`).
-/
import SheetFormula.Proofs.Engines.Provenance
import SheetFormula.Proofs.Evaluation.Dependencies

namespace SheetFormula

/-! ## Bindings of lists -/

namespace Bindings

/-- The last value of a name in the list counts, whatever value the name has had before. -/
theorem get?_extend (b : Bindings) (ps : List (String × Value)) (name : String) :
    (b.extend ps).get? name = (ps.reverse.lookup name).or (b.get? name) := by
  induction ps generalizing b with
  | nil => rfl
  | cons p ps ih =>
      -- The first pair is the last one of the reversed list, in front of what there was before.
      have hfirst : (b.insert p.1 p.2).get? name = ([p].lookup name).or (b.get? name) := by
        obtain ⟨k, v⟩ := p
        by_cases hk : k = name
        · simp [hk]
        · simp [get?_insert, hk, List.lookup_cons, beq_false_of_ne (Ne.symm hk)]
      rw [extend_cons, ih, hfirst, List.reverse_cons, List.lookup_append, Option.or_assoc]

theorem get?_ofList (ps : List (String × Value)) (name : String) :
    (ofList ps).get? name = ps.reverse.lookup name := by
  rw [ofList, get?_extend, get?_empty, Option.or_none]

end Bindings

/-! ## One layer in place of two -/

namespace Scope

variable (b : Bindings) (name : String)

theorem get?_empty_locals : Scope.get? ⟨.empty, b⟩ name = b.get? name := by simp [get?]

theorem get?_empty_globals : Scope.get? ⟨b, .empty⟩ name = b.get? name := by simp [get?]

/-- Looking through the bindings of a list is looking in the bindings that the list extends. -/
theorem get?_ofList (ps : List (String × Value)) :
    Scope.get? ⟨.ofList ps, b⟩ name = (b.extend ps).get? name := by
  rw [get?, Bindings.get?_extend, Bindings.get?_ofList, Option.orElse_eq_orElse,
    Option.orElse_eq_or]

theorem contains_ofList (ps : List (String × Value)) :
    Scope.contains ⟨.ofList ps, b⟩ name = (b.extend ps).contains name := by
  rw [contains_eq_isSome_get?, get?_ofList, Bindings.contains_eq_isSome_get?]

end Scope

/-! ## Runs of expressions -/

namespace Engine

variable {σ : Type}

/-- The run of an expression from a state of the host. -/
def runExpr (engine : Engine σ) (e : Expr) (locals : Bindings) (host : σ) : Run σ :=
  let outcome := (engine.journaled.evaluateExpr e locals).runOn ⟨host, []⟩
  ⟨outcome.1, outcome.2.calls, outcome.2.host⟩

/-- The expression of a formula runs as the formula does. -/
theorem run_eq_runExpr (engine : Engine σ) {formula : String} {e : Expr}
    (h : Expr.parse formula = .ok e) (locals : Bindings) (host : σ) :
    engine.run formula locals host = engine.runExpr e locals host :=
  engine.run_of_parse_ok h locals host

/-- A journal is kept by functions, and an engine with other functions sees no more of the
    bindings. -/
theorem runExpr_eq_of_agreeOn (engine : Engine σ) (e : Expr)
    {locals₁ locals₂ globals₁ globals₂ : Bindings}
    (h : Scope.AgreeOn e.occurrences ⟨locals₁, globals₁⟩ ⟨locals₂, globals₂⟩) (host : σ) :
    (engine.withGlobals globals₁).runExpr e locals₁ host =
      (engine.withGlobals globals₂).runExpr e locals₂ host := by
  have hjournaled : (engine.withGlobals globals₁).journaled.evaluateExpr e locals₁ =
      (engine.withGlobals globals₂).journaled.evaluateExpr e locals₂ :=
    engine.journaled.evaluateExpr_eq_of_agreeOn e h
  rw [runExpr, runExpr, hjournaled]

/-- Pairs of local bindings in front of global ones come to the same as the merged bindings, be
    these global or local: the same result, the same calls in the same order and the same state of
    the host at the end.  Every name has the value that the merged bindings give it. -/
theorem evaluateExpr_layered (engine : Engine σ) (e : Expr) (globals : Bindings)
    (ps : List (String × Value)) (host : σ) :
    (engine.withGlobals globals).evaluateExpr e (.ofList ps) =
        (engine.withGlobals (globals.extend ps)).evaluateExpr e .empty ∧
      (engine.withGlobals globals).evaluateExpr e (.ofList ps) =
        (engine.withGlobals .empty).evaluateExpr e (globals.extend ps) ∧
      (engine.withGlobals globals).runExpr e (.ofList ps) host =
        (engine.withGlobals (globals.extend ps)).runExpr e .empty host ∧
      (engine.withGlobals globals).runExpr e (.ofList ps) host =
        (engine.withGlobals .empty).runExpr e (globals.extend ps) host ∧
      ∀ name, Scope.get? ⟨.ofList ps, globals⟩ name = (globals.extend ps).get? name ∧
        Scope.contains ⟨.ofList ps, globals⟩ name = (globals.extend ps).contains name := by
  have hglobal : Scope.AgreeOn e.occurrences ⟨.ofList ps, globals⟩ ⟨.empty, globals.extend ps⟩ := by
    intro name _
    rw [Scope.get?_ofList, Scope.get?_empty_locals]
  have hlocal : Scope.AgreeOn e.occurrences ⟨.ofList ps, globals⟩ ⟨globals.extend ps, .empty⟩ := by
    intro name _
    rw [Scope.get?_ofList, Scope.get?_empty_globals]
  refine ⟨?_, ?_, ?_, ?_, fun name => ⟨?_, ?_⟩⟩
  · exact engine.evaluateExpr_eq_of_agreeOn e hglobal
  · exact engine.evaluateExpr_eq_of_agreeOn e hlocal
  · exact engine.runExpr_eq_of_agreeOn e hglobal host
  · exact engine.runExpr_eq_of_agreeOn e hlocal host
  · exact Scope.get?_ofList globals name ps
  · exact Scope.contains_ofList globals name ps

/-- The null of the list hides the global text; of the two values for `y` the later one counts. -/
example : ["x", "y", "z"].map (Scope.get?
    ⟨.ofList [("y", .null), ("x", .null), ("y", .bool true)], .ofList [("x", .text "global")]⟩) =
      [some .null, some (.bool true), none] := by
  simp only [List.map, Scope.get?_ofList, Bindings.get?_extend, Bindings.get?_ofList]
  decide

end Engine

end SheetFormula
