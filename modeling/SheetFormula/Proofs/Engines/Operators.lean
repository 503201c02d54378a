/-
  SheetFormula.Proofs.Engines.Operators

  Operators always mean something.  The names of their functions begin with two
  underscores, which no word of a formula does, so a formula calls them by
  symbols only and with the right number of operands; and no history of an
  engine takes their functions away.  Main statement: whatever has been done to
  an engine, no operator of a formula is unknown, and none has a wrong number of
  operands unless its function has been redefined (`operators_resolve`).
-/
import SheetFormula.Proofs.Engines.History
import SheetFormula.Proofs.Functions.LastChange
import SheetFormula.Proofs.Functions.Origins
import SheetFormula.Proofs.Functions.Permanence
import SheetFormula.Proofs.Parsing.ErrorKinds
import SheetFormula.Proofs.Parsing.Vocabulary

namespace SheetFormula

variable {σ : Type}

/-! ## The functions of operators -/

namespace Library

/-- The library's functions of operators take as many arguments as the operators have operands. -/
theorem counts_of_mem_operandCounts :
    ∀ q ∈ operandCounts, ∀ i ∈ catalogue, i.name = q.1 →
      i.minArgs = q.2 ∧ i.maxArgs = some q.2 := by
  decide +kernel

theorem exists_mem_operators {name : String} {count : Nat} (h : (name, count) ∈ operandCounts) :
    ∃ f ∈ (operators : List (SheetFunction σ)), f.name = name := by
  rcases List.mem_append.mp h with h | h
  · obtain ⟨op, hop, heq⟩ := List.mem_map.mp h
    cases heq
    exact ⟨_, List.mem_append_left _ (List.mem_map_of_mem hop), rfl⟩
  · obtain ⟨op, hop, heq⟩ := List.mem_map.mp h
    cases heq
    exact ⟨_, List.mem_append_right _ (List.mem_map_of_mem hop), rfl⟩

end Library

theorem lower_of_mem_operandCounts {name : String} {count : Nat}
    (h : (name, count) ∈ operandCounts) : Text.lower name = name := by
  obtain ⟨f, hf, rfl⟩ := Library.exists_mem_operators (σ := Unit) h
  exact Library.lower_name_of_mem (Library.mem_standard_of_mem_operators hf)

namespace FunctionTable

theorem IsShipped.contains_of_mem_operandCounts {t : FunctionTable σ} (h : t.IsShipped)
    {name : String} {count : Nat} (hname : (name, count) ∈ operandCounts) :
    t.contains name = true := by
  obtain ⟨f, hf, hfname⟩ := Library.exists_mem_operators (σ := σ) hname
  have hkey : f.name = Text.lower name := hfname.trans (lower_of_mem_operandCounts hname).symm
  cases h with
  | operators => exact contains_ofList hf hkey
  | standard => exact contains_ofList (Library.mem_standard_of_mem_operators hf) hkey

/-- Before any change the functions of operators take the operands. -/
theorem IsShipped.checkArity_operator {t : FunctionTable σ} (h : t.IsShipped) {name : String}
    {count : Nat} (hname : (name, count) ∈ operandCounts) {f : SheetFunction σ}
    (hf : t.find? name = some f) : f.checkArity count = .ok () := by
  obtain ⟨hmem, hkey⟩ := h.mem_of_find? hf
  rw [lower_of_mem_operandCounts hname] at hkey
  obtain ⟨hmin, hmax⟩ :=
    Library.counts_of_mem_operandCounts _ hname f.info (Library.info_mem_catalogue hmem) hkey
  have hmin' : f.minArgs = count := hmin
  have hmax' : f.maxArgs = some count := hmax
  rw [SheetFunction.checkArity_eq_ok_iff, hmin', hmax']
  refine ⟨Nat.le_refl count, fun most hmost => ?_⟩
  cases hmost
  exact Nat.le_refl count

/-- No change of a history that is not refused adds or names again an operator's function. -/
def KeepsOperators (t : FunctionTable σ) (cs : List (Change σ)) : Prop :=
  ∀ before c, (before, c) ∈ t.effective cs → ∀ q ∈ operandCounts, c.IsAbout q.1 →
    ∃ name, c = .remove name

theorem KeepsOperators.of_error {t : FunctionTable σ} {c : Change σ} {cs : List (Change σ)}
    {e : Error} (h : t.KeepsOperators (c :: cs)) (happly : c.apply t = .error e) :
    t.KeepsOperators cs := by
  rw [KeepsOperators, effective, happly] at h
  exact h

theorem KeepsOperators.of_ok {t t' : FunctionTable σ} {c : Change σ} {cs : List (Change σ)}
    (h : t.KeepsOperators (c :: cs)) (happly : c.apply t = .ok t') :
    (∀ q ∈ operandCounts, c.IsAbout q.1 → ∃ name, c = .remove name) ∧ t'.KeepsOperators cs := by
  rw [KeepsOperators, effective, happly] at h
  exact ⟨h t c List.mem_cons_self, fun before d hd => h before d (List.mem_cons_of_mem _ hd)⟩

/-- A change that is not refused does not remove a marked function. -/
theorem not_isAbout_of_remove {t t' : FunctionTable σ} {name removed : String}
    {f : SheetFunction σ} (hf : t.find? name = some f) (hmark : f.builtin = true)
    (happly : (Change.remove removed).apply t = .ok t') :
    ¬ (Change.remove removed : Change σ).IsAbout name := by
  intro habout
  have hremoved : t.find? removed = some f := (habout.find?_subject t).trans hf
  rw [Change.apply_eq_error_iff.mpr (.builtin hremoved hmark)] at happly
  cases happly

/-- Without a redefinition the functions of operators stay the first ones. -/
theorem find?_operator_afterAll {first t : FunctionTable σ} (hfirst : first.IsShipped)
    (hmarked : first.MarkedThroughout t) {cs : List (Change σ)} (h : t.KeepsOperators cs)
    {name : String} {count : Nat} (hname : (name, count) ∈ operandCounts) :
    (t.afterAll cs).find? name = t.find? name := by
  induction cs generalizing t with
  | nil => rfl
  | cons c cs ih =>
      rw [afterAll_cons]
      cases happly : c.apply t with
      | error e =>
          rw [after_of_error happly]
          exact ih hmarked (h.of_error happly)
      | ok t' =>
          obtain ⟨hhead, hrest⟩ := h.of_ok happly
          -- A change about the name would be a removal, and the mark keeps it from being one.
          have hnot : ¬ c.IsAbout name := by
            intro habout
            obtain ⟨removed, rfl⟩ := hhead _ hname habout
            obtain ⟨f, hf, hmark⟩ :=
              hmarked name (hfirst.contains_of_mem_operandCounts hname)
            exact not_isAbout_of_remove hf hmark happly habout
          rw [after_of_ok happly, ih (hmarked.apply happly) hrest, Change.find?_of_apply happly,
            if_neg hnot]

end FunctionTable

/-! ## Errors of formulas about operators -/

/-- A body refuses an argument or fails in its own words. -/
def Error.IsOwn : Error → Prop
  | invalidArgument _ | custom _ => True
  | _ => False

theorem Library.isOwn_of_isRefusal (e : Error) (h : IsRefusal e) : e.IsOwn := by
  obtain ⟨_, rfl⟩ := h
  trivial

namespace Expr

variable {env : Environment σ} {e : Expr}

/-- A called function with a reserved name is an operator's, with as many operands. -/
theorem mem_operandCounts_of_spellable {f : String} {args : List Expr}
    (h : (call f args).Spellable) (hreserved : isReservedName f = true) :
    (f, args.length) ∈ operandCounts := by
  rwa [Spellable, if_pos hreserved] at h

theorem isReservedName_eq_false_of_functionNotFound {name : String} (hspell : e.EveryPart Spellable)
    (hbodies : env.functions.RaisesOnly Error.IsOwn)
    (hoperators : ∀ q ∈ operandCounts, ∃ f, env.functions.find? q.1 = some f)
    (h : Fault env e (.functionNotFound name)) : isReservedName name = false := by
  obtain ⟨path, part, hpart, hfault⟩ := h
  cases hfault with
  | unknown hform hfind =>
      rw [← Bool.not_eq_true]
      intro hreserved
      obtain ⟨f, hf⟩ :=
        hoperators _ (mem_operandCounts_of_spellable (hspell path _ hpart) hreserved)
      rw [hfind] at hf
      cases hf
  | formCount hform hcount =>
      obtain ⟨_, he⟩ := SpecialForm.exists_of_checkCount_eq_error hcount
      cases he
  | count hform hfind hcount =>
      obtain ⟨_, he⟩ := SheetFunction.exists_of_checkArity_eq_error hcount
      cases he
  | body hform hfind hbody => exact (hbodies _ _ hfind _ _ _ _ hbody).elim

theorem isReservedName_eq_false_of_argumentCount {name : String} {expected : ExpectedCount}
    {actual : Nat} (hspell : e.EveryPart Spellable)
    (hbodies : env.functions.RaisesOnly Error.IsOwn) (hnamed : env.functions.NamedByKeys)
    (hoperators : ∀ q ∈ operandCounts, ∀ f, env.functions.find? q.1 = some f →
      f.checkArity q.2 = .ok ())
    (h : Fault env e (.argumentCount name expected actual)) : isReservedName name = false := by
  obtain ⟨path, part, hpart, hfault⟩ := h
  cases hfault with
  | @formCount _ form _ _ hform hcount =>
      obtain ⟨_, he⟩ := SpecialForm.exists_of_checkCount_eq_error hcount
      cases he
      cases form <;> decide
  | @count f args g _ hform hfind hcount =>
      have hspelled := hspell path _ hpart
      obtain ⟨_, he⟩ := SheetFunction.exists_of_checkArity_eq_error hcount
      cases hreserved : isReservedName f with
      | true =>
          have hok := hoperators _ (mem_operandCounts_of_spellable hspelled hreserved) g hfind
          rw [hok] at hcount
          cases hcount
      | false =>
          -- The function has the name in the formula, which is in small letters.
          have hcall : isCallName f = true := by rwa [Spellable, hreserved] at hspelled
          have hname : g.name = f := (hnamed f g hfind).trans (lower_of_isCallName hcall)
          cases he
          rw [hname, hreserved]
  | body hform hfind hbody => exact (hbodies _ _ hfind _ _ _ _ hbody).elim

end Expr

/-! ## Engines -/

namespace Engine

/-- What is no failure of parsing is a fault of the parsed formula. -/
theorem exists_fault_of_failsWith {engine : Engine σ} {formula : String} {locals : Bindings}
    {host : σ} {error : Error} (h : engine.FailsWith formula locals host error)
    (hlexical : error.kind ≠ .lexical) (hgrammar : error.kind ≠ .grammar) :
    ∃ e, Expr.parse formula = .ok e ∧ e.Fault (engine.environment locals) error := by
  rcases parse_or_fault_of_failsWith h with hparse | hfault
  · rcases Expr.kind_of_parse hparse with hkind | hkind
    · exact absurd hkind hlexical
    · exact absurd hkind hgrammar
  · exact hfault

/-- In every formula the names with two underscores in front are those of operators' functions with
    as many arguments as the operators have operands, and the other names and the numbers are what
    can be spelled.  So, whatever has been done to the functions and the bindings of an engine, and
    as long as bodies fail with errors of their own, no evaluation misses the function of an
    operator, and none gives it a wrong number of arguments unless one has been redefined. -/
theorem operators_resolve (options : EngineOptions) {cs : List (EngineChange σ)}
    (hbodies : ((ofOptions options).afterAll cs).functions.RaisesOnly Error.IsOwn)
    (formula : String) (locals : Bindings) (host : σ) :
    (∀ e, Expr.parse formula = .ok e → e.EveryPart Expr.Spellable) ∧
      (∀ name, ((ofOptions options).afterAll cs).FailsWith formula locals host
          (.functionNotFound name) → isReservedName name = false) ∧
      ((ofOptions options : Engine σ).functions.KeepsOperators
          (cs.filterMap EngineChange.ofFunctions?) →
        ∀ name expected actual, ((ofOptions options).afterAll cs).FailsWith formula locals host
          (.argumentCount name expected actual) → isReservedName name = false) := by
  have hfirst : (ofOptions options : Engine σ).functions.IsShipped := isShipped_ofOptions options
  have htable := functions_afterAll (ofOptions options) cs
  refine ⟨fun e => Expr.everyPart_spellable_of_parse, fun name hfails => ?_,
    fun hkeeps name expected actual hfails => ?_⟩
  · obtain ⟨e, hparse, hfault⟩ := exists_fault_of_failsWith hfails
      (by simp [Error.kind]) (by simp [Error.kind])
    refine Expr.isReservedName_eq_false_of_functionNotFound
      (Expr.everyPart_spellable_of_parse hparse) hbodies (fun q hq => ?_) hfault
    have hmarked := hfirst.markedThroughout.afterAll (cs.filterMap EngineChange.ofFunctions?)
    rw [← htable] at hmarked
    obtain ⟨f, hf, -⟩ := hmarked q.1 (hfirst.contains_of_mem_operandCounts hq)
    exact ⟨f, hf⟩
  · obtain ⟨e, hparse, hfault⟩ := exists_fault_of_failsWith hfails
      (by simp [Error.kind]) (by simp [Error.kind])
    have hnamed : ((ofOptions options).afterAll cs).functions.NamedByKeys := by
      rw [htable]
      exact hfirst.namedByKeys.afterAll _
    refine Expr.isReservedName_eq_false_of_argumentCount (Expr.everyPart_spellable_of_parse hparse)
      hbodies hnamed (fun q hq f hf => ?_) hfault
    have hsame := FunctionTable.find?_operator_afterAll hfirst hfirst.markedThroughout hkeeps hq
    rw [← htable] at hsame
    exact hfirst.checkArity_operator hq (hsame.symm.trans hf)

end Engine

/-! ## Histories that leave operators alone -/

namespace FunctionTable

theorem mem_of_mem_effective {t before : FunctionTable σ} {c : Change σ} {cs : List (Change σ)}
    (h : (before, c) ∈ t.effective cs) : c ∈ cs := by
  induction cs generalizing t with
  | nil => cases h
  | cons d cs ih =>
      rw [effective] at h
      cases hd : d.apply t with
      | error e =>
          rw [hd] at h
          exact List.mem_cons_of_mem d (ih h)
      | ok t' =>
          rw [hd] at h
          rcases List.mem_cons.mp h with heq | h
          · cases heq
            exact List.mem_cons_self
          · exact List.mem_cons_of_mem d (ih h)

/-- Changes under other names leave the operators alone, and so do removals. -/
theorem keepsOperators_of_forall (t : FunctionTable σ) {cs : List (Change σ)}
    (h : ∀ c ∈ cs, isReservedName (Text.lower c.subject) = false ∨ ∃ name, c = .remove name) :
    t.KeepsOperators cs := by
  intro before c hc q hq habout
  rcases h c (mem_of_mem_effective hc) with hother | hremove
  · rw [show Text.lower c.subject = Text.lower q.1 from habout, lower_of_mem_operandCounts hq,
      isReservedName_of_mem_operandCounts q hq] at hother
    cases hother
  · exact hremove

end FunctionTable

namespace Engine

/-- Addition gets a second name and is to be removed, and a function that fails is added. -/
def additionNamed : List (EngineChange Unit) :=
  [.functions (.addAlias "plus" "__add"), .functions (.remove "__ADD"), .setGlobal "x" (.bool true),
   .functions (.add { name := "fail", body := fun _ => throw (.custom "failed") })]

theorem operators_resolve_additionNamed :
    ((ofOptions ⟨false, true⟩).afterAll additionNamed).functions.RaisesOnly Error.IsOwn ∧
      (ofOptions ⟨false, true⟩ : Engine Unit).functions.KeepsOperators
        (additionNamed.filterMap EngineChange.ofFunctions?) ∧
      ((∀ e, Expr.parse "-x + fail(1)" = .ok e → e.EveryPart Expr.Spellable) ∧
        (∀ name, ((ofOptions ⟨false, true⟩).afterAll additionNamed).FailsWith "-x + fail(1)" .empty
          () (.functionNotFound name) → isReservedName name = false) ∧
        (∀ name expected actual, ((ofOptions ⟨false, true⟩).afterAll additionNamed).FailsWith
          "-x + fail(1)" .empty () (.argumentCount name expected actual) →
            isReservedName name = false)) := by
  have hbodies : ((ofOptions ⟨false, true⟩).afterAll additionNamed).functions.RaisesOnly
      Error.IsOwn := by
    refine raisesOnly_afterAll _ Library.isOwn_of_isRefusal fun c hc => ?_
    simp only [additionNamed, List.mem_cons, List.not_mem_nil, or_false, reduceCtorEq, false_or,
      EngineChange.functions.injEq] at hc
    rcases hc with rfl | rfl | rfl
    · trivial
    · trivial
    · exact fun vs => .throw trivial
  have hkeeps : (ofOptions ⟨false, true⟩ : Engine Unit).functions.KeepsOperators
      (additionNamed.filterMap EngineChange.ofFunctions?) := by
    refine FunctionTable.keepsOperators_of_forall _ fun c hc => ?_
    simp only [additionNamed, List.filterMap_cons, EngineChange.ofFunctions?, List.filterMap_nil,
      List.mem_cons, List.not_mem_nil, or_false] at hc
    rcases hc with rfl | rfl | rfl
    · exact .inl (by decide +kernel)
    · exact .inr ⟨_, rfl⟩
    · exact .inl (by decide +kernel)
  obtain ⟨hspell, hfound, hcounts⟩ :=
    operators_resolve ⟨false, true⟩ hbodies "-x + fail(1)" .empty ()
  exact ⟨hbodies, hkeeps, hspell, hfound, hcounts hkeeps⟩

end Engine

end SheetFormula
