/-
  SheetFormula.Proofs.Engines.UnnamedChanges

  What is done under other names than those that an expression calls does not
  matter to it.  Changes under other names leave its functions as they are, and
  to a parsed expression the names of the special forms are such names in any
  letter case, since its own names are in small letters; and the library beyond
  operators is of no use to an expression that calls operators only.  Main
  statement: in all three cases the runs are the same (`run_eq_of_sameFunctions`).
-/
import SheetFormula.Proofs.Engines.Operators
import SheetFormula.Proofs.Evaluation.NamedFunctions

namespace SheetFormula

variable {σ : Type}

/-! ## Changes under other names -/

namespace Change

/-- The change is about no function that the expression calls. -/
def LeavesAlone (e : Expr) (c : Change σ) : Prop := ∀ f, e.Calls f → ¬ c.IsAbout f

/-- The change is about the name of a special form, in any letter case. -/
def IsAboutForm (c : Change σ) : Prop := ∃ form : SpecialForm, c.IsAbout form.name

end Change

theorem FunctionTable.agreeFor_afterAll (t : FunctionTable σ) {e : Expr} {cs : List (Change σ)}
    (h : ∀ c ∈ cs, c.LeavesAlone e) : (t.afterAll cs).AgreeFor e t := by
  intro f hf
  rw [t.find?_afterAll_of_not_isAbout fun c hc => h c hc f hf]

/-! ## Names of special forms -/

theorem SpecialForm.lower_name (form : SpecialForm) : Text.lower form.name = form.name := by
  cases form <;> decide +kernel

namespace Expr

/-- A parsed expression calls its functions in small letters. -/
theorem Calls.lower_eq {formula : String} {e : Expr} {f : String} (h : e.Calls f)
    (hparse : parse formula = .ok e) : Text.lower f = f := by
  obtain ⟨path, args, hpart, -⟩ := h
  have hspelled : (call f args).Spellable := everyPart_spellable_of_parse hparse path _ hpart
  cases hreserved : isReservedName f with
  | true => exact lower_of_mem_operandCounts (mem_operandCounts_of_spellable hspelled hreserved)
  | false =>
      rw [Spellable, hreserved] at hspelled
      exact lower_of_isCallName hspelled

/-- The expression calls nothing but operators and special forms. -/
def CallsOnlyOperators (e : Expr) : Prop :=
  ∀ f, e.Calls f → ∃ count, (Text.lower f, count) ∈ operandCounts

end Expr

/-- A parsed expression calls no function by the name of a special form. -/
theorem Change.IsAboutForm.leavesAlone {c : Change σ} (h : c.IsAboutForm) {formula : String}
    {e : Expr} (hparse : Expr.parse formula = .ok e) : c.LeavesAlone e := by
  obtain ⟨form, hform⟩ := h
  intro f hf habout
  have hname : f = form.name := by
    calc f = Text.lower f := (hf.lower_eq hparse).symm
      _ = Text.lower c.subject := habout.symm
      _ = Text.lower form.name := hform
      _ = form.name := form.lower_name
  obtain ⟨_, _, _, hif, hiferr⟩ := hf
  cases form with
  | conditional => exact hif hname
  | recovery => exact hiferr hname

/-! ## The library beyond operators -/

/-- No two functions of the library have the same name. -/
theorem Library.eq_of_name_eq {f g : SheetFunction σ} (hf : f ∈ standard) (hg : g ∈ standard)
    (h : f.name = g.name) : f = g := by
  have hnodup : ((standard : List (SheetFunction σ)).map SheetFunction.name).Nodup := by
    show (catalogue.map FunctionInfo.name).Nodup
    decide +kernel
  exact List.inj_on_of_nodup_map hnodup hf hg h

namespace FunctionTable

/-- A name that two shipped tables have is that of the same function. -/
theorem IsShipped.find?_eq {t₁ t₂ : FunctionTable σ} (h₁ : t₁.IsShipped) (h₂ : t₂.IsShipped)
    {name : String} (hname₁ : t₁.contains name = true) (hname₂ : t₂.contains name = true) :
    t₁.find? name = t₂.find? name := by
  obtain ⟨f, hf⟩ := contains_eq_true_iff.mp hname₁
  obtain ⟨g, hg⟩ := contains_eq_true_iff.mp hname₂
  obtain ⟨hfmem, hfname⟩ := h₁.mem_of_find? hf
  obtain ⟨hgmem, hgname⟩ := h₂.mem_of_find? hg
  rw [hf, hg, Library.eq_of_name_eq hfmem hgmem (hfname.trans hgname.symm)]

theorem IsShipped.contains_of_lower_mem {t : FunctionTable σ} (h : t.IsShipped) {name : String}
    {count : Nat} (hname : (Text.lower name, count) ∈ operandCounts) : t.contains name = true := by
  have hlower := h.contains_of_mem_operandCounts hname
  rwa [contains, lower_of_mem_operandCounts hname] at hlower

/-- Operators mean the same whether or not the library is there. -/
theorem IsShipped.find?_operator_eq {t₁ t₂ : FunctionTable σ} (h₁ : t₁.IsShipped)
    (h₂ : t₂.IsShipped) {name : String} {count : Nat}
    (hname : (Text.lower name, count) ∈ operandCounts) : t₁.find? name = t₂.find? name :=
  h₁.find?_eq h₂ (h₁.contains_of_lower_mem hname) (h₂.contains_of_lower_mem hname)

/-- Unless the name of an operator that the expression calls becomes a second name, the same history
    leaves them the same. -/
theorem IsShipped.agreeFor_afterAll {t₁ t₂ : FunctionTable σ} (h₁ : t₁.IsShipped)
    (h₂ : t₂.IsShipped) {e : Expr} (he : e.CallsOnlyOperators) {cs : List (Change σ)}
    (hcs : ∀ c ∈ cs, c.target? = none ∨ c.LeavesAlone e) :
    (t₁.afterAll cs).AgreeFor e (t₂.afterAll cs) := by
  intro f hf
  obtain ⟨count, hcount⟩ := he f hf
  have hfirst : t₁.find? f = t₂.find? f := h₁.find?_operator_eq h₂ hcount
  have hnotarget : ∀ c ∈ cs, c.IsAbout f → c.target? = none :=
    fun c hc habout => (hcs c hc).resolve_right fun hleaves => hleaves f hf habout
  rw [find?_afterAll_congr hnotarget hfirst]

end FunctionTable

/-! ## Runs -/

namespace Expr

/-- The run of an expression from any state of the host, with or without checks, depends on the
    functions that it calls by name and on no others.  So changes under other names do not matter,
    nor, if the expression is parsed, changes under the names of special forms in any letter case.
    And if it calls only operators and special forms, it does not matter whether the library is
    there, whatever is done to the functions afterwards, short of making one of its operators the
    second name of another function. -/
theorem run_eq_of_sameFunctions (e : Expr) (scope : Scope) (checkArity : Bool) (host : σ) :
    (∀ t₁ t₂ : FunctionTable σ, t₁.AgreeFor e t₂ →
        e.run ⟨scope, t₁, checkArity⟩ host = e.run ⟨scope, t₂, checkArity⟩ host) ∧
      (∀ (t : FunctionTable σ) (cs : List (Change σ)),
        (∀ c ∈ cs, c.LeavesAlone e ∨ c.IsAboutForm ∧ ∃ formula, parse formula = .ok e) →
          e.run ⟨scope, t.afterAll cs, checkArity⟩ host = e.run ⟨scope, t, checkArity⟩ host) ∧
      (e.CallsOnlyOperators →
        ∀ cs : List (Change σ), (∀ c ∈ cs, c.target? = none ∨ c.LeavesAlone e) →
          ∀ library library' : Bool,
            e.run ⟨scope, (Engine.ofOptions ⟨library, checkArity⟩).functions.afterAll cs,
                checkArity⟩ host =
              e.run ⟨scope, (Engine.ofOptions ⟨library', checkArity⟩).functions.afterAll cs,
                checkArity⟩ host) := by
  refine ⟨fun t₁ t₂ h => run_eq_of_agreeFor h scope checkArity host, fun t cs h => ?_,
    fun he cs h library library' => ?_⟩
  · have hleaves : ∀ c ∈ cs, c.LeavesAlone e := by
      intro c hc
      rcases h c hc with hleaves | ⟨hform, formula, hparse⟩
      · exact hleaves
      · exact hform.leavesAlone hparse
    exact run_eq_of_agreeFor (t.agreeFor_afterAll hleaves) scope checkArity host
  · have h₁ := Engine.isShipped_ofOptions (σ := σ) ⟨library, checkArity⟩
    have h₂ := Engine.isShipped_ofOptions (σ := σ) ⟨library', checkArity⟩
    exact run_eq_of_agreeFor (h₁.agreeFor_afterAll h₂ he h) scope checkArity host

/-- What `IF(-x, x + y, y)` is parsed to. -/
def choice : Expr := call "if" [call "__neg" [var "x"], call "__add" [var "x", var "y"], var "y"]

/-- A local and a global value. -/
def choiceScope : Scope := ⟨.ofList [("x", .bool true)], .ofList [("y", .text "b")]⟩

/-- Functions come under the names of both forms, and the sum gets a second name. -/
def formsAdded : List (Change Unit) :=
  [.add { name := "If", body := fun _ => pure .null }, .addAlias "IFERR" "__neg",
   .addAlias "total" "sum", .remove "plus"]

/-- The function of the unary minus is replaced. -/
def negationReplaced : List (Change Unit) :=
  [.add { name := "__NEG", body := fun args => pure (args.headD .null) }, .addAlias "total" "sum"]

theorem run_eq_of_sameFunctions_choice :
    (FunctionTable.standard : FunctionTable Unit).AgreeFor choice .operators ∧
      (∀ c ∈ formsAdded,
        c.LeavesAlone choice ∨ c.IsAboutForm ∧ ∃ formula, parse formula = .ok choice) ∧
      choice.CallsOnlyOperators ∧
      (∀ c ∈ negationReplaced, c.target? = none ∨ c.LeavesAlone choice) ∧
      (choice.run ⟨choiceScope, .standard, true⟩ () =
          choice.run ⟨choiceScope, .operators, true⟩ () ∧
        choice.run ⟨choiceScope, FunctionTable.standard.afterAll formsAdded, true⟩ () =
          choice.run ⟨choiceScope, .standard, true⟩ () ∧
        choice.run ⟨choiceScope,
            (Engine.ofOptions ⟨true, true⟩).functions.afterAll negationReplaced, true⟩ () =
          choice.run ⟨choiceScope,
            (Engine.ofOptions ⟨false, true⟩).functions.afterAll negationReplaced, true⟩ ()) := by
  have hvar (x f : String) : ¬ (var x).Calls f := not_calls_of_leaf (by simp) f
  have hcalls : ∀ f, choice.Calls f → f = "__neg" ∨ f = "__add" := by
    simp [choice, calls_call_iff, hvar]
  have hleaves (c : Change Unit) (hneg : ¬ c.IsAbout "__neg") (hadd : ¬ c.IsAbout "__add") :
      c.LeavesAlone choice := by
    intro f hf
    rcases hcalls f hf with rfl | rfl
    · exact hneg
    · exact hadd
  have htotal : (Change.addAlias "total" "sum").LeavesAlone choice :=
    hleaves _ (by decide +kernel) (by decide +kernel)
  have hplus : (Change.remove "plus").LeavesAlone choice :=
    hleaves _ (by decide +kernel) (by decide +kernel)
  have hoperators : choice.CallsOnlyOperators := by
    intro f hf
    rcases hcalls f hf with rfl | rfl
    · exact ⟨1, by decide +kernel⟩
    · exact ⟨2, by decide +kernel⟩
  have hagree : (FunctionTable.standard : FunctionTable Unit).AgreeFor choice .operators := by
    intro f hf
    obtain ⟨count, hcount⟩ := hoperators f hf
    rw [FunctionTable.IsShipped.standard.find?_operator_eq .operators hcount]
  have hforms : ∀ c ∈ formsAdded,
      c.LeavesAlone choice ∨ c.IsAboutForm ∧ ∃ formula, parse formula = .ok choice := by
    have hparse : ∃ formula, parse formula = .ok choice := ⟨"IF(-x, x + y, y)", by cbv⟩
    simp only [formsAdded, List.forall_mem_cons]
    exact ⟨.inr ⟨⟨.conditional, by decide +kernel⟩, hparse⟩,
      .inr ⟨⟨.recovery, by decide +kernel⟩, hparse⟩, .inl htotal, .inl hplus, by simp⟩
  have hnegation : ∀ c ∈ negationReplaced, c.target? = none ∨ c.LeavesAlone choice := by
    simp only [negationReplaced, List.forall_mem_cons]
    exact ⟨.inl rfl, .inr htotal, by simp⟩
  obtain ⟨htables, hchanges, hlibrary⟩ := run_eq_of_sameFunctions choice choiceScope true ()
  exact ⟨hagree, hforms, hoperators, hnegation, htables _ _ hagree, hchanges _ _ hforms,
    hlibrary hoperators _ hnegation true false⟩

end Expr

end SheetFormula
