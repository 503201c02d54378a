/-
  SheetFormula.Proofs.Engines.Provenance

  Which stage an error of a formula comes from.  Where no body fails with
  anything but errors about functions, the kind of an error tells the stage, an
  unknown name is a name of the formula, and nothing is run for a formula that
  cannot be read (`failures_explained`).  The dependencies of a formula and its
  evaluation agree on what a variable is, since a variable that is looked up is
  a part of the formula (`mem_occurrences_of_subexpr?`).
-/
import SheetFormula.Proofs.Engines.History
import SheetFormula.Proofs.Evaluation.Run
import SheetFormula.Proofs.Parsing.ErrorKinds

namespace SheetFormula

variable {σ : Type}

theorem Scope.get?_eq_none_iff {s : Scope} {name : String} :
    s.get? name = none ↔ s.locals.get? name = none ∧ s.globals.get? name = none := by
  simp [get?]

namespace Expr

/-! ## Names of an expression -/

/-- A fault is about a variable of the expression, about a function that it calls, or about what
    functions do. -/
theorem Fault.elim {env : Environment σ} {e : Expr} {error : Error} (h : Fault env e error)
    (hbodies : env.functions.RaisesOnly fun e => e.kind = .function) :
    (∃ x ∈ e.occurrences, env.scope.get? x = none ∧ error = .variableNotFound x) ∨
      (∃ f, e.Calls f ∧ env.functions.find? f = none ∧ error = .functionNotFound f) ∨
      error.kind = .function := by
  obtain ⟨path, part, hpart, hfault⟩ := h
  cases hfault with
  | unbound hname => exact .inl ⟨_, mem_occurrences_of_subexpr? hpart, hname, rfl⟩
  | unknown hform hfind =>
      exact .inr (.inl ⟨_, .of_subexpr? hpart hform, hfind, rfl⟩)
  | formCount hform hcount =>
      obtain ⟨_, rfl⟩ := SpecialForm.exists_of_checkCount_eq_error hcount
      exact .inr (.inr rfl)
  | count hform hfind hcount =>
      obtain ⟨_, rfl⟩ := SheetFunction.exists_of_checkArity_eq_error hcount
      exact .inr (.inr rfl)
  | body hform hfind hbody => exact .inr (.inr (hbodies _ _ hfind _ _ _ _ hbody))

theorem dependencies_of_parse_ok {formula : String} {e : Expr} (h : parse formula = .ok e) :
    dependencies formula = .ok e.variableNames := by
  rw [dependencies, h]
  rfl

theorem dependencies_of_parse_error {formula : String} {error : Error}
    (h : parse formula = .error error) : dependencies formula = .error error := by
  rw [dependencies, h]
  rfl

end Expr

/-- A refusal is an error about functions. -/
theorem Library.kind_of_isRefusal (e : Error) (h : IsRefusal e) : e.kind = .function := by
  obtain ⟨_, rfl⟩ := h
  rfl

namespace Engine

/-! ## Runs of formulas -/

/-- The engine whose functions keep a journal. -/
def journaled (engine : Engine σ) : Engine (Journaled σ) where
  functions := engine.functions.journaled
  globals := engine.globals
  options := engine.options

/-- The run of a formula from a state of the host. -/
def run (engine : Engine σ) (formula : String) (locals : Bindings) (host : σ) : Run σ :=
  let outcome := (engine.journaled.evaluate formula locals).runOn ⟨host, []⟩
  ⟨outcome.1, outcome.2.calls, outcome.2.host⟩

theorem run_of_parse_ok (engine : Engine σ) {formula : String} {e : Expr}
    (h : Expr.parse formula = .ok e) (locals : Bindings) (host : σ) :
    engine.run formula locals host = e.run (engine.environment locals) host := by
  rw [run, evaluate, h]
  rfl

/-- A formula that cannot be parsed calls nothing and leaves the host as it is. -/
theorem run_of_parse_error (engine : Engine σ) {formula : String} {error : Error}
    (h : Expr.parse formula = .error error) (locals : Bindings) (host : σ) :
    engine.run formula locals host = ⟨.error error, [], host⟩ := by
  rw [run, evaluate, h]
  rfl

/-- A run ends in what the evaluation ends in. -/
theorem run_result (engine : Engine σ) (formula : String) (locals : Bindings) (host : σ) :
    (engine.run formula locals host).result =
      ((engine.evaluate formula locals).runOn host).1 := by
  cases hparse : Expr.parse formula with
  | error e =>
      rw [run_of_parse_error engine hparse, evaluate, hparse]
      rfl
  | ok e =>
      rw [run_of_parse_ok engine hparse, Expr.run_result, evaluate, hparse]
      rfl

/-! ## Why evaluations fail -/

/-- Why the evaluation of a formula fails. -/
inductive Cause (engine : Engine σ) (formula : String) (locals : Bindings) : Error → Prop where
  /-- The formula has no tokens. -/
  | characters {e : Error} (hscan : Token.scan formula = .error e) : Cause engine formula locals e
  /-- The tokens are no expression. -/
  | tokens {ts : List Token} {e : Error} (hscan : Token.scan formula = .ok ts)
      (htokens : Expr.ofTokens ts = .error e) : Cause engine formula locals e
  /-- One of the dependencies has no value. -/
  | unbound {names : List String} {x : String} (hnames : Expr.dependencies formula = .ok names)
      (hx : x ∈ names) (hlocal : locals.get? x = none) (hglobal : engine.globals.get? x = none) :
      Cause engine formula locals (.variableNotFound x)
  /-- The formula calls a function that does not exist. -/
  | unknown {e : Expr} {f : String} (hparse : Expr.parse formula = .ok e) (hcalls : e.Calls f)
      (hunknown : engine.functions.contains f = false) :
      Cause engine formula locals (.functionNotFound f)
  /-- A function fails, or is given a wrong number of arguments. -/
  | body {e : Expr} {error : Error} (hparse : Expr.parse formula = .ok e)
      (hkind : error.kind = .function) : Cause engine formula locals error

/-- What the failures of a formula's evaluation tell. -/
structure Explained (engine : Engine σ) (formula : String) (locals : Bindings) (host : σ) :
    Prop where
  cause : ∀ e, engine.FailsWith formula locals host e → engine.Cause formula locals e
  lexical_iff : (∃ e, engine.FailsWith formula locals host e ∧ e.kind = .lexical) ↔
    ∃ e, Token.scan formula = .error e
  grammar_iff : (∃ e, engine.FailsWith formula locals host e ∧ e.kind = .grammar) ↔
    ∃ ts e, Token.scan formula = .ok ts ∧ Expr.ofTokens ts = .error e
  /-- A formula that cannot be read has no dependencies either, for the same error, and its
      evaluation runs nothing. -/
  unread : ∀ e, engine.FailsWith formula locals host e → e.kind = .lexical ∨ e.kind = .grammar →
    Expr.dependencies formula = .error e ∧ engine.run formula locals host = ⟨.error e, [], host⟩
  not_registration : ∀ e, engine.FailsWith formula locals host e → e.kind ≠ .registration
  /-- Where all dependencies have values and all called functions exist, only functions fail. -/
  resolved : ∀ e names, Expr.parse formula = .ok e → Expr.dependencies formula = .ok names →
    (∀ x ∈ names, locals.contains x = true ∨ engine.globals.contains x = true) →
    (∀ f, e.Calls f → engine.functions.contains f = true) →
    ∀ error, engine.FailsWith formula locals host error → error.kind = .function

variable {engine : Engine σ} {formula : String} {locals : Bindings} {host : σ} {error : Error}

theorem cause_of_fault {e : Expr} (hparse : Expr.parse formula = .ok e)
    (hbodies : engine.functions.RaisesOnly fun e => e.kind = .function)
    (h : e.Fault (engine.environment locals) error) : engine.Cause formula locals error := by
  rcases h.elim hbodies with ⟨x, hx, hunbound, rfl⟩ | ⟨f, hcalls, hfind, rfl⟩ | hkind
  · obtain ⟨hlocal, hglobal⟩ := Scope.get?_eq_none_iff.mp hunbound
    exact .unbound (Expr.dependencies_of_parse_ok hparse) (List.mem_eraseDups.mpr hx)
      hlocal hglobal
  · exact .unknown hparse hcalls (FunctionTable.contains_eq_false_iff.mpr hfind)
  · exact .body hparse hkind

theorem cause_of_failsWith (hbodies : engine.functions.RaisesOnly fun e => e.kind = .function)
    (h : engine.FailsWith formula locals host error) : engine.Cause formula locals error := by
  rcases parse_or_fault_of_failsWith h with hparse | ⟨e, hparse, hfault⟩
  · rcases Expr.parse_eq_error_iff.mp hparse with hscan | ⟨ts, hscan, htokens⟩
    · exact .characters hscan
    · exact .tokens hscan htokens
  · exact cause_of_fault hparse hbodies hfault

/-- An error of reading is one that the formula cannot be parsed for. -/
theorem Cause.parse_eq_error (h : engine.Cause formula locals error)
    (hkind : error.kind = .lexical ∨ error.kind = .grammar) :
    Expr.parse formula = .error error := by
  cases h with
  | characters hscan => exact Expr.parse_eq_error_iff.mpr (.inl hscan)
  | tokens hscan htokens => exact Expr.parse_eq_error_iff.mpr (.inr ⟨_, hscan, htokens⟩)
  | unbound => simp [Error.kind] at hkind
  | unknown => simp [Error.kind] at hkind
  | body _ hfunction => simp [hfunction] at hkind

theorem Cause.kind_ne_registration (h : engine.Cause formula locals error) :
    error.kind ≠ .registration := by
  cases h with
  | characters hscan => simp [Token.kind_of_scanFrom hscan]
  | tokens _ htokens => simp [Expr.kind_of_ofTokens htokens]
  | unbound => simp [Error.kind]
  | unknown => simp [Error.kind]
  | body _ hfunction => simp [hfunction]

theorem lexical_iff_scan (hbodies : engine.functions.RaisesOnly fun e => e.kind = .function) :
    (∃ e, engine.FailsWith formula locals host e ∧ e.kind = .lexical) ↔
      ∃ e, Token.scan formula = .error e := by
  constructor
  · rintro ⟨e, hfails, hkind⟩
    have hparse := (cause_of_failsWith hbodies hfails).parse_eq_error (.inl hkind)
    exact ⟨e, (Expr.kind_of_parse_eq_lexical_iff hparse).mp hkind⟩
  · rintro ⟨e, hscan⟩
    exact ⟨e, failsWith_of_parse (Expr.parse_eq_error_iff.mpr (.inl hscan)),
      Token.kind_of_scanFrom hscan⟩

theorem grammar_iff_ofTokens (hbodies : engine.functions.RaisesOnly fun e => e.kind = .function) :
    (∃ e, engine.FailsWith formula locals host e ∧ e.kind = .grammar) ↔
      ∃ ts e, Token.scan formula = .ok ts ∧ Expr.ofTokens ts = .error e := by
  constructor
  · rintro ⟨e, hfails, hkind⟩
    have hparse := (cause_of_failsWith hbodies hfails).parse_eq_error (.inr hkind)
    obtain ⟨ts, hscan, htokens⟩ := (Expr.kind_of_parse_eq_grammar_iff hparse).mp hkind
    exact ⟨ts, e, hscan, htokens⟩
  · rintro ⟨ts, e, hscan, htokens⟩
    exact ⟨e, failsWith_of_parse (Expr.parse_eq_error_iff.mpr (.inr ⟨ts, hscan, htokens⟩)),
      Expr.kind_of_ofTokens htokens⟩

theorem kind_of_resolved {e : Expr} {names : List String} (hparse : Expr.parse formula = .ok e)
    (hnames : Expr.dependencies formula = .ok names)
    (hbound : ∀ x ∈ names, locals.contains x = true ∨ engine.globals.contains x = true)
    (hcalled : ∀ f, e.Calls f → engine.functions.contains f = true)
    (h : engine.Cause formula locals error) : error.kind = .function := by
  cases h with
  | characters hscan =>
      rw [Expr.parse_eq_error_iff.mpr (.inl hscan)] at hparse
      cases hparse
  | tokens hscan htokens =>
      rw [Expr.parse_eq_error_iff.mpr (.inr ⟨_, hscan, htokens⟩)] at hparse
      cases hparse
  | unbound hnames' hx hlocal hglobal =>
      rw [hnames] at hnames'
      cases hnames'
      rcases hbound _ hx with hcontains | hcontains
      · simp [Bindings.contains_eq_isSome_get?, hlocal] at hcontains
      · simp [Bindings.contains_eq_isSome_get?, hglobal] at hcontains
  | unknown hparse' hcalls hunknown =>
      rw [hparse] at hparse'
      cases hparse'
      rw [hcalled _ hcalls] at hunknown
      cases hunknown
  | body _ hkind => exact hkind

/-- In an engine whose bodies fail with errors about functions only, every failure of a formula is
    explained: by its stage, its names and what its functions do. -/
theorem failures_explained (engine : Engine σ)
    (hbodies : engine.functions.RaisesOnly fun e => e.kind = .function) (formula : String)
    (locals : Bindings) (host : σ) : engine.Explained formula locals host where
  cause _ hfails := cause_of_failsWith hbodies hfails
  lexical_iff := lexical_iff_scan hbodies
  grammar_iff := grammar_iff_ofTokens hbodies
  unread e hfails hkind := by
    have hparse := (cause_of_failsWith hbodies hfails).parse_eq_error hkind
    exact ⟨Expr.dependencies_of_parse_error hparse, run_of_parse_error engine hparse locals host⟩
  not_registration _ hfails := (cause_of_failsWith hbodies hfails).kind_ne_registration
  resolved _ _ hparse hnames hbound hcalled _ hfails :=
    kind_of_resolved hparse hnames hbound hcalled (cause_of_failsWith hbodies hfails)

/-- A function that fails is added. -/
def failureAdded : List (EngineChange Unit) :=
  [.functions (.add { name := "fail", body := fun _ => throw (.custom "failed") })]

theorem failures_explained_failureAdded :
    ((ofOptions ⟨true, true⟩).afterAll failureAdded).functions.RaisesOnly
        (fun e => e.kind = .function) ∧
      ((ofOptions ⟨true, true⟩).afterAll failureAdded).Explained "iferr(fail(x), left(y, -1))"
        (.ofList [("x", .bool true)]) () := by
  have hbodies : ((ofOptions ⟨true, true⟩).afterAll failureAdded).functions.RaisesOnly
      (fun e => e.kind = .function) := by
    refine raisesOnly_afterAll _ Library.kind_of_isRefusal fun c hc => ?_
    simp only [failureAdded, List.mem_singleton, EngineChange.functions.injEq] at hc
    subst hc
    exact fun vs => .throw rfl
  exact ⟨hbodies, failures_explained _ hbodies "iferr(fail(x), left(y, -1))" _ ()⟩

end Engine

end SheetFormula
