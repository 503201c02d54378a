/-
  SheetFormula.Proofs.Library.Sums

  Sums of argument lists beside chains of `+`.  A sum takes every argument as a
  number before it adds, and starts from negative zero; a chain of `+` starts
  from its first operand and takes what it has so far as a number at each step.
  Main statement: without texts the two give the same double, bit for bit with
  one "not a number", and the mean is that double divided by the count
  (`sums_folded`).
-/
import SheetFormula.Proofs.Engines.Listings
import SheetFormula.Proofs.Numbers.Arithmetic

namespace SheetFormula

namespace Binary64

open Float.Model

theorem unpacked_negZero_add (u : UnpackedFloat) :
    UnpackedFloat.add .binary64 (.zero .negative) u = u := by
  cases u with
  | notANumber => rfl
  | infinity s => rfl
  | zero s => cases s <;> rfl
  | finite s m e hm => rfl

/-- Negative zero is neutral, also in front of zeros and of what is no number. -/
theorem negZero_add (x : Float) : negZero + x = x := by
  have hzero : negZero.toModel.unpack = .zero .negative := unpack_ofWord (Nat.zero_le infinityWord)
  show Float.ofModel (pack (.add .binary64 negZero.toModel.unpack x.toModel.unpack)) = x
  rw [hzero, unpacked_negZero_add, pack_unpack_toModel]

end Binary64

namespace Library

open Value

/-! ## Sums -/

theorem sum_cons (x : Float) (xs : List Float) : sum (x :: xs) = xs.foldl (· + ·) x := by
  rw [sum, List.foldl_cons, Binary64.negZero_add]

theorem plus_of_isText_eq_false {v w : Value} (hv : v.isText = false) (hw : w.isText = false) :
    v.plus w = .number (v.toNumber + w.toNumber) := by
  simp [plus, hv, hw]

/-- From a number on, a chain of `+` stays a number. -/
theorem foldl_plus {vs : List Value} (h : ∀ v ∈ vs, v.isText = false) (x : Float) :
    vs.foldl plus (.number x) = .number ((numbers vs).foldl (· + ·) x) := by
  induction vs generalizing x with
  | nil => rfl
  | cons v vs ih =>
      obtain ⟨hv, hvs⟩ := List.forall_mem_cons.mp h
      -- Taking the sum so far as a number again does not change it.
      rw [List.foldl_cons, plus_of_isText_eq_false rfl hv, ih hvs]
      rfl

/-- The first two operands make a number, and the rest is added to it. -/
theorem number_sum_eq_foldl {v w : Value} {vs : List Value}
    (h : ∀ u ∈ v :: w :: vs, u.isText = false) :
    .number (sum (numbers (v :: w :: vs))) = (w :: vs).foldl plus v := by
  obtain ⟨hv, hrest⟩ := List.forall_mem_cons.mp h
  obtain ⟨hw, hvs⟩ := List.forall_mem_cons.mp hrest
  rw [List.foldl_cons, plus_of_isText_eq_false hv hw, foldl_plus hvs, numbers, List.map_cons,
    sum_cons]
  rfl

theorem number_mean_eq_dividedBy (v : Value) (vs : List Value) :
    .number (mean (numbers (v :: vs))) =
      dividedBy (.number (sum (numbers (v :: vs))))
        (.number (Binary64.ofNat (v :: vs).length)) := by
  simp [mean, numbers, dividedBy]

theorem sum_mem_standard {σ : Type} :
    variadic "sum" (fun args => .number (sum (numbers args))) ∈
      (standard : List (SheetFunction σ)) := by
  simp [standard, numberFunctions]

theorem mean_mem_standard {σ : Type} :
    variadic "mean" (fun args => .number (mean (numbers args))) ∈
      (standard : List (SheetFunction σ)) := by
  simp [standard, numberFunctions]

/-- Formulas that add up names have the same value with `+` and as a call. -/
theorem runOn_sum_formulas {σ : Type} {engine : Engine σ} (htable : engine.functions = .standard)
    {locals : Bindings} {names : List String} {v w : Value} {vs : List Value}
    (hnames : List.Forall₂ (engine.Names locals) names (v :: w :: vs))
    (h : ∀ u ∈ v :: w :: vs, u.isText = false) (host : σ) :
    (engine.evaluate (" + ".intercalate names) locals).runOn host =
        (.ok (.number (sum (numbers (v :: w :: vs)))), host) ∧
      (engine.evaluate ("sum(" ++ ", ".intercalate names ++ ")") locals).runOn host =
        (.ok (.number (sum (numbers (v :: w :: vs)))), host) ∧
      (engine.evaluate ("mean(" ++ ", ".intercalate names ++ ")") locals).runOn host =
        (.ok (.number (mean (numbers (v :: w :: vs)))), host) := by
  refine ⟨?_, ?_, ?_⟩
  · cases hnames with
    | cons hfirst hrest =>
        have hchain := engine.evaluate_chain htable .add (Expr.isOperand_var hfirst.isName)
          hfirst.eval hrest
        rw [number_sum_eq_foldl h]
        exact congrArg (Host.runOn · host) hchain
  · have hsum := engine.evaluate_listed htable (by decide) sum_mem_standard hnames
    exact congrArg (Host.runOn · host) hsum
  · have hmean := engine.evaluate_listed htable (by decide) mean_mem_standard hnames
    exact congrArg (Host.runOn · host) hmean

/-- Without texts, sums and means are what `+` and `/` make of the arguments. -/
theorem sums_folded :
    Computes "sum" (fun vs => .number (sum (numbers vs))) ∧
      Computes "mean" (fun vs => .number (mean (numbers vs))) ∧
      Computes "__add" (fun vs => (arg vs 0).plus (arg vs 1)) ∧
      Computes "__div" (fun vs => (arg vs 0).dividedBy (arg vs 1)) ∧
      ∀ (v w : Value) (vs : List Value), (∀ u ∈ v :: w :: vs, u.isText = false) →
        .number (sum (numbers (v :: w :: vs))) = (w :: vs).foldl plus v ∧
        .number (mean (numbers (v :: w :: vs))) =
          dividedBy ((w :: vs).foldl plus v) (.number (Binary64.ofNat (v :: w :: vs).length)) ∧
        ∀ (σ : Type) (engine : Engine σ) (locals : Bindings) (names : List String) (host : σ),
          engine.functions = .standard → List.Forall₂ (engine.Names locals) names (v :: w :: vs) →
            (engine.evaluate (" + ".intercalate names) locals).runOn host =
              (.ok (.number (sum (numbers (v :: w :: vs)))), host) ∧
            (engine.evaluate ("sum(" ++ ", ".intercalate names ++ ")") locals).runOn host =
              (.ok (.number (sum (numbers (v :: w :: vs)))), host) ∧
            (engine.evaluate ("mean(" ++ ", ".intercalate names ++ ")") locals).runOn host =
              (.ok (.number (mean (numbers (v :: w :: vs)))), host) := by
  refine ⟨computes_of_mem fun _ => sum_mem_standard, computes_of_mem fun _ => mean_mem_standard,
    computes_operator .add, computes_operator .divide, fun v w vs h => ?_⟩
  have hsum := number_sum_eq_foldl h
  refine ⟨hsum, hsum ▸ number_mean_eq_dividedBy v (w :: vs), ?_⟩
  intro σ engine locals names host htable hnames
  exact runOn_sum_formulas htable hnames h host

/-- Infinities that cancel each other, with a truth value between them. -/
def cancelling : List Value :=
  [.number (Binary64.infinity false), .bool true, .number (Binary64.infinity true)]

/-- Names for them. -/
def cancellingNames : Bindings := .ofList (["x", "y", "z"].zip cancelling)

theorem sums_folded_cancelling :
    (∀ u ∈ cancelling, u.isText = false) ∧
      (Engine.ofOptions {} : Engine Unit).functions = .standard ∧
      List.Forall₂ ((Engine.ofOptions {} : Engine Unit).Names cancellingNames) ["x", "y", "z"]
        cancelling ∧
      .number (sum (numbers cancelling)) =
        [.bool true, .number (Binary64.infinity true)].foldl plus
          (.number (Binary64.infinity false)) ∧
      ((Engine.ofOptions {} : Engine Unit).evaluate "x + y + z" cancellingNames).runOn () =
        (.ok (.number (sum (numbers cancelling))), ()) ∧
      ((Engine.ofOptions {} : Engine Unit).evaluate "sum(x, y, z)" cancellingNames).runOn () =
        (.ok (.number (sum (numbers cancelling))), ()) := by
  have htexts : ∀ u ∈ cancelling, u.isText = false := by decide +kernel
  have hnames : List.Forall₂ ((Engine.ofOptions {} : Engine Unit).Names cancellingNames)
      ["x", "y", "z"] cancelling :=
    .cons (Engine.names_ofList _ (by decide) rfl) (.cons (Engine.names_ofList _ (by decide) rfl)
      (.cons (Engine.names_ofList _ (by decide) rfl) .nil))
  obtain ⟨hsum, -, hformulas⟩ := sums_folded.2.2.2.2 _ _ _ htexts
  obtain ⟨hchain, hlisted, -⟩ := hformulas Unit (.ofOptions {}) _ _ () rfl hnames
  exact ⟨htexts, rfl, hnames, hsum, hchain, hlisted⟩

end Library

end SheetFormula
