/-
  SheetFormula.Proofs.Library.Concatenation

  Concatenations beside chains of `+` behind an empty text.  The empty text makes
  every step of the chain a step on texts; without it, or with the operator
  grouped to the right, numbers would be added before a text is met.  Main
  statement: the two give the same text, and its length is the sum of the
  lengths (`concatenations_folded`).
-/
import SheetFormula.Proofs.Library.Sums
import SheetFormula.Proofs.Numbers.Integral

namespace SheetFormula

namespace Binary64

theorem ofNat_add {m n : Nat} (h : m + n ≤ 2 ^ 53) : ofNat m + ofNat n = ofNat (m + n) := by
  have hm : m ≤ 2 ^ 53 := (Nat.le_add_right m n).trans h
  have hn : n ≤ 2 ^ 53 := (Nat.le_add_left n m).trans h
  have hsum := isRounded_add (isFinite_ofNat hm) (isFinite_ofNat hn)
  rw [ratOf_ofNat hm, ratOf_ofNat hn, ← Nat.cast_add] at hsum
  rcases Nat.eq_zero_or_pos (m + n) with hzero | hpos
  · -- Zero is the one number that rounding does not settle: it has two doubles.
    obtain ⟨rfl, rfl⟩ := Nat.add_eq_zero_iff.mp hzero
    decide +kernel
  · exact hsum.unique (isRounded_ofNat (m + n)) (by exact_mod_cast hpos.ne')

end Binary64

namespace Library

open Binary64 Value

/-! ## Texts -/

theorem concat_cons (v : Value) (vs : List Value) :
    concat (v :: vs) = v.display ++ concat vs := by
  simp [concat]

/-- Behind a text, a chain of `+` puts the texts of its operands one after the other. -/
theorem foldl_plus_text (s : String) (vs : List Value) :
    vs.foldl plus (.text s) = .text (s ++ concat vs) := by
  induction vs generalizing s with
  | nil => simp [concat]
  | cons v vs ih =>
      have hstep : plus (.text s) v = .text (s ++ v.display) := by simp [plus, isText]
      rw [List.foldl_cons, hstep, ih, concat_cons, String.append_assoc]

theorem text_concat_eq_foldl (vs : List Value) : .text (concat vs) = vs.foldl plus (.text "") := by
  rw [foldl_plus_text, String.empty_append]

/-- Behind the empty text the numbers are not added. -/
example : [.number (ofNat 1), .number (ofNat 2)].foldl plus (.text "") = .text "12" := by
  decide +kernel

/-! ## Lengths -/

theorem length_concat (vs : List Value) : length (.text (concat vs)) = (vs.map length).sum := by
  induction vs with
  | nil => rfl
  | cons v vs ih =>
      rw [concat_cons, List.map_cons, List.sum_cons, ← ih]
      simp [length]

/-- Below `2 ^ 53` the exact numbers add up exactly. -/
theorem sum_ratOf_ofNat {ns : List Nat} (h : ns.sum < 2 ^ 53) :
    (ns.map fun n => ratOf (ofNat n)).sum = ns.sum := by
  induction ns with
  | nil => simp
  | cons n ns ih =>
      rw [List.sum_cons] at h
      rw [List.map_cons, List.sum_cons, List.sum_cons, ih (by omega), ratOf_ofNat (by omega),
        Nat.cast_add]

theorem foldl_ofNat {ns : List Nat} {n : Nat} (h : n + ns.sum < 2 ^ 53) :
    (ns.map ofNat).foldl (· + ·) (ofNat n) = ofNat (n + ns.sum) := by
  induction ns generalizing n with
  | nil => rfl
  | cons m ns ih =>
      rw [List.sum_cons, ← Nat.add_assoc] at h ⊢
      rw [List.map_cons, List.foldl_cons, ofNat_add (by omega), ih h]

/-- Below `2 ^ 53` nothing is rounded when counts are added up; no counts at all have a negative
    zero for their sum. -/
theorem sum_ofNat {ns : List Nat} (h : ns.sum < 2 ^ 53) :
    (sum (ns.map ofNat) == ofNat ns.sum) = true := by
  cases ns with
  | nil => decide +kernel
  | cons n ns =>
      rw [List.sum_cons] at h ⊢
      have hfinite := isFinite_ofNat h.le
      rw [List.map_cons, sum_cons, foldl_ofNat h]
      exact (beq_iff_ratOf (isNaN_of_isFinite hfinite) (isNaN_of_isFinite hfinite)).mpr rfl

theorem concat_mem_standard {σ : Type} :
    variadic "concat" (fun args => .text (concat args)) ∈
      (standard : List (SheetFunction σ)) := by
  simp [standard, textFunctions]

/-- Formulas that join names have the same value with `+` behind an empty text and as a call. -/
theorem runOn_concat_formulas {σ : Type} {engine : Engine σ} (htable : engine.functions = .standard)
    {locals : Bindings} {names : List String} {vs : List Value}
    (hnames : List.Forall₂ (engine.Names locals) names vs) (host : σ) :
    (engine.evaluate (" + ".intercalate ("\"\"" :: names)) locals).runOn host =
        (.ok (.text (concat vs)), host) ∧
      (engine.evaluate ("concat(" ++ ", ".intercalate names ++ ")") locals).runOn host =
        (.ok (.text (concat vs)), host) := by
  have hempty : Expr.IsOperand "\"\"" (.text "") := Expr.isOperand_text (by decide)
  have hchain := engine.evaluate_chain htable .add hempty (by rw [Expr.eval]) hnames
  have hlisted := engine.evaluate_listed htable (by decide) concat_mem_standard hnames
  rw [text_concat_eq_foldl] at hlisted ⊢
  exact ⟨congrArg (Host.runOn · host) hchain, congrArg (Host.runOn · host) hlisted⟩

/-- A concatenation is what `+` makes of an empty text and the arguments, in every context that
    binds names for them, and its length is the sum of theirs. -/
theorem concatenations_folded :
    Computes "concat" (fun vs => .text (concat vs)) ∧
      Computes "__add" (fun vs => (arg vs 0).plus (arg vs 1)) ∧
      Computes "len" (fun vs => .number (ofNat (length (arg vs 0)))) ∧
      ∀ vs : List Value,
        .text (concat vs) = vs.foldl plus (.text "") ∧
        (∀ (σ : Type) (engine : Engine σ) (locals : Bindings) (names : List String) (host : σ),
          engine.functions = .standard → List.Forall₂ (engine.Names locals) names vs →
            (engine.evaluate (" + ".intercalate ("\"\"" :: names)) locals).runOn host =
              (.ok (.text (concat vs)), host) ∧
            (engine.evaluate ("concat(" ++ ", ".intercalate names ++ ")") locals).runOn host =
              (.ok (.text (concat vs)), host)) ∧
        length (.text (concat vs)) = (vs.map length).sum ∧
        ((vs.map length).sum < 2 ^ 53 →
          ratOf (ofNat (length (.text (concat vs)))) =
              (vs.map fun v => ratOf (ofNat (length v))).sum ∧
            strictEq (.number (sum (vs.map fun v => ofNat (length v))))
              (.number (ofNat (length (.text (concat vs))))) = true) := by
  have hlen : ∀ σ : Type, unary "len" (fun a => .number (ofNat (length a))) ∈
      (standard : List (SheetFunction σ)) := by
    simp [standard, textFunctions]
  refine ⟨computes_of_mem fun _ => concat_mem_standard, computes_operator .add,
    computes_of_mem hlen, fun vs => ⟨text_concat_eq_foldl vs, ?_, length_concat vs, ?_⟩⟩
  · intro σ engine locals names host htable hnames
    exact runOn_concat_formulas htable hnames host
  · intro hbound
    have hratios := sum_ratOf_ofNat hbound
    have hsum := sum_ofNat hbound
    rw [List.map_map] at hratios hsum
    rw [length_concat, ratOf_ofNat hbound.le]
    exact ⟨hratios.symm, hsum⟩

/-- Two digits, which are joined and not added. -/
def digits : List Value := [.number (ofNat 1), .number (ofNat 2)]

/-- Names for them. -/
def digitNames : Bindings := .ofList (["x", "y"].zip digits)

theorem concatenations_folded_digits :
    (Engine.ofOptions {} : Engine Unit).functions = .standard ∧
      List.Forall₂ ((Engine.ofOptions {} : Engine Unit).Names digitNames) ["x", "y"] digits ∧
      ((Engine.ofOptions {} : Engine Unit).evaluate "\"\" + x + y" digitNames).runOn () =
        (.ok (.text (concat digits)), ()) ∧
      ((Engine.ofOptions {} : Engine Unit).evaluate "concat(x, y)" digitNames).runOn () =
        (.ok (.text (concat digits)), ()) ∧
      (digits.map length).sum < 2 ^ 53 ∧
      ratOf (ofNat (length (.text (concat digits)))) =
        (digits.map fun v => ratOf (ofNat (length v))).sum := by
  have hnames : List.Forall₂ ((Engine.ofOptions {} : Engine Unit).Names digitNames) ["x", "y"]
      digits :=
    .cons (Engine.names_ofList _ (by decide) rfl)
      (.cons (Engine.names_ofList _ (by decide) rfl) .nil)
  have hbound : (digits.map length).sum < 2 ^ 53 := by decide +kernel
  obtain ⟨-, hformulas, -, hlengths⟩ := concatenations_folded.2.2.2 digits
  obtain ⟨hchain, hlisted⟩ := hformulas Unit (.ofOptions {}) _ _ () rfl hnames
  exact ⟨rfl, hnames, hchain, hlisted, hbound, (hlengths hbound).1⟩

end Library

end SheetFormula
