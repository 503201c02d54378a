/-
  SheetFormula.Proofs.Library.Relations

  The relational operators belong together.  Two texts are ordered by code
  points and all other pairs as numbers, and four operators ask for that order
  in their own ways.  Two values stand to each other in exactly one of four ways,
  which settles what all four operators answer (`Standing`); exchanged operands
  exchange the operators, and strict equality is finer than standing level.
  Chains need one order for all their members (`OrderedAlike`).
-/
import SheetFormula.Library.Operators
import SheetFormula.Proofs.Numbers.Ranks

namespace SheetFormula

namespace Value

open Binary64

/-! ## Comparisons of values -/

theorem compare_of_not_texts {a b : Value} (h : ¬ (a.isText = true ∧ b.isText = true)) :
    compare a b = compareNumbers a.toNumber b.toNumber := by
  cases a with
  | text s =>
      cases b with
      | text t => exact absurd ⟨rfl, rfl⟩ h
      | number y => rfl
      | bool q => rfl
      | null => rfl
  | number x => rfl
  | bool p => rfl
  | null => rfl

theorem exists_of_isText {a : Value} (h : a.isText = true) : ∃ s, a = text s := by
  cases a with
  | text s => exact ⟨s, rfl⟩
  | number x => cases h
  | bool p => cases h
  | null => cases h

/-- Exchanged operands are in the opposite order. -/
theorem compare_swap (a b : Value) : (compare a b).map Ordering.swap = compare b a := by
  by_cases h : a.isText = true ∧ b.isText = true
  · obtain ⟨s, rfl⟩ := exists_of_isText h.1
    obtain ⟨t, rfl⟩ := exists_of_isText h.2
    rw [compare_text, compare_text, Option.map_some, Std.OrientedOrd.eq_swap, Ordering.swap_swap]
  · rw [compare_of_not_texts h, compare_of_not_texts (mt And.symm h), compareNumbers_eq,
      compareNumbers_eq]
    simp only [or_comm (a := b.toNumber.isNaN = true)]
    split
    · rfl
    · rw [Option.map_some, Std.OrientedOrd.eq_swap, Ordering.swap_swap]

/-- Values have no order if they are not both texts and one of them counts for no number. -/
theorem compare_eq_none_iff (a b : Value) :
    compare a b = none ↔ ¬ (a.isText = true ∧ b.isText = true) ∧
      (a.toNumber.isNaN = true ∨ b.toNumber.isNaN = true) := by
  by_cases h : a.isText = true ∧ b.isText = true
  · obtain ⟨s, rfl⟩ := exists_of_isText h.1
    obtain ⟨t, rfl⟩ := exists_of_isText h.2
    rw [compare_text]
    exact ⟨fun hnone => absurd hnone (Option.some_ne_none _), fun hnot => absurd h hnot.1⟩
  · rw [compare_of_not_texts h, compareNumbers_eq, ite_eq_left_iff]
    constructor
    · intro hnone
      refine ⟨h, Classical.byContradiction fun hnumbers => ?_⟩
      exact absurd (hnone hnumbers) (Option.some_ne_none _)
    · intro hnan hnot
      exact absurd hnan.2 hnot

/-! ## Values of one order -/

/-- The values are compared by one rule: all of them are texts, or at most one is. -/
def OrderedAlike (a b c : Value) : Prop :=
  [a, b, c].all isText = true ∨ [a, b, c].countP isText ≤ 1

/-- Of values of which at most one is a text no two are. -/
theorem not_texts_of_countP {a b c : Value} (h : [a, b, c].countP isText ≤ 1) :
    ¬ (a.isText = true ∧ b.isText = true) ∧ ¬ (b.isText = true ∧ c.isText = true) ∧
      ¬ (a.isText = true ∧ c.isText = true) := by
  simp only [List.countP_cons, List.countP_nil] at h
  cases ha : a.isText <;> cases hb : b.isText <;> cases hc : c.isText <;> simp_all

/-- Where an order is transitive a chain of two steps is as strict as its stricter step. -/
theorem compare_eq_then {α : Type} [Ord α] [Std.TransOrd α] {x y z : α}
    (hxy : (Ord.compare x y).isLE = true) (hyz : (Ord.compare y z).isLE = true) :
    Ord.compare x z = (Ord.compare x y).then (Ord.compare y z) := by
  cases h : Ord.compare x y with
  | lt => exact Std.TransCmp.lt_of_lt_of_isLE h hyz
  | eq => exact Std.TransCmp.congr_left h
  | gt =>
      rw [h] at hxy
      cases hxy

/-- What is below or level with what is below or level is so itself, and below if a step was. -/
theorem compare_trans {a b c : Value} {r s : Ordering} (h : OrderedAlike a b c)
    (hab : compare a b = some r) (hbc : compare b c = some s) (hr : r.isLE = true)
    (hs : s.isLE = true) : compare a c = some (r.then s) := by
  rcases h with htexts | hone
  · simp only [List.all_cons, List.all_nil, Bool.and_true, Bool.and_eq_true] at htexts
    obtain ⟨t, rfl⟩ := exists_of_isText htexts.1
    obtain ⟨u, rfl⟩ := exists_of_isText htexts.2.1
    obtain ⟨v, rfl⟩ := exists_of_isText htexts.2.2
    rw [compare_text, Option.some_inj] at hab hbc ⊢
    subst hab hbc
    exact compare_eq_then hr hs
  · obtain ⟨hnab, hnbc, hnac⟩ := not_texts_of_countP hone
    rw [compare_of_not_texts hnab, compareNumbers_eq] at hab
    rw [compare_of_not_texts hnbc, compareNumbers_eq] at hbc
    rw [compare_of_not_texts hnac, compareNumbers_eq]
    obtain ⟨hnumbers, hrank⟩ := Option.ite_none_left_eq_some.mp hab
    obtain ⟨hnumbers', hrank'⟩ := Option.ite_none_left_eq_some.mp hbc
    rw [not_or] at hnumbers hnumbers'
    rw [if_neg (not_or.mpr ⟨hnumbers.1, hnumbers'.2⟩)]
    rw [Option.some_inj] at hrank hrank' ⊢
    subst hrank hrank'
    exact compare_eq_then hr hs

/-! ## Standings -/

/-- How two values stand to each other. -/
inductive Standing where
  | below
  | above
  | level
  /-- No order holds between them. -/
  | apart
  deriving DecidableEq, Repr

/-- The relational operators that hold in a standing. -/
def Standing.relations : Standing → List BinaryOp
  | below => [.less, .lessEqual]
  | above => [.greater, .greaterEqual]
  | level => [.lessEqual, .greaterEqual]
  | apart => []

/-- Of the relational operators those of the standing answer yes and the others no. -/
def Stands (a b : Value) (s : Standing) : Prop :=
  ∀ op ∈ [BinaryOp.less, .lessEqual, .greater, .greaterEqual],
    op.eval a b = bool (s.relations.contains op)

/-- The standing that an order comes to. -/
def standingOf : Option Ordering → Standing
  | some .lt => .below
  | some .gt => .above
  | some .eq => .level
  | none => .apart

theorem standingOf_eq_apart_iff {r : Option Ordering} : .apart = standingOf r ↔ r = none := by
  cases r with
  | none => simp [standingOf]
  | some o => cases o <;> simp [standingOf]

theorem stands_iff (a b : Value) (s : Standing) : Stands a b s ↔ s = standingOf (compare a b) := by
  simp only [Stands, List.forall_mem_cons, BinaryOp.eval, related]
  cases compare a b with
  | none => cases s <;> simp [standingOf, Standing.relations]
  | some o => cases o <;> cases s <;> simp [standingOf, Standing.relations]

/-! ## Answers and orders -/

section Answers

variable {a b : Value}

theorem related_eq_true_iff {test : Ordering → Bool} :
    related test a b = bool true ↔ ∃ r, compare a b = some r ∧ test r = true := by
  rw [related, bool.injEq, Option.any_eq_true]

theorem less_eq_true_iff :
    BinaryOp.less.eval a b = bool true ↔ compare a b = some .lt := by
  rw [BinaryOp.eval, related_eq_true_iff]
  constructor
  · rintro ⟨r, hr, hisLT⟩
    cases r with
    | lt => exact hr
    | eq => cases hisLT
    | gt => cases hisLT
  · intro h
    exact ⟨.lt, h, rfl⟩

/-- Exchanged operands pass the test of the opposite order. -/
theorem related_swap (test : Ordering → Bool) (a b : Value) :
    related test a b = related (fun r => test r.swap) b a := by
  rw [related, related, ← compare_swap b a, Option.any_map]

theorem level_of_lessEqual_greaterEqual (hle : BinaryOp.lessEqual.eval a b = bool true)
    (hge : BinaryOp.greaterEqual.eval a b = bool true) : compare a b = some .eq := by
  obtain ⟨r, hr, hisLE⟩ := related_eq_true_iff.mp hle
  obtain ⟨s, hs, hisGE⟩ := related_eq_true_iff.mp hge
  obtain rfl : r = s := Option.some_inj.mp (hr.symm.trans hs)
  cases r with
  | lt => cases hisGE
  | eq => exact hr
  | gt => cases hisLE

theorem lessEqual_greaterEqual_of_level (h : compare a b = some .eq) :
    BinaryOp.lessEqual.eval a b = bool true ∧ BinaryOp.greaterEqual.eval a b = bool true :=
  ⟨related_eq_true_iff.mpr ⟨.eq, h, rfl⟩, related_eq_true_iff.mpr ⟨.eq, h, rfl⟩⟩

/-! ## Strict equality -/

theorem compareNumbers_eq_level_iff {x y : Float} :
    compareNumbers x y = some .eq ↔ (x == y) = true := by
  rw [compareNumbers_eq, Option.ite_none_left_eq_some, Option.some_inj, compare_eq_iff_eq, beq_iff,
    not_or, Bool.not_eq_true, Bool.not_eq_true, and_assoc]

/-- Values without conversion equal count for equal numbers or are one text. -/
theorem level_of_strictEq (h : strictEq a b = true) : compare a b = some .eq := by
  cases a with
  | number x =>
      cases b with
      | number y => exact compareNumbers_eq_level_iff.mpr h
      | text t => cases h
      | bool q => cases h
      | null => cases h
  | text s =>
      cases b with
      | number y => cases h
      | text t =>
          obtain rfl : s = t := beq_iff_eq.mp h
          rw [compare_text, Std.ReflOrd.compare_self]
      | bool q => cases h
      | null => cases h
  | bool p =>
      cases b with
      | number y => cases h
      | text t => cases h
      | bool q =>
          obtain rfl : p = q := beq_iff_eq.mp h
          cases p <;> decide +kernel
      | null => cases h
  | null =>
      cases b with
      | number y => cases h
      | text t => cases h
      | bool q => cases h
      | null => decide +kernel

end Answers

/-! ## What holds between values -/

/-- Two numbers, or two texts. -/
inductive AreComparable : Value → Value → Prop
  | numbers (x y : Float) : AreComparable (number x) (number y)
  | texts (s t : String) : AreComparable (text s) (text t)

theorem AreComparable.strictEq_of_level {a b : Value} (h : AreComparable a b)
    (hlevel : compare a b = some .eq) : strictEq a b = true := by
  cases h with
  | numbers x y => exact compareNumbers_eq_level_iff.mp hlevel
  | texts s t =>
      rw [compare_text, Option.some_inj, Std.LawfulEqOrd.compare_eq_iff_eq] at hlevel
      exact beq_iff_eq.mpr hlevel

/-- What holds between values under the relational operators and strict equality. -/
structure RelatedCoherently (a b c : Value) : Prop where
  standing : ∃! s, Stands a b s
  apart_iff : Stands a b .apart ↔ ¬ (a.isText = true ∧ b.isText = true) ∧
    (a.toNumber.isNaN = true ∨ b.toNumber.isNaN = true)
  less_eq_greater : BinaryOp.less.eval a b = BinaryOp.greater.eval b a
  lessEqual_eq_greaterEqual : BinaryOp.lessEqual.eval a b = BinaryOp.greaterEqual.eval b a
  level_of_equal : BinaryOp.equal.eval a b = bool true →
    BinaryOp.lessEqual.eval a b = bool true ∧ BinaryOp.greaterEqual.eval a b = bool true
  equal_of_level : AreComparable a b → BinaryOp.lessEqual.eval a b = bool true →
    BinaryOp.greaterEqual.eval a b = bool true → BinaryOp.equal.eval a b = bool true
  less_trans : OrderedAlike a b c → BinaryOp.less.eval a b = bool true →
    BinaryOp.less.eval b c = bool true → BinaryOp.less.eval a c = bool true
  lessEqual_trans : OrderedAlike a b c → BinaryOp.lessEqual.eval a b = bool true →
    BinaryOp.lessEqual.eval b c = bool true → BinaryOp.lessEqual.eval a c = bool true

/-- The relational operators ask for one order, each from its side. -/
theorem relatedCoherently (a b c : Value) : RelatedCoherently a b c where
  standing := ⟨_, (stands_iff a b _).mpr rfl, fun s hs => (stands_iff a b s).mp hs⟩
  apart_iff := by
    rw [stands_iff, ← compare_eq_none_iff]
    exact standingOf_eq_apart_iff
  less_eq_greater := by
    rw [BinaryOp.eval, BinaryOp.eval, related_swap]
    congr 1
    funext r
    cases r <;> rfl
  lessEqual_eq_greaterEqual := by
    rw [BinaryOp.eval, BinaryOp.eval, related_swap]
    congr 1
    funext r
    cases r <;> rfl
  level_of_equal h := lessEqual_greaterEqual_of_level (level_of_strictEq (bool.inj h))
  equal_of_level h hle hge :=
    congrArg bool (h.strictEq_of_level (level_of_lessEqual_greaterEqual hle hge))
  less_trans h hab hbc := by
    rw [less_eq_true_iff] at hab hbc ⊢
    exact compare_trans h hab hbc rfl rfl
  lessEqual_trans h hab hbc := by
    obtain ⟨r, hr, hisLE⟩ := related_eq_true_iff.mp hab
    obtain ⟨s, hs, hisLE'⟩ := related_eq_true_iff.mp hbc
    have hac := compare_trans h hr hs hisLE hisLE'
    refine related_eq_true_iff.mpr ⟨_, hac, ?_⟩
    cases r with
    | lt => rfl
    | eq => exact hisLE'
    | gt => cases hisLE

/-- A chain through two texts and a number is compared by two rules: "10" is before "9" as a text,
    and the number between them in size is above the one and below the other. -/
example : BinaryOp.less.eval (text "10") (text "9") = bool true ∧
    BinaryOp.less.eval (text "9") (number 9.5) = bool true ∧
    BinaryOp.less.eval (text "10") (number 9.5) = bool false := by
  decide +kernel

end Value

end SheetFormula
