/-
  SheetFormula.Proofs.Parsing.Faces

  What is read of tokens.  The face of a token is its kind and its text; where
  the token stands in the formula is not read.  Of the name of a call not even
  the letter case is read.  Main statements: token lists with the same faces
  come to the same expression, or to the same error
  (`ofTokens_eq_of_sameFaces`), and lists that may differ in the names of calls
  as well come to the same expression (`ofTokens_of_readAlike`).

  Both are about relations between token lists that say how these begin, and
  then hold of what follows (`ReadAlike`).  One statement for each reader, each
  proved one unit of budget up from the statements on the readers that it calls
  (`AllAgree`).
-/
import Mathlib.Data.List.Forall2
import SheetFormula.Expr.Budget
import SheetFormula.Proofs.Parsing.Grammar

namespace SheetFormula

namespace Token

/-- What is read of a token; where it stands is not. -/
def face (t : Token) : TokenKind × String := (t.kind, t.text)

/-- The tokens of the two lists have the same faces, one by one. -/
abbrev SameFaces (ts us : List Token) : Prop := List.Forall₂ (fun t u => t.face = u.face) ts us

theorem sameFaces_iff {ts us : List Token} : SameFaces ts us ↔ ts.map face = us.map face := by
  rw [← List.forall₂_eq_eq_eq, List.forall₂_map_left_iff, List.forall₂_map_right_iff]

theorem isDelimiter_of_face {t u : Token} (h : t.face = u.face) (text : String) :
    t.isDelimiter text = u.isDelimiter text := by
  obtain ⟨hkind, htext⟩ := Prod.mk.inj h
  rw [isDelimiter, isDelimiter, hkind, htext]

end Token

open Token

/-! ## Lists that are read alike -/

/-- Two lists begin with tokens that have the same face, or with names that are the same but for
    their letter case and are both called, and the relation holds of what follows. -/
inductive Token.BeginAlike (R : List Token → List Token → Prop) :
    List Token → List Token → Prop
  | nil : BeginAlike R [] []
  | face {t u : Token} {ts us : List Token} :
      t.face = u.face → R ts us → BeginAlike R (t :: ts) (u :: us)
  | name {t u opening : Token} {ts us : List Token} :
      t.IsName → u.IsName → Text.lower t.text = Text.lower u.text → opening.isDelimiter "(" →
      R (opening :: ts) us → BeginAlike R (t :: opening :: ts) (u :: us)

/-- All lists that the relation holds of begin alike. -/
def Token.ReadAlike (R : List Token → List Token → Prop) : Prop :=
  ∀ ⦃ts us⦄, R ts us → BeginAlike R ts us

theorem Token.readAlike_sameFaces : ReadAlike SameFaces := by
  intro ts us h
  cases h with
  | nil => exact .nil
  | cons hface hrest => exact .face hface hrest

section ReadAlike

variable {R : List Token → List Token → Prop}

/-! ## Readings that agree -/

/-- The two readings come to the same, and the relation holds of the tokens that they leave. -/
inductive Reading.Agree (R : List Token → List Token → Prop) {α : Type} :
    Reading α → Reading α → Prop
  | found (value : α) {rest rest' : List Token} : R rest rest' →
      Agree R (.found value rest) (.found value rest')
  | failed (error : Error) {rest rest' : List Token} : R rest rest' →
      Agree R (.failed error rest) (.failed error rest')
  | exhausted : Agree R .exhausted .exhausted

theorem Reading.Agree.andThen {α β : Type} {r r' : Reading α}
    {next next' : α → List Token → Reading β} (h : r.Agree R r')
    (hnext : ∀ a rest rest', R rest rest' → (next a rest).Agree R (next' a rest')) :
    (r.andThen next).Agree R (r'.andThen next') := by
  cases h with
  | found a hrest => exact hnext a _ _ hrest
  | failed e hrest => exact .failed e hrest
  | exhausted => exact .exhausted

/-- What is found behind both is the same. -/
theorem Reading.agree_found {α : Type} (a : α) (rest rest' : List Token) (h : R rest rest') :
    (found a rest).Agree R (found a rest') := .found a h

namespace Expr

/-! ## Single tokens -/

/-- A name is no delimiter. -/
theorem isDelimiter_of_isName {t : Token} (h : t.IsName) (text : String) :
    t.isDelimiter text = false := by
  simp [Token.isDelimiter, h.1]

/-- The same delimiter comes next in both lists, or in none. -/
theorem afterDelimiter?_of_readAlike (hR : ReadAlike R) {ts us : List Token} (h : R ts us)
    (text : String) : Option.Rel R (afterDelimiter? text ts) (afterDelimiter? text us) := by
  cases hR h with
  | nil => exact .none
  | face hface hrest =>
      rw [afterDelimiter?, afterDelimiter?, isDelimiter_of_face hface]
      split
      · exact .some hrest
      · exact .none
  | name ht hu =>
      simp only [afterDelimiter?, isDelimiter_of_isName ht, isDelimiter_of_isName hu]
      exact .none

theorem agree_closed (hR : ReadAlike R) {α : Type} (a : α) (ts us : List Token) (h : R ts us) :
    (closed a ts).Agree R (closed a us) := by
  have hafter := afterDelimiter?_of_readAlike hR h ")"
  rw [closed, closed]
  -- What the two look-ups find is told apart by the relation between them only.
  generalize afterDelimiter? ")" ts = next at hafter ⊢
  generalize afterDelimiter? ")" us = next' at hafter ⊢
  cases hafter with
  | none => exact .failed .missingClosingParen h
  | some hrest => exact .found a hrest

/-- The same operator comes next in both lists, or in none. -/
theorem leadingOp?_of_readAlike (hR : ReadAlike R) {ts us : List Token} (h : R ts us)
    (floor : Nat) :
    Option.Rel (fun p q => p.1 = q.1 ∧ R p.2 q.2) (leadingOp? floor ts) (leadingOp? floor us) := by
  cases hR h with
  | nil => exact .none
  | @face t u ts us hface hrest =>
      obtain ⟨hkind, htext⟩ := Prod.mk.inj hface
      rw [leadingOp?, leadingOp?, hkind, htext]
      split
      · split
        · split
          · exact .some ⟨rfl, hrest⟩
          · exact .none
        · exact .none
      · exact .none
  | name ht hu =>
      simp only [leadingOp?, ht.1, hu.1, reduceCtorEq, if_false]
      exact .none

/-! ## Readers -/

/-- Within the budget no reader tells lists of the relation apart. -/
structure AllAgree (R : List Token → List Token → Prop) (budget : Nat) : Prop where
  expression : ∀ floor ts us, R ts us →
    (expression budget floor ts).Agree R (expression budget floor us)
  operations : ∀ floor left ts us, R ts us →
    (operations budget floor left ts).Agree R (operations budget floor left us)
  operand : ∀ ts us, R ts us → (operand budget ts).Agree R (operand budget us)
  arguments : ∀ ts us, R ts us → (arguments budget ts).Agree R (arguments budget us)
  moreArguments : ∀ ts us, R ts us →
    (moreArguments budget ts).Agree R (moreArguments budget us)

theorem allAgree_zero : AllAgree R 0 where
  expression _ _ _ _ := .exhausted
  operations _ _ _ _ _ := .exhausted
  operand _ _ _ := .exhausted
  arguments _ _ _ := .exhausted
  moreArguments _ _ _ := .exhausted

theorem agree_operand_succ (hR : ReadAlike R) {budget : Nat} (h : AllAgree R budget)
    (ts us : List Token) (halike : R ts us) :
    (operand (budget + 1) ts).Agree R (operand (budget + 1) us) := by
  cases hR halike with
  | nil => exact .failed .unexpectedEnd halike
  | @face t u ts us hface hrest =>
      obtain ⟨hkind, htext⟩ := Prod.mk.inj hface
      rw [operand, operand, hkind, htext]
      cases u.kind with
      | operator =>
          cases UnaryOp.ofSymbol? u.text with
          | none => exact .failed _ hrest
          | some op => exact (h.operand _ _ hrest).andThen fun e => Reading.agree_found _
      | number =>
          cases Numeral.literal? u.text.toList with
          | none => exact .failed _ hrest
          | some x => exact .found _ hrest
      | text => exact .found _ hrest
      | identifier =>
          show Reading.Agree R (if u.text = "true" then _ else _) (if u.text = "true" then _ else _)
          split
          · exact .found _ hrest
          split
          · exact .found _ hrest
          have hopen := afterDelimiter?_of_readAlike hR hrest "("
          generalize afterDelimiter? "(" ts = next at hopen ⊢
          generalize afterDelimiter? "(" us = next' at hopen ⊢
          cases hopen with
          | none => exact .found _ hrest
          | some hbehind =>
              exact (h.arguments _ _ hbehind).andThen fun args => Reading.agree_found _
      | delimiter =>
          show Reading.Agree R (if u.text = "(" then _ else _) (if u.text = "(" then _ else _)
          split
          · exact (h.expression 0 _ _ hrest).andThen (agree_closed hR)
          · exact .failed _ hrest
  | @name t u opening ts us ht hu hlower hopening hrest =>
      have hopen := afterDelimiter?_of_readAlike hR hrest "("
      rw [operand, operand, ht.1, hu.1]
      simp only [ht.2.1, ht.2.2, hu.2.1, hu.2.2, if_false]
      rw [afterDelimiter?, if_pos hopening] at hopen ⊢
      generalize afterDelimiter? "(" us = next at hopen ⊢
      cases hopen with
      | some hbehind =>
          -- The two names are the same in small letters, which is how they are called.
          have hcall : callNamed t.text = callNamed u.text := by
            funext args
            rw [callNamed, callNamed, hlower]
          rw [hcall]
          exact (h.arguments _ _ hbehind).andThen fun args => Reading.agree_found _

theorem allAgree_succ (hR : ReadAlike R) {budget : Nat} (h : AllAgree R budget) :
    AllAgree R (budget + 1) where
  expression := by
    intro floor ts us halike
    rw [Expr.expression, Expr.expression]
    exact (h.operand ts us halike).andThen (h.operations floor)
  operations := by
    intro floor left ts us halike
    rw [Expr.operations, Expr.operations]
    have hop := leadingOp?_of_readAlike hR halike floor
    generalize leadingOp? floor ts = found at hop ⊢
    generalize leadingOp? floor us = found' at hop ⊢
    cases hop with
    | none => exact .found left halike
    | @some p q hpq =>
        obtain ⟨op, rest⟩ := p
        obtain ⟨op', rest'⟩ := q
        obtain ⟨rfl, hrest⟩ := hpq
        exact (h.expression _ _ _ hrest).andThen fun right => h.operations floor _
  operand := agree_operand_succ hR h
  arguments := by
    intro ts us halike
    rw [Expr.arguments, Expr.arguments]
    have hclose := afterDelimiter?_of_readAlike hR halike ")"
    generalize afterDelimiter? ")" ts = next at hclose ⊢
    generalize afterDelimiter? ")" us = next' at hclose ⊢
    cases hclose with
    | none =>
        exact (h.expression 0 _ _ halike).andThen fun e rest rest' hrest =>
          (h.moreArguments _ _ hrest).andThen fun es => Reading.agree_found _
    | some hrest => exact .found [] hrest
  moreArguments := by
    intro ts us halike
    rw [Expr.moreArguments, Expr.moreArguments]
    have hcomma := afterDelimiter?_of_readAlike hR halike ","
    generalize afterDelimiter? "," ts = next at hcomma ⊢
    generalize afterDelimiter? "," us = next' at hcomma ⊢
    cases hcomma with
    | none => exact agree_closed hR [] ts us halike
    | some hrest =>
        exact (h.expression 0 _ _ hrest).andThen fun e rest rest' hbehind =>
          (h.moreArguments _ _ hbehind).andThen fun es => Reading.agree_found _

theorem allAgree (hR : ReadAlike R) (budget : Nat) : AllAgree R budget := by
  induction budget with
  | zero => exact allAgree_zero
  | succ budget ih => exact allAgree_succ hR ih

theorem length_eq_of_readAlike (hR : ReadAlike R) {ts us : List Token} (h : R ts us) :
    ts.length = us.length := by
  induction ts generalizing us with
  | nil =>
      cases hR h with
      | nil => rfl
  | cons t ts ih =>
      cases hR h with
      | face _ hrest => exact congrArg (· + 1) (ih hrest)
      | name _ _ _ _ hrest => exact congrArg (· + 1) (ih hrest)

/-- The readings of whole lists agree; the lists are equally long, so the budget is the same for
    both. -/
theorem agree_whole (hR : ReadAlike R) {ts us : List Token} (h : R ts us) :
    (expression (sufficientBudget ts.length) 0 ts).Agree R
      (expression (sufficientBudget us.length) 0 us) := by
  rw [← length_eq_of_readAlike hR h]
  exact (allAgree hR _).expression 0 ts us h

/-- A list that is read like one that stands for an expression stands for it too. -/
theorem ofTokens_of_readAlike (hR : ReadAlike R) {ts us : List Token} {e : Expr} (h : R ts us)
    (hts : ofTokens ts = .ok e) : ofTokens us = .ok e := by
  have hagree := agree_whole hR h
  rw [ofTokens] at hts ⊢
  generalize expression (sufficientBudget ts.length) 0 ts = reading at hagree hts
  generalize expression (sufficientBudget us.length) 0 us = reading' at hagree ⊢
  cases hagree with
  | found e' hrest =>
      cases hR hrest with
      | nil => exact hts
      | face _ _ => cases hts
      | name _ _ _ _ _ => cases hts
  | failed error _ => cases hts
  | exhausted => cases hts

/-- Tokens with the same faces stand for the same expression, or cannot be read for the same
    reason. -/
theorem ofTokens_eq_of_sameFaces {ts us : List Token} (h : SameFaces ts us) :
    ofTokens ts = ofTokens us := by
  have hagree := agree_whole readAlike_sameFaces h
  rw [ofTokens, ofTokens]
  generalize expression (sufficientBudget ts.length) 0 ts = reading at hagree ⊢
  generalize expression (sufficientBudget us.length) 0 us = reading' at hagree ⊢
  cases hagree with
  | found e hrest =>
      cases hrest with
      | nil => rfl
      | cons hface _ =>
          -- Tokens that are left over are reported by the text of the first one.
          obtain ⟨-, htext⟩ := Prod.mk.inj hface
          exact congrArg (fun text => Except.error (Error.unexpectedToken text)) htext
  | failed error _ => rfl
  | exhausted => rfl

end Expr

end ReadAlike

end SheetFormula
