/-
  SheetFormula.Proofs.Parsing.Derivation

  The reader and the grammar agree.  Completeness follows the derivation: on
  the tokens of a level-`k` expression a reader with a floor up to `k` comes to
  the point where this expression is its left operand
  (`Derives.readExpression_append`).  Soundness follows the budget: the left
  operand stands on a level no weaker than any operator that can still follow
  (`OperationsSound`).
-/
import Mathlib.Logic.ExistsUnique
import SheetFormula.Proofs.Parsing.Grammar
import SheetFormula.Proofs.Parsing.Readers

namespace SheetFormula.Grammar

open SheetFormula.Expr

/-! ## What may follow -/

/-- The tokens behind do not apply a name at the end of the tokens before. -/
def Unapplied (before behind : List Token) : Prop :=
  ∀ t ∈ before.getLast?, t.IsName → afterDelimiter? "(" behind = none

/-- No expression goes on here: a closing parenthesis or a comma comes next, or nothing. -/
def AtEnd (behind : List Token) : Prop :=
  ∀ t ∈ behind.head?, t.isDelimiter ")" ∨ t.isDelimiter ","

theorem unapplied_append {before middle behind : List Token} (h : middle ≠ []) :
    Unapplied (before ++ middle) behind ↔ Unapplied middle behind := by
  rw [Unapplied, Unapplied, List.getLast?_append]
  cases hlast : middle.getLast? with
  | none => exact absurd (List.getLast?_eq_none_iff.mp hlast) h
  | some t => rfl

theorem unapplied_cons {t : Token} {before behind : List Token} (h : before ≠ []) :
    Unapplied (t :: before) behind ↔ Unapplied before behind :=
  @unapplied_append [t] _ _ h

/-- A delimiter is no name. -/
theorem unapplied_delimiter {t : Token} {text : String} (before behind : List Token)
    (h : t.isDelimiter text) : Unapplied (before ++ [t]) behind := by
  intro u hu hname
  simp only [List.getLast?_append, List.getLast?_singleton, Option.some_or, Option.mem_def,
    Option.some.injEq] at hu
  simp only [Token.isDelimiter, Bool.and_eq_true, beq_iff_eq] at h
  rw [← hu, Token.IsName, h.1] at hname
  exact absurd hname.1 (by decide)

theorem unapplied_of_afterDelimiter? {before behind : List Token}
    (h : afterDelimiter? "(" behind = none) : Unapplied before behind := fun _ _ _ => h

theorem afterDelimiter?_cons {t : Token} {text : String} (ts : List Token)
    (h : t.isDelimiter text) : afterDelimiter? text (t :: ts) = some ts := by
  simp [afterDelimiter?, h]

theorem afterDelimiter?_cons_of_kind {t : Token} {text : String} (ts : List Token)
    (h : t.kind ≠ .delimiter) : afterDelimiter? text (t :: ts) = none := by
  simp [afterDelimiter?, Token.isDelimiter, h]

/-- A delimiter has one text. -/
theorem isDelimiter_eq_false {t : Token} {text text' : String} (h : t.isDelimiter text)
    (hne : text ≠ text') : t.isDelimiter text' = false := by
  simp only [Token.isDelimiter, Bool.and_eq_true, beq_iff_eq] at h
  simp [Token.isDelimiter, h.2, hne]

theorem exists_of_afterDelimiter? {text : String} {ts rest : List Token}
    (h : afterDelimiter? text ts = some rest) :
    ∃ t, ts = t :: rest ∧ t.isDelimiter text := by
  cases ts with
  | nil => cases h
  | cons t ts =>
      simp only [afterDelimiter?] at h
      split at h
      · next ht => cases h; exact ⟨t, rfl, ht⟩
      · cases h

/-! ## Leading operators -/

theorem leadingOp?_cons {t : Token} {op : BinaryOp} {floor : Nat} (ts : List Token)
    (hkind : t.kind = .operator) (htext : t.text = op.symbol) (hfloor : floor ≤ op.strength) :
    leadingOp? floor (t :: ts) = some (op, ts) := by
  simp [leadingOp?, hkind, htext, BinaryOp.ofSymbol?_symbol, hfloor]

theorem exists_of_leadingOp? {floor : Nat} {ts rest : List Token} {op : BinaryOp}
    (h : leadingOp? floor ts = some (op, rest)) :
    ∃ t, ts = t :: rest ∧ t.kind = .operator ∧ t.text = op.symbol ∧ floor ≤ op.strength := by
  cases ts with
  | nil => cases h
  | cons t ts =>
      simp only [leadingOp?] at h
      split at h
      · next hkind =>
          split at h
          · next op' hop =>
              split at h
              · next hfloor =>
                  cases h
                  exact ⟨t, rfl, hkind, (BinaryOp.symbol_of_ofSymbol? hop).symm, hfloor⟩
              · cases h
          · cases h
      · cases h

/-- A higher floor lets fewer operators through. -/
theorem leadingOp?_eq_none_of_le {floor floor' : Nat} {ts : List Token}
    (h : leadingOp? floor ts = none) (hle : floor ≤ floor') : leadingOp? floor' ts = none := by
  cases h' : leadingOp? floor' ts with
  | none => rfl
  | some found =>
      obtain ⟨op, rest⟩ := found
      obtain ⟨t, rfl, hkind, htext, hfloor⟩ := exists_of_leadingOp? h'
      rw [leadingOp?_cons rest hkind htext (Nat.le_trans hle hfloor)] at h
      cases h

/-- An operator that does not pass a floor is weaker than it. -/
theorem leadingOp?_eq_none {t : Token} {op : BinaryOp} {floor : Nat} (ts : List Token)
    (hkind : t.kind = .operator) (htext : t.text = op.symbol) (hfloor : op.strength < floor) :
    leadingOp? floor (t :: ts) = none := by
  simp [leadingOp?, hkind, htext, BinaryOp.ofSymbol?_symbol, Nat.not_le.mpr hfloor]

/-- No operator is stronger than those of level six. -/
theorem leadingOp?_of_seven_le {floor : Nat} (h : 7 ≤ floor) (ts : List Token) :
    leadingOp? floor ts = none := by
  cases hop : leadingOp? floor ts with
  | none => rfl
  | some found =>
      obtain ⟨op, rest⟩ := found
      obtain ⟨_, _, _, _, hfloor⟩ := exists_of_leadingOp? hop
      have := op.strength_le_six
      omega

/-! ## Ends of expressions -/

theorem atEnd_nil : AtEnd [] := by
  intro t ht
  cases ht

theorem atEnd_closing {closing : Token} (ts : List Token) (h : closing.isDelimiter ")") :
    AtEnd (closing :: ts) := by
  intro t ht
  cases ht
  exact .inl h

theorem atEnd_comma {comma : Token} (ts : List Token) (h : comma.isDelimiter ",") :
    AtEnd (comma :: ts) := by
  intro t ht
  cases ht
  exact .inr h

theorem AtEnd.leadingOp? {behind : List Token} (h : AtEnd behind) (floor : Nat) :
    leadingOp? floor behind = none := by
  cases behind with
  | nil => rfl
  | cons t ts =>
      have hkind : t.kind = .delimiter := by
        have := h t rfl
        simp only [Token.isDelimiter, Bool.and_eq_true, beq_iff_eq] at this
        rcases this with ⟨hk, _⟩ | ⟨hk, _⟩ <;> exact hk
      simp [Expr.leadingOp?, hkind]

theorem AtEnd.afterDelimiter? {behind : List Token} (h : AtEnd behind) :
    afterDelimiter? "(" behind = none := by
  cases behind with
  | nil => rfl
  | cons t ts =>
      have hopen : t.isDelimiter "(" = false := by
        rcases h t rfl with ht | ht
        · exact isDelimiter_eq_false ht (by decide)
        · exact isDelimiter_eq_false ht (by decide)
      simp [Expr.afterDelimiter?, hopen]

theorem MoreArguments.atEnd {ts : List Token} {es : List Expr} {closing : Token}
    (h : MoreArguments ts es) (rest : List Token) (hclose : closing.isDelimiter ")") :
    AtEnd (ts ++ closing :: rest) := by
  cases h with
  | none => exact atEnd_closing rest hclose
  | some hcomma _ _ => exact atEnd_comma _ hcomma

theorem closed_cons {α : Type} {closing : Token} (a : α) (rest : List Token)
    (h : closing.isDelimiter ")") : closed a (closing :: rest) = .found a rest := by
  simp [closed, afterDelimiter?_cons rest h]

theorem exists_of_closed {α : Type} {a a' : α} {ts rest : List Token}
    (h : closed a ts = .found a' rest) :
    ∃ closing, ts = closing :: rest ∧ closing.isDelimiter ")" ∧ a = a' := by
  unfold closed at h
  split at h
  · next hafter =>
      cases h
      obtain ⟨closing, rfl, hclose⟩ := exists_of_afterDelimiter? hafter
      exact ⟨closing, rfl, hclose, rfl⟩
  · cases h

/-- Without an operator to go on with, the left operand is all there is. -/
theorem readOperations_of_leadingOp? {floor : Nat} {ts : List Token} (left : Expr)
    (h : leadingOp? floor ts = none) : readOperations floor left ts = .found left ts := by
  rw [readOperations_eq, h]

/-! ## Completeness -/

/-- Before the end of an expression, all of its tokens are read as one expression, once the reader
    comes to the point where it is a left operand. -/
theorem readExpression_of_atEnd {ts rest : List Token} {e : Expr} (hend : AtEnd rest)
    (hread : leadingOp? 2 rest = none → Unapplied ts rest →
      readExpression 0 (ts ++ rest) = readOperations 0 e rest) :
    readExpression 0 (ts ++ rest) = .found e rest := by
  rw [hread (hend.leadingOp? 2) (unapplied_of_afterDelimiter? hend.afterDelimiter?)]
  exact readOperations_of_leadingOp? e (hend.leadingOp? 0)

mutual

/-- On the tokens of an expression of some level, a reader with a floor up to this level comes to
    the point where the expression is its left operand. -/
theorem Derives.readExpression_append {level floor : Nat} {ts : List Token} {e : Expr}
    (rest : List Token) (hfloor : floor ≤ level) (hstop : leadingOp? (level + 1) rest = none)
    (happ : Unapplied ts rest) :
    Derives level ts e → readExpression floor (ts ++ rest) = readOperations floor e rest
  | .tighter _ _ h =>
      h.readExpression_append rest (Nat.le_succ_of_le hfloor)
        (leadingOp?_eq_none_of_le hstop (Nat.le_succ _)) happ
  | @Derives.binary _ t ts us _ _ _ hleft hkind hop hright => by
      obtain ⟨op, hsymbol, hlevel, hfunction⟩ := mem_binaryOperators.mp hop
      rw [List.append_assoc, List.cons_append]
      -- The operator ends the left operand, being no stronger than its level.
      have hleftStop : leadingOp? (level + 1) (t :: (us ++ rest)) = none :=
        leadingOp?_eq_none _ hkind hsymbol.symm (by omega)
      have hleftApp : Unapplied ts (t :: (us ++ rest)) :=
        unapplied_of_afterDelimiter? (afterDelimiter?_cons_of_kind _ (by simp [hkind]))
      rw [hleft.readExpression_append _ hfloor hleftStop hleftApp]
      rw [readOperations_eq, leadingOp?_cons _ hkind hsymbol.symm (hlevel ▸ hfloor)]
      -- The right operand takes up all of its tokens and leaves the rest to this loop.
      have hrightApp : Unapplied us rest :=
        (unapplied_cons hright.ne_nil).mp ((unapplied_append (List.cons_ne_nil t us)).mp happ)
      have hrightRead := hright.readExpression_append rest (Nat.le_refl (level + 1))
        (leadingOp?_eq_none_of_le hstop (Nat.le_succ _)) hrightApp
      simp only [hlevel, hrightRead, readOperations_of_leadingOp? _ hstop, Reading.andThen_found]
      rw [BinaryOp.apply, hfunction]
  | .operand h => by
      rw [readExpression_eq, h.readOperand_append rest happ]
      rfl

/-- The tokens of an operand are read as the operand. -/
theorem Operand.readOperand_append {ts : List Token} {e : Expr} (rest : List Token)
    (happ : Unapplied ts rest) : Operand ts e → readOperand (ts ++ rest) = .found e rest
  | .unary hkind hop h => by
      obtain ⟨op, hsymbol, hfunction⟩ := mem_unaryOperators.mp hop
      have hread := h.readOperand_append rest ((unapplied_cons h.ne_nil).mp happ)
      rw [List.cons_append, readOperand_cons, hkind, ← hsymbol]
      simp only [UnaryOp.ofSymbol?_symbol, hread, Reading.andThen_found]
      rw [UnaryOp.apply, hfunction]
  | .number hkind hx => by
      rw [List.singleton_append, readOperand_cons, hkind]
      simp only [hx]
  | .text hkind => by
      rw [List.singleton_append, readOperand_cons, hkind]
  | .trueWord hkind htext => by
      rw [List.singleton_append, readOperand_cons, hkind]
      simp only [htext, if_true]
  | .falseWord hkind htext => by
      rw [List.singleton_append, readOperand_cons, hkind]
      simp [htext]
  | .var hname => by
      have hnone : afterDelimiter? "(" rest = none := happ _ rfl hname
      rw [List.singleton_append, readOperand_cons, hname.1]
      simp only [hname.2.1, hname.2.2, if_false, hnone]
  | @Operand.call _ _ closing ts _ hname hopen hargs hclose => by
      have hread := hargs.readArguments_append rest hclose
      have htail : ts ++ [closing] ++ rest = ts ++ closing :: rest := by simp
      rw [List.cons_append, List.cons_append, readOperand_cons, hname.1, htail]
      simp only [hname.2.1, hname.2.2, if_false, afterDelimiter?_cons _ hopen, hread]
      rfl
  | @Operand.group _ closing ts _ hopen h hclose => by
      have hread := readExpression_of_atEnd (atEnd_closing rest hclose)
        fun hstop happ => h.readExpression_append _ (Nat.zero_le 1) hstop happ
      have htail : ts ++ [closing] ++ rest = ts ++ closing :: rest := by simp
      simp only [Token.isDelimiter, Bool.and_eq_true, beq_iff_eq] at hopen
      rw [List.cons_append, readOperand_cons, hopen.1, htail]
      simp only [hopen.2, if_true, hread]
      exact closed_cons _ rest hclose

/-- The tokens of arguments are read up to the closing parenthesis. -/
theorem Arguments.readArguments_append {ts : List Token} {args : List Expr} {closing : Token}
    (rest : List Token) (hclose : closing.isDelimiter ")") :
    Arguments ts args → readArguments (ts ++ closing :: rest) = .found args rest
  | .none => by
      rw [List.nil_append, readArguments_eq, afterDelimiter?_cons rest hclose]
  | @Arguments.some ts us _ _ h hmore => by
      have hread := readExpression_of_atEnd (hmore.atEnd rest hclose)
        fun hstop happ => h.readExpression_append _ (Nat.zero_le 1) hstop happ
      have hfirst : afterDelimiter? ")" (ts ++ (us ++ closing :: rest)) = none := by
        obtain ⟨t, _, rfl, ht⟩ := h.exists_cons
        simp [Expr.afterDelimiter?, ht]
      rw [List.append_assoc, readArguments_eq, hfirst]
      simp only [hread, Reading.andThen_found, hmore.readMoreArguments_append rest hclose]

theorem MoreArguments.readMoreArguments_append {ts : List Token} {args : List Expr}
    {closing : Token} (rest : List Token) (hclose : closing.isDelimiter ")") :
    MoreArguments ts args → readMoreArguments (ts ++ closing :: rest) = .found args rest
  | .none => by
      have hcomma : afterDelimiter? "," (closing :: rest) = none := by
        simp [Expr.afterDelimiter?, isDelimiter_eq_false hclose (by decide : ")" ≠ ",")]
      rw [List.nil_append, readMoreArguments_eq, hcomma]
      exact closed_cons [] rest hclose
  | .some hcomma h hmore => by
      have hread := readExpression_of_atEnd (hmore.atEnd rest hclose)
        fun hstop happ => h.readExpression_append _ (Nat.zero_le 1) hstop happ
      rw [List.cons_append, List.append_assoc, readMoreArguments_eq, afterDelimiter?_cons _ hcomma]
      simp only [hread, Reading.andThen_found, hmore.readMoreArguments_append rest hclose]

end

/-- Before the end of an expression, an expression of any level is read as a whole. -/
theorem Derives.readExpression_of_atEnd {level floor : Nat} {ts rest : List Token} {e : Expr}
    (h : Derives level ts e) (hfloor : floor ≤ level) (hend : AtEnd rest) :
    readExpression floor (ts ++ rest) = .found e rest := by
  have happ : Unapplied ts rest := unapplied_of_afterDelimiter? hend.afterDelimiter?
  rw [h.readExpression_append rest hfloor (hend.leadingOp? _) happ]
  exact readOperations_of_leadingOp? e (hend.leadingOp? floor)

/-! ## Soundness

What each reader finds, the grammar derives.  One statement for each reader, each proved one unit
of budget up from the statements on the readers that it calls. -/

/-- What an expression reader finds behind the tokens `before` makes them an expression together
    with what it takes up, and no operator or application goes on from there. -/
def Takes (floor : Nat) (before ts : List Token) (e : Expr) (rest : List Token) : Prop :=
  ∃ middle, ts = middle ++ rest ∧ Derives (max 1 floor) (before ++ middle) e ∧
    leadingOp? floor rest = none ∧ Unapplied (before ++ middle) rest

def ExpressionSound (budget : Nat) : Prop :=
  ∀ floor ts e rest, floor ≤ 7 → expression budget floor ts = .found e rest →
    Takes floor [] ts e rest

/-- The left operand stands on a level no weaker than the operators that can follow it. -/
def OperationsSound (budget : Nat) : Prop :=
  ∀ floor level before left ts e rest, floor ≤ level → 1 ≤ level → level ≤ 7 →
    Derives level before left → leadingOp? (level + 1) ts = none → Unapplied before ts →
    operations budget floor left ts = .found e rest → Takes floor before ts e rest

def OperandSound (budget : Nat) : Prop :=
  ∀ ts e rest, operand budget ts = .found e rest →
    ∃ before, ts = before ++ rest ∧ Operand before e ∧ Unapplied before rest

def ArgumentsSound (budget : Nat) : Prop :=
  ∀ ts args rest, arguments budget ts = .found args rest →
    ∃ before closing, ts = before ++ closing :: rest ∧ closing.isDelimiter ")" ∧
      Arguments before args

def MoreArgumentsSound (budget : Nat) : Prop :=
  ∀ ts args rest, moreArguments budget ts = .found args rest →
    ∃ before closing, ts = before ++ closing :: rest ∧ closing.isDelimiter ")" ∧
      MoreArguments before args

theorem expressionSound_succ {budget : Nat} (hoperand : OperandSound budget)
    (hoperations : OperationsSound budget) : ExpressionSound (budget + 1) := by
  intro floor ts e rest hmax h
  rw [expression] at h
  obtain ⟨left, behind, hleft, hops⟩ := Reading.exists_of_andThen h
  obtain ⟨before, rfl, hd, happ⟩ := hoperand _ _ _ hleft
  -- An operand is an expression of the last level, which every operator can follow.
  obtain ⟨middle, rfl, hres⟩ := hoperations _ 7 before _ _ _ _ hmax (by decide) (Nat.le_refl _)
    (.operand hd) (leadingOp?_of_seven_le (by decide) _) happ hops
  exact ⟨before ++ middle, (List.append_assoc ..).symm, hres⟩

theorem operationsSound_succ {budget : Nat} (hexpression : ExpressionSound budget)
    (hoperations : OperationsSound budget) : OperationsSound (budget + 1) := by
  intro floor level before left ts e rest hfloor hpos hmax hd hstop happ h
  rw [operations] at h
  split at h
  · next hnone =>
      cases h
      have hlevel : Derives (max 1 floor) before left :=
        hd.of_le (Nat.le_max_left 1 floor) (by omega) hmax
      exact ⟨[], rfl, by simpa using hlevel, hnone, by simpa using happ⟩
  · next op behind hop =>
      have hsix := op.strength_le_six
      obtain ⟨t, rfl, hkind, htext, hle⟩ := exists_of_leadingOp? hop
      obtain ⟨right, behind', hright, hops⟩ := Reading.exists_of_andThen h
      obtain ⟨us, rfl, hdr, hstop', happ'⟩ := hexpression _ _ _ _ (by omega) hright
      rw [List.nil_append] at hdr happ'
      -- The operator is no stronger than the left operand's level, or it would have been taken.
      have hlevel : op.strength ≤ level := by
        refine Nat.le_of_not_lt fun hgt => ?_
        rw [leadingOp?_cons _ hkind htext hgt] at hstop
        cases hstop
      have hleft : Derives op.strength before left := hd.of_le op.one_le_strength hlevel hmax
      have hboth : Derives op.strength (before ++ t :: us) (op.apply left right) :=
        .binaryOp hleft hkind htext (by simpa using hdr)
      -- What the two make is the left operand from here on, on the operator's own level.
      have hbothApp : Unapplied (before ++ t :: us) behind' :=
        (unapplied_append (List.cons_ne_nil t us)).mpr ((unapplied_cons hdr.ne_nil).mpr happ')
      obtain ⟨middle, rfl, hres⟩ := hoperations _ op.strength (before ++ t :: us) _ _ _ _ hle
        op.one_le_strength (by omega) hboth hstop' hbothApp hops
      rw [List.append_assoc] at hres
      exact ⟨t :: us ++ middle, by simp, hres⟩

/-- A name behind which an opening parenthesis stands is called, any other is a variable. -/
theorem operandSound_name {budget : Nat} (harguments : ArgumentsSound budget) {t : Token}
    {ts rest : List Token} {e : Expr} (hname : t.IsName)
    (h : operand (budget + 1) (t :: ts) = .found e rest) :
    ∃ before, t :: ts = before ++ rest ∧ Operand before e ∧ Unapplied before rest := by
  rw [operand, hname.1] at h
  simp only [hname.2.1, hname.2.2, if_false] at h
  split at h
  · next behind hafter =>
      obtain ⟨opening, rfl, hopen⟩ := exists_of_afterDelimiter? hafter
      obtain ⟨args, behind', hargs, hfound⟩ := Reading.exists_of_andThen h
      cases hfound
      obtain ⟨us, closing, rfl, hclose, hd⟩ := harguments _ _ _ hargs
      refine ⟨t :: opening :: (us ++ [closing]), by simp, .call hname hopen hd hclose, ?_⟩
      exact unapplied_delimiter (t :: opening :: us) rest hclose
  · next hopen =>
      cases h
      exact ⟨[t], rfl, .var hname, unapplied_of_afterDelimiter? hopen⟩

theorem unapplied_singleton {t : Token} (rest : List Token) (h : ¬ t.IsName) :
    Unapplied [t] rest := by
  intro u hu hname
  cases hu
  exact absurd hname h

theorem operandSound_succ {budget : Nat} (hexpression : ExpressionSound budget)
    (hoperand : OperandSound budget) (harguments : ArgumentsSound budget) :
    OperandSound (budget + 1) := by
  intro ts e rest h
  cases ts with
  | nil => cases h
  | cons t ts =>
      by_cases hname : t.IsName
      · exact operandSound_name harguments hname h
      rw [operand] at h
      have happ : Unapplied [t] ts := unapplied_singleton ts hname
      split at h
      -- An operator has to be one of those in front of an operand.
      · next hkind =>
          split at h
          · next op hop =>
              obtain ⟨e', behind, hread, hfound⟩ := Reading.exists_of_andThen h
              cases hfound
              obtain ⟨us, rfl, hd, happ'⟩ := hoperand _ _ _ hread
              exact ⟨t :: us, rfl,
                .unaryOp hkind (UnaryOp.symbol_of_ofSymbol? hop).symm hd,
                (unapplied_cons hd.ne_nil).mpr happ'⟩
          · cases h
      -- A number has to read as one.
      · next hkind =>
          split at h
          · next x hx =>
              cases h
              exact ⟨[t], rfl, .number hkind hx, happ⟩
          · cases h
      · next hkind =>
          cases h
          exact ⟨[t], rfl, .text hkind, happ⟩
      -- An identifier that is no name is a truth value.
      · next hkind =>
          split at h
          · next htrue =>
              cases h
              exact ⟨[t], rfl, .trueWord hkind htrue, happ⟩
          · next htrue =>
              split at h
              · next hfalse =>
                  cases h
                  exact ⟨[t], rfl, .falseWord hkind hfalse, happ⟩
              · next hfalse => exact absurd ⟨hkind, htrue, hfalse⟩ hname
      -- A delimiter has to open a group, and the group has to be closed.
      · next hkind =>
          split at h
          · next hopen =>
              obtain ⟨e', behind, hread, hclosed⟩ := Reading.exists_of_andThen h
              obtain ⟨closing, rfl, hclose, rfl⟩ := exists_of_closed hclosed
              obtain ⟨us, rfl, hd, _, _⟩ := hexpression _ _ _ _ (Nat.zero_le 7) hread
              have hopening : t.isDelimiter "(" := by simp [Token.isDelimiter, hkind, hopen]
              exact ⟨t :: (us ++ [closing]), by simp, .group hopening hd hclose,
                unapplied_delimiter (t :: us) rest hclose⟩
          · cases h

theorem argumentsSound_succ {budget : Nat} (hexpression : ExpressionSound budget)
    (hmore : MoreArgumentsSound budget) : ArgumentsSound (budget + 1) := by
  intro ts args rest h
  rw [arguments] at h
  split at h
  · next behind hafter =>
      cases h
      obtain ⟨closing, rfl, hclose⟩ := exists_of_afterDelimiter? hafter
      exact ⟨[], closing, rfl, hclose, .none⟩
  · obtain ⟨e, behind, hread, h⟩ := Reading.exists_of_andThen h
    obtain ⟨es, behind', hread', hfound⟩ := Reading.exists_of_andThen h
    cases hfound
    obtain ⟨us, rfl, hd, _, _⟩ := hexpression _ _ _ _ (Nat.zero_le 7) hread
    obtain ⟨vs, closing, rfl, hclose, hds⟩ := hmore _ _ _ hread'
    exact ⟨us ++ vs, closing, by simp, hclose, .some hd hds⟩

theorem moreArgumentsSound_succ {budget : Nat} (hexpression : ExpressionSound budget)
    (hmore : MoreArgumentsSound budget) : MoreArgumentsSound (budget + 1) := by
  intro ts args rest h
  rw [moreArguments] at h
  split at h
  · next behind hafter =>
      obtain ⟨comma, rfl, hcomma⟩ := exists_of_afterDelimiter? hafter
      obtain ⟨e, behind, hread, h⟩ := Reading.exists_of_andThen h
      obtain ⟨es, behind', hread', hfound⟩ := Reading.exists_of_andThen h
      cases hfound
      obtain ⟨us, rfl, hd, _, _⟩ := hexpression _ _ _ _ (Nat.zero_le 7) hread
      obtain ⟨vs, closing, rfl, hclose, hds⟩ := hmore _ _ _ hread'
      exact ⟨comma :: (us ++ vs), closing, by simp, hclose, .some hcomma hd hds⟩
  · obtain ⟨closing, rfl, hclose, rfl⟩ := exists_of_closed h
    exact ⟨[], closing, rfl, hclose, .none⟩

/-- What any reader finds within the budget, the grammar derives. -/
structure AllSound (budget : Nat) : Prop where
  expression : ExpressionSound budget
  operations : OperationsSound budget
  operand : OperandSound budget
  arguments : ArgumentsSound budget
  moreArguments : MoreArgumentsSound budget

/-- Without a budget nothing is found. -/
theorem allSound_zero : AllSound 0 where
  expression := by
    intro _ _ _ _ _ h
    cases h
  operations := by
    intro _ _ _ _ _ _ _ _ _ _ _ _ _ h
    cases h
  operand := by
    intro _ _ _ h
    cases h
  arguments := by
    intro _ _ _ h
    cases h
  moreArguments := by
    intro _ _ _ h
    cases h

theorem allSound (budget : Nat) : AllSound budget := by
  induction budget with
  | zero => exact allSound_zero
  | succ budget ih =>
      exact {
        expression := expressionSound_succ ih.operand ih.operations
        operations := operationsSound_succ ih.expression ih.operations
        operand := operandSound_succ ih.expression ih.operand ih.arguments
        arguments := argumentsSound_succ ih.expression ih.moreArguments
        moreArguments := moreArgumentsSound_succ ih.expression ih.moreArguments }

theorem takes_of_readExpression {floor : Nat} {ts rest : List Token} {e : Expr}
    (hfloor : floor ≤ 7) (h : readExpression floor ts = .found e rest) :
    Takes floor [] ts e rest := (allSound _).expression floor ts e rest hfloor h

/-! ## Whole formulas -/

theorem derives_of_ofTokens {ts : List Token} {e : Expr} (h : ofTokens ts = .ok e) :
    Derives 1 ts e := by
  rw [ofTokens_eq] at h
  split at h
  · next e' hread =>
      cases h
      obtain ⟨us, rfl, hd, _, _⟩ := takes_of_readExpression (Nat.zero_le 7) hread
      simpa using hd
  · cases h
  · cases h
  · cases h

theorem ofTokens_of_derives {ts : List Token} {e : Expr} (h : Derives 1 ts e) :
    ofTokens ts = .ok e := by
  have hread := h.readExpression_of_atEnd (Nat.zero_le 1) atEnd_nil
  rw [List.append_nil] at hread
  rw [ofTokens_eq, hread]

/-- A token list is read as an expression exactly if it spells it, and a token list that is read
    spells exactly one. -/
theorem ofTokens_eq_ok_iff_derives (ts : List Token) :
    (∀ e, ofTokens ts = .ok e ↔ Derives 1 ts e) ∧
      ((∃ e, ofTokens ts = .ok e) ↔ ∃! e, Derives 1 ts e) := by
  have hiff : ∀ e, ofTokens ts = .ok e ↔ Derives 1 ts e := fun e =>
    ⟨derives_of_ofTokens, ofTokens_of_derives⟩
  refine ⟨hiff, ?_⟩
  constructor
  · rintro ⟨e, he⟩
    refine ⟨e, (hiff e).mp he, fun e' hd => ?_⟩
    have he' := (hiff e').mpr hd
    rw [he] at he'
    cases he'
    rfl
  · rintro ⟨e, hd, _⟩
    exact ⟨e, (hiff e).mpr hd⟩

end SheetFormula.Grammar
