/-
  SheetFormula.Proofs.Parsing.CorrectPrefix

  Where reading fails.  A token list that is not accepted has one longest part
  in front that some formula begins with; the error tells the token behind it,
  or that the tokens end too early, and no token further on has a say in it.

  Every reader fails in this way (`Stuck`): the tokens that it has passed can be
  completed, and the next one is blamed whatever follows.  The readers are put
  together by `andThen`, and so are these failures (`Stuck.andThen`), because a
  result depends on no more than the first token behind it (`Local`).
-/
import SheetFormula.Proofs.Parsing.Derivation

namespace SheetFormula.Grammar

open SheetFormula.Expr

/-! ## Accepted token lists and their beginnings -/

/-- The tokens are read as an expression. -/
def Accepted (ts : List Token) : Prop := ∃ e, ofTokens ts = .ok e

/-- Some accepted token list begins with the tokens. -/
def Extendable (ts : List Token) : Prop := ∃ more, Accepted (ts ++ more)

/-- The number 1 as a token. -/
def oneToken : Token := ⟨.number, "1", 0, 0⟩

/-- A closing parenthesis as a token. -/
def closingToken : Token := ⟨.delimiter, ")", 0, 0⟩

/-- What completes tokens that end too early: a number unless only a parenthesis is missing, and
    closing parentheses. -/
def completion (error : Error) (count : Nat) : List Token :=
  (if error = .missingClosingParen then [] else [oneToken]) ++ List.replicate count closingToken

/-- The token at position `k` is at fault: it is the first that no accepted list has there, and
    everything that begins with it fails in the same way. -/
def Blames (ts : List Token) (error : Error) (k : Nat) : Prop :=
  ∃ t, ts[k]? = some t ∧ ¬ Extendable (ts.take (k + 1)) ∧
    (∀ more, ofTokens (ts.take (k + 1) ++ more) = .error error) ∧
    (error = .missingClosingParen ∨ error = .unexpectedToken t.text)

/-- The first `k` tokens are in order, and the next one is at fault or is missing. -/
def FailsAfter (ts : List Token) (error : Error) (k : Nat) : Prop :=
  k ≤ ts.length ∧ Extendable (ts.take k) ∧
    (Blames ts error k ∨
      (k = ts.length ∧ (error = .unexpectedEnd ∨ error = .missingClosingParen)))

/-! ## Results depend on the next token only -/

/-- Neither an operator nor an opening parenthesis comes next. -/
def Neutral (ts : List Token) : Prop :=
  leadingOp? 0 ts = none ∧ afterDelimiter? "(" ts = none

/-- A result that leaves some tokens is found before all tokens that begin with the same one, and
    before all that cannot go on with it. -/
def Local {α : Type} (read : List Token → Reading α) : Prop :=
  ∀ ts a behind, read ts = .found a behind →
    ∃ before, ts = before ++ behind ∧
      ∀ us, us.head? = behind.head? ∨ Neutral us → read (before ++ us) = .found a us

theorem leadingOp?_of_head? {floor : Nat} {ts us : List Token} (h : us.head? = ts.head?)
    (hts : leadingOp? floor ts = none) : leadingOp? floor us = none := by
  cases ts with
  | nil =>
      have hnil : us = [] := List.head?_eq_none_iff.mp h
      rw [hnil]
      rfl
  | cons t ts =>
      obtain ⟨us', rfl⟩ : ∃ us', us = t :: us' := by
        cases us with
        | nil => cases h
        | cons u us => cases h; exact ⟨us, rfl⟩
      cases hop : leadingOp? floor (t :: us') with
      | none => rfl
      | some found =>
          obtain ⟨op, rest⟩ := found
          obtain ⟨t', heq, hkind, htext, hfloor⟩ := exists_of_leadingOp? hop
          cases heq
          rw [leadingOp?_cons ts hkind htext hfloor] at hts
          cases hts

theorem afterDelimiter?_of_head? {text : String} {ts us : List Token} (h : us.head? = ts.head?)
    (hts : afterDelimiter? text ts = none) : afterDelimiter? text us = none := by
  cases us with
  | nil => rfl
  | cons u us =>
      cases ts with
      | nil => cases h
      | cons t ts =>
          cases h
          simp only [afterDelimiter?] at hts ⊢
          split at hts
          · cases hts
          · next ht => rw [if_neg ht]

theorem unapplied_of_head? {before ts us : List Token} (h : us.head? = ts.head? ∨ Neutral us)
    (happ : Unapplied before ts) : Unapplied before us := by
  intro t ht hname
  rcases h with h | h
  · exact afterDelimiter?_of_head? h (happ t ht hname)
  · exact h.2

theorem local_readOperand : Local readOperand := by
  intro ts e behind h
  obtain ⟨before, rfl, hd, happ⟩ := (allSound _).operand ts e behind h
  refine ⟨before, rfl, fun us hus => ?_⟩
  exact hd.readOperand_append us (unapplied_of_head? hus happ)

theorem local_readExpression {floor : Nat} (hfloor : floor ≤ 7) : Local (readExpression floor) := by
  intro ts e behind h
  obtain ⟨before, rfl, hd, hstop, happ⟩ := takes_of_readExpression hfloor h
  rw [List.nil_append] at hd happ
  refine ⟨before, rfl, fun us hus => ?_⟩
  have hstop' : leadingOp? floor us = none := by
    rcases hus with hus | hus
    · exact leadingOp?_of_head? hus hstop
    · exact leadingOp?_eq_none_of_le hus.1 (Nat.zero_le floor)
  rw [hd.readExpression_append us (Nat.le_max_right 1 floor)
    (leadingOp?_eq_none_of_le hstop' (by omega)) (unapplied_of_head? hus happ)]
  exact readOperations_of_leadingOp? e hstop'

theorem AtEnd.neutral {ts : List Token} (h : AtEnd ts) : Neutral ts :=
  ⟨h.leadingOp? 0, h.afterDelimiter?⟩

/-! ## Completions -/

theorem closingToken_isDelimiter : closingToken.isDelimiter ")" := by decide

theorem atEnd_replicate {rest : List Token} (count : Nat) (h : AtEnd rest) :
    AtEnd (List.replicate count closingToken ++ rest) := by
  cases count with
  | zero => exact h
  | succ n =>
      rw [List.replicate_succ, List.cons_append]
      exact atEnd_closing _ closingToken_isDelimiter

theorem completion_add (error : Error) (m n : Nat) (rest : List Token) :
    completion error (m + n) ++ rest =
      completion error m ++ (List.replicate n closingToken ++ rest) := by
  rw [completion, completion, ← List.replicate_append_replicate]
  simp only [List.append_assoc]

theorem neutral_completion {rest : List Token} (error : Error) (count : Nat) (h : AtEnd rest) :
    Neutral (completion error count ++ rest) := by
  unfold completion
  split
  · exact (atEnd_replicate count h).neutral
  · exact ⟨by simp [leadingOp?, oneToken], by simp [afterDelimiter?, Token.isDelimiter, oneToken]⟩

/-- A missing operand can be the number 1. -/
theorem exists_readOperand_completion {error : Error} (h : error ≠ .missingClosingParen)
    (rest : List Token) : ∃ e, readOperand (completion error 0 ++ rest) = .found e rest := by
  have hone : ∃ x, Numeral.literal? oneToken.text.toList = some x := ⟨_, rfl⟩
  obtain ⟨x, hx⟩ := hone
  refine ⟨.number x, ?_⟩
  have hcompletion : completion error 0 ++ rest = oneToken :: rest := by simp [completion, h]
  have hkind : oneToken.kind = .number := rfl
  rw [hcompletion, readOperand_cons, hkind]
  simp only [hx]

/-! ## How readers fail -/

/-- Behind `before` the next token is blamed whatever follows it, or else the end is: `fails` says
    which tokens fail with which error. -/
def StopsAt (fails : List Token → Error → Prop) (before behind : List Token) (error : Error) :
    Prop :=
  match behind with
  | [] => error = .unexpectedEnd ∨ error = .missingClosingParen
  | t :: _ =>
    (error = .missingClosingParen ∨ error = .unexpectedToken t.text) ∧
      ∀ more, fails (before ++ t :: more) error

/-- The blame stays with the same token where one failure leads to another. -/
theorem StopsAt.transfer {fails fails' : List Token → Error → Prop}
    {before before' behind : List Token} {error : Error} (h : StopsAt fails before behind error)
    (hfails : ∀ us, us.head? = behind.head? →
      fails (before ++ us) error → fails' (before' ++ us) error) :
    StopsAt fails' before' behind error := by
  cases behind with
  | nil => exact h
  | cons t behind =>
      obtain ⟨herror, hmore⟩ := h
      refine ⟨herror, fun more => ?_⟩
      exact hfails (t :: more) rfl (hmore more)

/-- The reader fails on the tokens. -/
def Fails {α : Type} (read : List Token → Reading α) (ts : List Token) (error : Error) : Prop :=
  ∃ rest, read ts = .failed error rest

/-- The reader fails behind tokens that can be completed to what it reads, and blames the next
    token whatever follows it, or the end. -/
def Stuck {α : Type} (read : List Token → Reading α) (ts : List Token) (error : Error) : Prop :=
  ∃ before behind, ts = before ++ behind ∧
    (∃ count, ∀ rest, AtEnd rest →
      ∃ a, read (before ++ (completion error count ++ rest)) = .found a rest) ∧
    StopsAt (Fails read) before behind error

section Composition

variable {α β : Type} {error : Error}

/-- A failure behind a token that leads from one reader to another. -/
theorem Stuck.cons {read : List Token → Reading α} {next : List Token → Reading α} {t : Token}
    {ts : List Token} (hread : ∀ us, read (t :: us) = next us) (h : Stuck next ts error) :
    Stuck read (t :: ts) error := by
  obtain ⟨before, behind, rfl, ⟨count, hcount⟩, hstops⟩ := h
  refine ⟨t :: before, behind, rfl, ⟨count, fun rest hrest => ?_⟩, hstops.transfer ?_⟩
  · rw [List.cons_append, hread]
    exact hcount rest hrest
  · rintro us - ⟨rest, hrest⟩
    refine ⟨rest, ?_⟩
    rw [List.cons_append, hread]
    exact hrest

/-- A failure of another reader that does the same where it succeeds and on the same first token. -/
theorem Stuck.congr {read read' : List Token → Reading α} {ts : List Token}
    (hfound : ∀ us a rest, read' us = .found a rest → read us = .found a rest)
    (hhead : ∀ us, us.head? = ts.head? → read us = read' us) (h : Stuck read' ts error) :
    Stuck read ts error := by
  obtain ⟨before, behind, rfl, ⟨count, hcount⟩, hstops⟩ := h
  refine ⟨before, behind, rfl, ⟨count, fun rest hrest => ?_⟩, hstops.transfer ?_⟩
  · obtain ⟨a, ha⟩ := hcount rest hrest
    exact ⟨a, hfound _ a rest ha⟩
  · rintro us hus ⟨rest, hrest⟩
    refine ⟨rest, ?_⟩
    have hsame : (before ++ us).head? = (before ++ behind).head? := by
      cases before with
      | nil => exact hus
      | cons t before => rfl
    rw [hhead _ hsame]
    exact hrest

/-- A failure of the first of two readers, if closing parentheses satisfy the second. -/
theorem Stuck.andThen_left {read : List Token → Reading α} {next : α → List Token → Reading β}
    {ts : List Token} (count : Nat)
    (hfinish : ∀ a rest, AtEnd rest →
      ∃ b, next a (List.replicate count closingToken ++ rest) = .found b rest)
    (h : Stuck read ts error) : Stuck (fun us => (read us).andThen next) ts error := by
  obtain ⟨before, behind, rfl, ⟨n, hn⟩, hstops⟩ := h
  refine ⟨before, behind, rfl, ⟨n + count, fun rest hrest => ?_⟩, hstops.transfer ?_⟩
  -- The first reader's completion ends where the closing parentheses of the second begin.
  · obtain ⟨a, ha⟩ := hn _ (atEnd_replicate count hrest)
    obtain ⟨b, hb⟩ := hfinish a rest hrest
    refine ⟨b, ?_⟩
    show (read _).andThen next = _
    rw [completion_add, ha]
    exact hb
  · rintro us - ⟨rest, hrest⟩
    refine ⟨rest, ?_⟩
    show (read _).andThen next = _
    rw [hrest]
    rfl

/-- A failure of the second of two readers, behind what the first has found. -/
theorem Stuck.andThen_right {read : List Token → Reading α} {next : α → List Token → Reading β}
    {ts behind : List Token} {a : α} (hlocal : Local read) (hread : read ts = .found a behind)
    (h : Stuck (next a) behind error) : Stuck (fun us => (read us).andThen next) ts error := by
  obtain ⟨first, rfl, hfirst⟩ := hlocal ts a behind hread
  obtain ⟨before, behind', rfl, ⟨count, hcount⟩, hstops⟩ := h
  refine ⟨first ++ before, behind', (List.append_assoc ..).symm,
    ⟨count, fun rest hrest => ?_⟩, hstops.transfer ?_⟩
  · obtain ⟨b, hb⟩ := hcount rest hrest
    refine ⟨b, ?_⟩
    show (read _).andThen next = _
    rw [List.append_assoc, hfirst]
    · exact hb
    -- The completion comes right behind the first result, or behind a token that was there.
    · cases before with
      | nil => exact .inr (neutral_completion error count hrest)
      | cons t before => exact .inl rfl
  · rintro us hus ⟨rest, hrest⟩
    refine ⟨rest, ?_⟩
    show (read _).andThen next = _
    rw [List.append_assoc, hfirst]
    · exact hrest
    -- The first result is followed by the same token, be it the blamed one or one before it.
    · cases before with
      | nil => exact .inl hus
      | cons t before => exact .inl rfl

/-- A failure of two readers in a row is a failure of the first or of the second. -/
theorem Stuck.andThen {read : List Token → Reading α} {next : α → List Token → Reading β}
    {ts rest : List Token} (count : Nat) (hlocal : Local read)
    (hfinish : ∀ a rest, AtEnd rest →
      ∃ b, next a (List.replicate count closingToken ++ rest) = .found b rest)
    (hleft : ∀ r, read ts = .failed error r → Stuck read ts error)
    (hright : ∀ a behind r, read ts = .found a behind → next a behind = .failed error r →
      Stuck (next a) behind error)
    (h : (read ts).andThen next = .failed error rest) :
    Stuck (fun us => (read us).andThen next) ts error := by
  cases hread : read ts with
  | found a behind =>
      rw [hread] at h
      exact (hright a behind rest hread h).andThen_right hlocal hread
  | failed e r =>
      rw [hread] at h
      cases h
      exact (hleft rest hread).andThen_left count hfinish
  | exhausted =>
      rw [hread] at h
      cases h

/-- A reader whose results are only put into another form fails as before. -/
theorem Stuck.map {read : List Token → Reading α} {ts rest : List Token} (f : α → β)
    (hleft : ∀ r, read ts = .failed error r → Stuck read ts error)
    (h : (read ts).andThen (fun a us => Reading.found (f a) us) = .failed error rest) :
    Stuck (fun us => (read us).andThen fun a us => .found (f a) us) ts error := by
  cases hread : read ts with
  | found a behind =>
      rw [hread] at h
      cases h
  | failed e r =>
      rw [hread] at h
      cases h
      exact (hleft rest hread).andThen_left 0 fun a rest _ => ⟨f a, rfl⟩
  | exhausted =>
      rw [hread] at h
      cases h

/-- Where a closing parenthesis is missing, one more token completes the expression. -/
theorem stuck_closed (a : α) {ts rest : List Token} (h : closed a ts = .failed error rest) :
    Stuck (closed a) ts error := by
  have herror : error = .missingClosingParen ∧ afterDelimiter? ")" ts = none := by
    unfold closed at h
    split at h
    · cases h
    · next hnone => cases h; exact ⟨rfl, hnone⟩
  obtain ⟨rfl, hnone⟩ := herror
  refine ⟨[], ts, rfl, ⟨1, fun rest _ => ⟨a, closed_cons a rest closingToken_isDelimiter⟩⟩, ?_⟩
  cases ts with
  | nil => exact .inr rfl
  | cons t ts =>
      refine ⟨.inl rfl, fun more => ⟨t :: more, ?_⟩⟩
      have hhead : (t :: more).head? = (t :: ts).head? := rfl
      have hmore : afterDelimiter? ")" (t :: more) = none := afterDelimiter?_of_head? hhead hnone
      rw [List.nil_append, closed, hmore]

end Composition

/-! ## Every reader gets stuck in this way -/

/-- All readers fail on the tokens as `Stuck` says. -/
structure AllStuck (ts : List Token) : Prop where
  expression : ∀ floor error rest, readExpression floor ts = .failed error rest →
    Stuck (readExpression floor) ts error
  operations : ∀ floor left error rest, readOperations floor left ts = .failed error rest →
    Stuck (readOperations floor left) ts error
  operand : ∀ error rest, readOperand ts = .failed error rest → Stuck readOperand ts error
  arguments : ∀ error rest, readArguments ts = .failed error rest → Stuck readArguments ts error
  moreArguments : ∀ error rest, readMoreArguments ts = .failed error rest →
    Stuck readMoreArguments ts error

/-- A token that begins no operand is blamed by itself. -/
theorem stuck_operand_token {t : Token} {ts rest : List Token} {error : Error}
    (hread : ∀ us, readOperand (t :: us) = .failed (.unexpectedToken t.text) us)
    (h : readOperand (t :: ts) = .failed error rest) : Stuck readOperand (t :: ts) error := by
  rw [hread] at h
  cases h
  exact ⟨[], t :: ts, rfl, ⟨0, fun rest _ => exists_readOperand_completion (by simp) rest⟩,
    .inr rfl, fun more => ⟨more, hread more⟩⟩

theorem stuck_operand_nil : Stuck readOperand [] .unexpectedEnd :=
  ⟨[], [], rfl, ⟨0, fun rest _ => exists_readOperand_completion (by simp) rest⟩, .inl rfl⟩

/-- A name fails only in the arguments of a call. -/
theorem stuck_operand_name {t : Token} {ts rest : List Token} {error : Error} (hname : t.IsName)
    (ih : ∀ us, us.length < ts.length → AllStuck us)
    (h : readOperand (t :: ts) = .failed error rest) : Stuck readOperand (t :: ts) error := by
  rw [readOperand_cons, hname.1] at h
  simp only [hname.2.1, hname.2.2, if_false] at h
  split at h
  · next behind hafter =>
      obtain ⟨opening, rfl, hopen⟩ := exists_of_afterDelimiter? hafter
      have hread : ∀ us, readOperand (t :: opening :: us) =
          (readArguments us).andThen fun args rest => .found (callNamed t.text args) rest := by
        intro us
        rw [readOperand_cons, hname.1]
        simp only [hname.2.1, hname.2.2, if_false, afterDelimiter?_cons us hopen]
      have hargs := (ih behind (Nat.lt_succ_self _)).arguments error
      have hcall : Stuck (fun us => readOperand (t :: us)) (opening :: behind) error :=
        Stuck.cons hread (Stuck.map (callNamed t.text) hargs h)
      exact Stuck.cons (fun _ => rfl) hcall
  · cases h

/-- What stands in an operand behind its first token is shorter than the operand. -/
theorem stuck_operand {ts rest : List Token} {error : Error}
    (ih : ∀ us, us.length < ts.length → AllStuck us) (h : readOperand ts = .failed error rest) :
    Stuck readOperand ts error := by
  cases ts with
  | nil => cases h; exact stuck_operand_nil
  | cons t ts =>
      by_cases hname : t.IsName
      · exact stuck_operand_name hname (fun us hus => ih us (Nat.lt_succ_of_lt hus)) h
      have ht := ih ts (Nat.lt_succ_self _)
      cases hkind : t.kind with
      | operator =>
          cases hop : UnaryOp.ofSymbol? t.text with
          | none => exact stuck_operand_token (by simp [readOperand_cons, hkind, hop]) h
          | some op =>
              have hread : ∀ us, readOperand (t :: us) =
                  (readOperand us).andThen fun e rest => .found (op.apply e) rest := by
                simp [readOperand_cons, hkind, hop]
              rw [hread] at h
              exact Stuck.cons hread (Stuck.map op.apply (ht.operand error) h)
      | number =>
          cases hx : Numeral.literal? t.text.toList with
          | none => exact stuck_operand_token (by simp [readOperand_cons, hkind, hx]) h
          | some x => simp [readOperand_cons, hkind, hx] at h
      | text => simp [readOperand_cons, hkind] at h
      | identifier =>
          rw [readOperand_cons, hkind] at h
          simp only at h
          split at h
          · cases h
          · next htrue =>
              split at h
              · cases h
              · next hfalse => exact absurd ⟨hkind, htrue, hfalse⟩ hname
      | delimiter =>
          by_cases htext : t.text = "("
          · have hread : ∀ us, readOperand (t :: us) = (readExpression 0 us).andThen closed := by
              simp [readOperand_cons, hkind, htext]
            rw [hread] at h
            refine Stuck.cons hread (Stuck.andThen 1 (local_readExpression (Nat.zero_le 7)) ?_
              (ht.expression 0 error) ?_ h)
            · exact fun e rest _ => ⟨e, closed_cons e rest closingToken_isDelimiter⟩
            · exact fun e behind r _ hclosed => stuck_closed e hclosed
          · exact stuck_operand_token (by simp [readOperand_cons, hkind, htext]) h

theorem stuck_expression {floor : Nat} {ts rest : List Token} {error : Error}
    (hoperand : ∀ r, readOperand ts = .failed error r → Stuck readOperand ts error)
    (ih : ∀ us, us.length < ts.length → AllStuck us)
    (h : readExpression floor ts = .failed error rest) : Stuck (readExpression floor) ts error := by
  rw [readExpression_eq] at h
  have hread : readExpression floor =
      fun us => (readOperand us).andThen fun left rest => readOperations floor left rest :=
    funext (readExpression_eq floor)
  rw [hread]
  refine Stuck.andThen 0 local_readOperand ?_ hoperand ?_ h
  · intro left rest hend
    exact ⟨left, readOperations_of_leadingOp? left (hend.leadingOp? floor)⟩
  · intro left behind r hfound hfailed
    have hshorter := within_readOperand ts
    rw [hfound] at hshorter
    exact (ih behind hshorter).operations floor left error r hfailed

/-- Operations fail behind their first operator. -/
theorem stuck_operations {floor : Nat} {left : Expr} {ts rest : List Token} {error : Error}
    (ih : ∀ us, us.length < ts.length → AllStuck us)
    (h : readOperations floor left ts = .failed error rest) :
    Stuck (readOperations floor left) ts error := by
  rw [readOperations_eq] at h
  split at h
  · cases h
  · next op behind hop =>
      have hsix := op.strength_le_six
      obtain ⟨t, rfl, hkind, htext, hle⟩ := exists_of_leadingOp? hop
      have hread : ∀ us, readOperations floor left (t :: us) =
          (readExpression (op.strength + 1) us).andThen fun right rest =>
            readOperations floor (op.apply left right) rest := by
        intro us
        rw [readOperations_eq, leadingOp?_cons us hkind htext hle]
      have hbehind := ih behind (Nat.lt_succ_self _)
      have hmax : op.strength + 1 ≤ 7 := Nat.succ_le_succ hsix
      refine Stuck.cons hread (Stuck.andThen 0 (local_readExpression hmax) ?_
        (hbehind.expression _ error) ?_ h)
      · intro right rest hend
        exact ⟨_, readOperations_of_leadingOp? _ (hend.leadingOp? floor)⟩
      · intro right us r hfound hfailed
        have hshorter := within_readExpression (op.strength + 1) behind
        rw [hfound] at hshorter
        exact (ih us (Nat.lt_succ_of_lt hshorter)).operations floor _ error r hfailed

/-- An expression and the arguments behind it, up to the closing parenthesis. -/
theorem stuck_argument {ts rest : List Token} {error : Error}
    (hexpression : ∀ r, readExpression 0 ts = .failed error r → Stuck (readExpression 0) ts error)
    (ih : ∀ us, us.length < ts.length → AllStuck us)
    (h : ((readExpression 0 ts).andThen fun e rest =>
      (readMoreArguments rest).andThen fun es rest => .found (e :: es) rest) =
        .failed error rest) :
    Stuck (fun us => (readExpression 0 us).andThen fun e rest =>
      (readMoreArguments rest).andThen fun es rest => .found (e :: es) rest) ts error := by
  refine Stuck.andThen 1 (local_readExpression (Nat.zero_le 7)) ?_ hexpression ?_ h
  · intro e rest _
    have hnone : readMoreArguments (closingToken :: rest) = .found [] rest :=
      MoreArguments.none.readMoreArguments_append rest closingToken_isDelimiter
    exact ⟨[e], by rw [List.replicate_one, List.singleton_append, hnone]; rfl⟩
  · intro e behind r hfound hfailed
    have hshorter := within_readExpression 0 ts
    rw [hfound] at hshorter
    exact Stuck.map (e :: ·) ((ih behind hshorter).moreArguments error) hfailed

/-- No expression begins with a closing parenthesis. -/
theorem afterDelimiter?_of_readExpression {floor : Nat} {ts rest : List Token} {e : Expr}
    (hfloor : floor ≤ 7) (h : readExpression floor ts = .found e rest) :
    afterDelimiter? ")" ts = none := by
  obtain ⟨before, rfl, hd, _, _⟩ := takes_of_readExpression hfloor h
  obtain ⟨t, us, hcons, ht⟩ := hd.exists_cons
  rw [List.nil_append] at hcons
  simp [hcons, afterDelimiter?, ht]

theorem stuck_arguments {ts rest : List Token} {error : Error}
    (hexpression : ∀ r, readExpression 0 ts = .failed error r → Stuck (readExpression 0) ts error)
    (ih : ∀ us, us.length < ts.length → AllStuck us)
    (h : readArguments ts = .failed error rest) : Stuck readArguments ts error := by
  rw [readArguments_eq] at h
  split at h
  · cases h
  · next hnone =>
      refine Stuck.congr ?_ ?_ (stuck_argument hexpression ih h)
      · intro us args r hfound
        obtain ⟨e, behind, hread, _⟩ := Reading.exists_of_andThen hfound
        rw [readArguments_eq, afterDelimiter?_of_readExpression (Nat.zero_le 7) hread]
        exact hfound
      · intro us hhead
        rw [readArguments_eq, afterDelimiter?_of_head? hhead hnone]

theorem stuck_moreArguments {ts rest : List Token} {error : Error}
    (ih : ∀ us, us.length < ts.length → AllStuck us)
    (h : readMoreArguments ts = .failed error rest) : Stuck readMoreArguments ts error := by
  rw [readMoreArguments_eq] at h
  split at h
  · next behind hafter =>
      obtain ⟨comma, rfl, hcomma⟩ := exists_of_afterDelimiter? hafter
      have hbehind := ih behind (Nat.lt_succ_self _)
      refine Stuck.cons ?_ (stuck_argument (hbehind.expression 0 error)
        (fun us hus => ih us (Nat.lt_succ_of_lt hus)) h)
      intro us
      rw [readMoreArguments_eq, afterDelimiter?_cons us hcomma]
  · next hnone =>
      refine Stuck.congr ?_ ?_ (stuck_closed [] h)
      · intro us args r hfound
        obtain ⟨closing, rfl, hclose, _⟩ := exists_of_closed hfound
        have hcomma : afterDelimiter? "," (closing :: r) = none := by
          simp [afterDelimiter?, isDelimiter_eq_false hclose (by decide : ")" ≠ ",")]
        rw [readMoreArguments_eq, hcomma]
        exact hfound
      · intro us hhead
        rw [readMoreArguments_eq, afterDelimiter?_of_head? hhead hnone]

theorem allStuck (ts : List Token) : AllStuck ts := by
  induction hlen : ts.length using Nat.strongRecOn generalizing ts with
  | ind n ihLength =>
      have ih : ∀ us : List Token, us.length < ts.length → AllStuck us := fun us hus =>
        ihLength us.length (hlen ▸ hus) us rfl
      have hoperand : ∀ error r, readOperand ts = .failed error r → Stuck readOperand ts error :=
        fun _ _ => stuck_operand ih
      have hexpression : ∀ floor error r, readExpression floor ts = .failed error r →
          Stuck (readExpression floor) ts error := fun _ error _ =>
        stuck_expression (hoperand error) ih
      exact {
        expression := hexpression
        operations := fun _ _ _ _ => stuck_operations ih
        operand := hoperand
        arguments := fun error _ => stuck_arguments (hexpression 0 error) ih
        moreArguments := fun _ _ => stuck_moreArguments ih }

/-! ## Whole formulas -/

theorem ofTokens_of_failed {ts rest : List Token} {error : Error}
    (h : readExpression 0 ts = .failed error rest) : ofTokens ts = .error error := by
  rw [ofTokens_eq, h]

theorem accepted_of_found {ts : List Token} {e : Expr} (h : readExpression 0 ts = .found e []) :
    Accepted ts := ⟨e, by rw [ofTokens_eq, h]⟩

/-- A failure at the token behind `before` or at the end, told from the tokens before it. -/
theorem failsAfter_append {before behind : List Token} {error : Error}
    (hextends : Extendable before)
    (hstops : StopsAt (fun ts error => ofTokens ts = .error error) before behind error) :
    FailsAfter (before ++ behind) error before.length := by
  have htake : (before ++ behind).take before.length = before := List.take_left
  refine ⟨by simp, by rw [htake]; exact hextends, ?_⟩
  cases behind with
  | nil => exact .inr ⟨by simp, hstops⟩
  | cons t behind =>
      obtain ⟨herror, hfails⟩ := hstops
      have hnext : (before ++ t :: behind).take (before.length + 1) = before ++ [t] := by
        rw [List.take_length_add_append]
        rfl
      have hall : ∀ more, ofTokens (before ++ [t] ++ more) = .error error := by
        intro more
        rw [List.append_assoc]
        exact hfails more
      refine .inl ⟨t, by simp, ?_, ?_, herror⟩
      · rintro ⟨more, e, he⟩
        rw [hnext, hall more] at he
        cases he
      · rw [hnext]
        exact hall

/-- What is left over behind an expression is at fault. -/
theorem failsAfter_of_leftover {ts rest : List Token} {t : Token} {e : Expr}
    (h : readExpression 0 ts = .found e (t :: rest)) :
    ∃ k, FailsAfter ts (.unexpectedToken t.text) k ∧ k < ts.length := by
  obtain ⟨before, rfl, hbefore⟩ := local_readExpression (Nat.zero_le 7) ts e _ h
  have haccepted : Accepted before := by
    have hread := hbefore [] (.inr atEnd_nil.neutral)
    rw [List.append_nil] at hread
    exact accepted_of_found hread
  refine ⟨before.length, failsAfter_append ⟨[], by simpa using haccepted⟩ ?_, by simp⟩
  refine ⟨.inr rfl, fun more => ?_⟩
  show ofTokens (before ++ t :: more) = _
  rw [ofTokens_eq, hbefore (t :: more) (.inl rfl)]

/-- An expression that cannot be read fails behind tokens that can be completed. -/
theorem failsAfter_of_stuck {ts : List Token} {error : Error}
    (h : Stuck (readExpression 0) ts error) :
    ∃ k, FailsAfter ts error k ∧
      (k = ts.length → ∃ count, Accepted (ts ++ completion error count)) := by
  obtain ⟨before, behind, rfl, ⟨count, hcount⟩, hstops⟩ := h
  have hcomplete : Accepted (before ++ completion error count) := by
    obtain ⟨e, he⟩ := hcount [] atEnd_nil
    rw [List.append_nil] at he
    exact accepted_of_found he
  have hfails : ∀ us, us.head? = behind.head? → Fails (readExpression 0) (before ++ us) error →
      ofTokens (before ++ us) = .error error := by
    rintro us - ⟨rest, hrest⟩
    exact ofTokens_of_failed hrest
  refine ⟨before.length, failsAfter_append ⟨_, hcomplete⟩ (hstops.transfer hfails),
    fun hlen => ⟨count, ?_⟩⟩
  have hnil : behind = [] := by simpa using hlen
  rw [hnil, List.append_nil]
  exact hcomplete

/-- No two beginnings of a token list are both the longest one in order. -/
theorem FailsAfter.le {ts : List Token} {error : Error} {k k' : Nat} (h : FailsAfter ts error k)
    (h' : FailsAfter ts error k') : k' ≤ k := by
  refine Nat.le_of_not_lt fun hlt => ?_
  obtain ⟨hk', ⟨more, haccepted⟩, _⟩ := h'
  rcases h.2.2 with ⟨t, _, hnot, _, _⟩ | ⟨hlen, _⟩
  · refine hnot ⟨(ts.take k').drop (k + 1) ++ more, ?_⟩
    have hsplit : ts.take (k + 1) ++ (ts.take k').drop (k + 1) = ts.take k' := by
      have htake : (ts.take k').take (k + 1) = ts.take (k + 1) := by
        rw [List.take_take, Nat.min_eq_left hlt]
      rw [← htake, List.take_append_drop]
    rw [← List.append_assoc, hsplit]
    exact haccepted
  · omega

theorem FailsAfter.length_of_unexpectedEnd {ts : List Token} {k : Nat}
    (h : FailsAfter ts .unexpectedEnd k) : k = ts.length := by
  rcases h.2.2 with ⟨_, _, _, _, herror⟩ | ⟨hlen, _⟩
  · rcases herror with herror | herror <;> cases herror
  · exact hlen

/-- A token list that is not accepted fails behind exactly one of its beginnings; an end that comes
    too early is an end of the tokens, and an end where the tokens are in order can be completed by
    a number, if an operand is missing, and closing parentheses. -/
theorem exists_unique_failsAfter {ts : List Token} {error : Error}
    (h : ofTokens ts = .error error) :
    ∃ k, FailsAfter ts error k ∧ (∀ k', FailsAfter ts error k' → k' = k) ∧
      (error = .unexpectedEnd → k = ts.length) ∧
      (k = ts.length → ∃ count, Accepted (ts ++ completion error count)) := by
  have hexists : ∃ k, FailsAfter ts error k ∧
      (k = ts.length → ∃ count, Accepted (ts ++ completion error count)) := by
    rw [ofTokens_eq] at h
    split at h
    · cases h
    · next e t rest hread =>
        cases h
        obtain ⟨k, hk, hlt⟩ := failsAfter_of_leftover hread
        exact ⟨k, hk, fun hlen => absurd hlen (Nat.ne_of_lt hlt)⟩
    · next rest hread =>
        cases h
        exact failsAfter_of_stuck ((allStuck ts).expression 0 error rest hread)
    · next hread => exact absurd hread (expression_ne_exhausted 0 ts)
  obtain ⟨k, hk, hcomplete⟩ := hexists
  refine ⟨k, hk, fun k' hk' => Nat.le_antisymm (hk.le hk') (hk'.le hk), ?_, hcomplete⟩
  rintro rfl
  exact hk.length_of_unexpectedEnd

/-- In `f ( 1 1` the second number is at fault. -/
theorem exists_unique_failsAfter_second_argument :
    ofTokens [⟨.identifier, "f", 0, 1⟩, ⟨.delimiter, "(", 1, 2⟩, oneToken, oneToken]
        = .error .missingClosingParen ∧
      ∃ k, FailsAfter [⟨.identifier, "f", 0, 1⟩, ⟨.delimiter, "(", 1, 2⟩, oneToken, oneToken]
          .missingClosingParen k ∧
        (∀ k', FailsAfter [⟨.identifier, "f", 0, 1⟩, ⟨.delimiter, "(", 1, 2⟩, oneToken, oneToken]
          .missingClosingParen k' → k' = k) ∧
        (Error.missingClosingParen = .unexpectedEnd → k = 4) ∧
        (k = 4 → ∃ count, Accepted ([⟨.identifier, "f", 0, 1⟩, ⟨.delimiter, "(", 1, 2⟩, oneToken,
          oneToken] ++ completion .missingClosingParen count)) := by
  have h : ofTokens [⟨.identifier, "f", 0, 1⟩, ⟨.delimiter, "(", 1, 2⟩, oneToken, oneToken]
      = .error .missingClosingParen := rfl
  exact ⟨h, exists_unique_failsAfter h⟩

end SheetFormula.Grammar
