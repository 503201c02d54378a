/-
  SheetFormula.Proofs.Parsing.Termination

  Why reading ends.  The readers call each other, and a call need not take up a
  token first: an expression begins with its operand, a list of arguments with
  its first one.  Such a call goes to a reader of a smaller rank, every other
  one and every round of a loop stands further on (`Calls.descends`), because a
  reader that has found something has passed a token (`Reading.Ends`).

  The budget counts the nesting of these calls: a reader uses it up exactly if
  it makes a call that uses up one unit less (`run_succ_eq_exhausted_iff`).
  Hence no chain of calls is longer than three times the number of tokens and
  two, and a budget beyond that is never used up (`reading_terminates`).
-/
import SheetFormula.Proofs.Parsing.Derivation

namespace SheetFormula

/-! ## Positions -/

namespace Token

/-- The tokens are those of the whole list from position `p` on. -/
def From (whole : List Token) (p : Nat) (ts : List Token) : Prop :=
  p ≤ whole.length ∧ ts = whole.drop p

variable {whole : List Token} {p : Nat}

theorem From.length {ts : List Token} (h : From whole p ts) : p + ts.length = whole.length := by
  obtain ⟨hp, rfl⟩ := h
  rw [List.length_drop]
  omega

theorem From.tail {t : Token} {ts : List Token} (h : From whole p (t :: ts)) :
    From whole (p + 1) ts := by
  have hlength := h.length
  refine ⟨by simp only [List.length_cons] at hlength; omega, ?_⟩
  rw [← List.drop_drop, ← h.2, List.drop_one, List.tail_cons]

end Token

open Token

namespace Reading

variable {α β : Type} {whole : List Token} {p m n : Nat}

/-- A result leaves the tokens from a position on that is at least `m`, an error those from one that
is at least `p`; neither leaves the whole list. -/
def Ends (whole : List Token) (p m : Nat) : Reading α → Prop
  | found _ rest => ∃ q, m ≤ q ∧ From whole q rest
  | failed _ rest => ∃ q, p ≤ q ∧ From whole q rest
  | exhausted => True

theorem Ends.mono {r : Reading α} {p' m' : Nat} (h : r.Ends whole p m) (hp : p' ≤ p)
    (hm : m' ≤ m) : r.Ends whole p' m' := by
  cases r with
  | found a rest =>
      obtain ⟨q, hq, hrest⟩ := h
      exact ⟨q, Nat.le_trans hm hq, hrest⟩
  | failed e rest =>
      obtain ⟨q, hq, hrest⟩ := h
      exact ⟨q, Nat.le_trans hp hq, hrest⟩
  | exhausted => exact True.intro

theorem Ends.andThen {r : Reading α} {next : α → List Token → Reading β} (h : r.Ends whole p m)
    (hnext : ∀ a q rest, m ≤ q → From whole q rest → (next a rest).Ends whole p n) :
    (r.andThen next).Ends whole p n := by
  cases r with
  | found a rest =>
      obtain ⟨q, hq, hrest⟩ := h
      exact hnext a q rest hq hrest
  | failed e rest => exact h
  | exhausted => exact True.intro

theorem Ends.map {r : Reading α} (f : α → β) (h : r.Ends whole p m) :
    (r.andThen fun a rest => found (f a) rest).Ends whole p m :=
  h.andThen fun _ q _ hq hrest => ⟨q, hq, hrest⟩

/-- Where a reading ends, whatever it has found. -/
def ending (r : Reading α) : Reading Unit := r.andThen fun _ rest => found () rest

theorem ends_ending {r : Reading α} (h : r.Ends whole p m) : r.ending.Ends whole p m :=
  h.map fun _ => ()

theorem ending_eq_exhausted_iff {r : Reading α} : r.ending = exhausted ↔ r = exhausted := by
  cases r with
  | found a rest => exact ⟨nofun, nofun⟩
  | failed e rest => exact ⟨nofun, nofun⟩
  | exhausted => exact ⟨fun _ => rfl, fun _ => rfl⟩

/-- Under any budget, a reading that settles is exhausted or the one of a sufficient budget. -/
theorem exhausted_or_eq {read : Nat → Reading α} (hstep : ∀ b, (read b).Settles (read (b + 1)))
    {sufficient : Nat} (h : read sufficient ≠ exhausted) (budget : Nat) :
    read budget = exhausted ∨ read budget = read sufficient := by
  by_cases hb : read budget = exhausted
  · exact .inl hb
  refine .inr ?_
  rcases Nat.le_total budget sufficient with hle | hle
  · exact (eq_of_settles hstep hle hb).symm
  · exact eq_of_settles hstep hle h

/-- One reading behind another runs out of budget if the first does, or the second on what the first
finds with a sufficient budget. -/
theorem andThen_eq_exhausted_iff {r r' : Reading α} {next : α → List Token → Reading β}
    (h : r = exhausted ∨ r = r') :
    r.andThen next = exhausted ↔
      r = exhausted ∨ ∃ a rest, r' = found a rest ∧ next a rest = exhausted := by
  rcases h with rfl | rfl
  · exact ⟨fun _ => .inl rfl, fun _ => rfl⟩
  · cases r with
    | found a rest =>
        simp only [andThen_found, reduceCtorEq, found.injEq, false_or]
        constructor
        · intro hnext
          exact ⟨a, rest, ⟨rfl, rfl⟩, hnext⟩
        · rintro ⟨_, _, ⟨rfl, rfl⟩, hnext⟩
          exact hnext
    | failed e rest => simp
    | exhausted => simp

end Reading

namespace Expr

open Reading Grammar

variable {whole : List Token} {p : Nat}

/-! ## Where the readers end -/

theorem from_of_afterDelimiter? {text : String} {ts rest : List Token} (h : From whole p ts)
    (hafter : afterDelimiter? text ts = some rest) : From whole (p + 1) rest := by
  obtain ⟨t, rfl, _⟩ := exists_of_afterDelimiter? hafter
  exact h.tail

theorem from_of_leadingOp? {floor : Nat} {op : BinaryOp} {ts rest : List Token}
    (h : From whole p ts) (hop : leadingOp? floor ts = some (op, rest)) :
    From whole (p + 1) rest := by
  obtain ⟨t, rfl, _⟩ := exists_of_leadingOp? hop
  exact h.tail

theorem ends_closed {α : Type} (a : α) {ts : List Token} (h : From whole p ts) :
    (closed a ts).Ends whole p (p + 1) := by
  unfold closed
  split
  · next rest hafter => exact ⟨p + 1, Nat.le_refl _, from_of_afterDelimiter? h hafter⟩
  · exact ⟨p, Nat.le_refl _, h⟩

/-- A reader that stands at a position ends there or further on, and further on if it finds
    something; only the loop over operators may find its left operand without going on. -/
structure AllEnd (whole : List Token) (budget : Nat) : Prop where
  expression : ∀ floor p ts, From whole p ts →
    (expression budget floor ts).Ends whole p (p + 1)
  operations : ∀ floor left p ts, From whole p ts →
    (operations budget floor left ts).Ends whole p p
  operand : ∀ p ts, From whole p ts → (operand budget ts).Ends whole p (p + 1)
  arguments : ∀ p ts, From whole p ts → (arguments budget ts).Ends whole p (p + 1)
  moreArguments : ∀ p ts, From whole p ts → (moreArguments budget ts).Ends whole p (p + 1)

theorem allEnd_zero (whole : List Token) : AllEnd whole 0 where
  expression _ _ _ _ := True.intro
  operations _ _ _ _ _ := True.intro
  operand _ _ _ := True.intro
  arguments _ _ _ := True.intro
  moreArguments _ _ _ := True.intro

theorem ends_operand_succ {budget : Nat} (h : AllEnd whole budget) (p : Nat) (ts : List Token)
    (hfrom : From whole p ts) : (operand (budget + 1) ts).Ends whole p (p + 1) := by
  cases ts with
  | nil => exact ⟨p, Nat.le_refl _, hfrom⟩
  | cons t ts =>
      -- The first token is passed before anything is decided, so that errors stand behind it, too.
      have htail := hfrom.tail
      have hfound (e : Expr) : (found e ts).Ends whole p (p + 1) := ⟨p + 1, Nat.le_refl _, htail⟩
      have hfailed (error : Error) : (failed error ts : Reading Expr).Ends whole p (p + 1) :=
        ⟨p + 1, Nat.le_succ p, htail⟩
      rw [operand]
      split
      · split
        · next op _ =>
            exact ((h.operand (p + 1) ts htail).map op.apply).mono (by omega) (by omega)
        · exact hfailed _
      · split
        · exact hfound _
        · exact hfailed _
      · exact hfound _
      · split
        · exact hfound _
        · split
          · exact hfound _
          · split
            · next rest hafter =>
                have hargs := h.arguments (p + 2) rest (from_of_afterDelimiter? htail hafter)
                exact (hargs.map (callNamed t.text)).mono (by omega) (by omega)
            · exact hfound _
      · split
        · refine ((h.expression 0 (p + 1) ts htail).mono (Nat.le_succ p) (Nat.le_refl _)).andThen ?_
          intro e q rest hq hrest
          exact (ends_closed e hrest).mono (by omega) (by omega)
        · exact hfailed _

theorem allEnd_succ {budget : Nat} (h : AllEnd whole budget) : AllEnd whole (budget + 1) where
  expression := by
    intro floor p ts hfrom
    rw [Expr.expression]
    refine (h.operand p ts hfrom).andThen fun left q rest hq hrest => ?_
    exact (h.operations floor left q rest hrest).mono (by omega) hq
  operations := by
    intro floor left p ts hfrom
    rw [Expr.operations]
    split
    -- Without an operator to go on with, nothing is passed.
    · exact ⟨p, Nat.le_refl _, hfrom⟩
    · next op rest hop =>
        have hright := h.expression (op.strength + 1) (p + 1) rest (from_of_leadingOp? hfrom hop)
        refine (hright.mono (Nat.le_succ p) (Nat.le_refl _)).andThen fun right q rest hq hrest => ?_
        exact (h.operations floor _ q rest hrest).mono (by omega) (by omega)
  operand := ends_operand_succ h
  arguments := by
    intro p ts hfrom
    rw [Expr.arguments]
    split
    · next rest hafter => exact ⟨p + 1, Nat.le_refl _, from_of_afterDelimiter? hfrom hafter⟩
    · refine (h.expression 0 p ts hfrom).andThen fun e q rest hq hrest => ?_
      exact ((h.moreArguments q rest hrest).map (e :: ·)).mono (by omega) (by omega)
  moreArguments := by
    intro p ts hfrom
    rw [Expr.moreArguments]
    split
    · next rest hafter =>
        have harg := h.expression 0 (p + 1) rest (from_of_afterDelimiter? hfrom hafter)
        refine (harg.mono (Nat.le_succ p) (Nat.le_refl _)).andThen fun e q rest hq hrest => ?_
        exact ((h.moreArguments q rest hrest).map (e :: ·)).mono (by omega) (by omega)
    · exact ends_closed [] hfrom

theorem allEnd (whole : List Token) (budget : Nat) : AllEnd whole budget := by
  induction budget with
  | zero => exact allEnd_zero whole
  | succ budget ih => exact allEnd_succ ih

/-! ## Calls -/

/-- A call of one of the readers, with what it is given; a round of a loop counts as a call. -/
inductive Entry where
  | expression (floor : Nat) (ts : List Token)
  | operations (floor : Nat) (left : Expr) (ts : List Token)
  | operand (ts : List Token)
  | arguments (ts : List Token)
  | moreArguments (ts : List Token)

namespace Entry

/-- The tokens that the reader is given. -/
def tokens : Entry → List Token
  | expression _ ts | operations _ _ ts | operand ts | arguments ts | moreArguments ts => ts

/-- Readers call readers of a smaller rank without taking up a token, and no others. -/
def rank : Entry → Nat
  | operand _ | operations _ _ _ | moreArguments _ => 0
  | expression _ _ => 1
  | arguments _ => 2

/-- The least number of tokens that a result takes up. -/
def minimum : Entry → Nat
  | operations _ _ _ => 0
  | expression _ _ | operand _ | arguments _ | moreArguments _ => 1

/-- Where the reader ends within a budget. -/
def run (budget : Nat) : Entry → Reading Unit
  | expression floor ts => (Expr.expression budget floor ts).ending
  | operations floor left ts => (Expr.operations budget floor left ts).ending
  | operand ts => (Expr.operand budget ts).ending
  | arguments ts => (Expr.arguments budget ts).ending
  | moreArguments ts => (Expr.moreArguments budget ts).ending

/-- The first reader calls the second one, or goes on to it as the next round of its loop, with what
the readers that it called before have found. -/
inductive Calls : Entry → Entry → Prop
  | leftOperand (floor : Nat) (ts : List Token) : Calls (expression floor ts) (operand ts)
  | operatorLoop {floor : Nat} {left : Expr} {ts rest : List Token} :
      readOperand ts = .found left rest → Calls (expression floor ts) (operations floor left rest)
  | rightOperand {floor : Nat} {left : Expr} {op : BinaryOp} {ts rest : List Token} :
      leadingOp? floor ts = some (op, rest) →
      Calls (operations floor left ts) (expression (op.strength + 1) rest)
  | nextOperation {floor : Nat} {left right : Expr} {op : BinaryOp} {ts rest behind : List Token} :
      leadingOp? floor ts = some (op, rest) →
      readExpression (op.strength + 1) rest = .found right behind →
      Calls (operations floor left ts) (operations floor (op.apply left right) behind)
  | prefixed {t : Token} {op : UnaryOp} {ts : List Token} :
      t.kind = .operator → UnaryOp.ofSymbol? t.text = some op →
      Calls (operand (t :: ts)) (operand ts)
  | applied {t : Token} {ts rest : List Token} :
      t.IsName → afterDelimiter? "(" ts = some rest → Calls (operand (t :: ts)) (arguments rest)
  | enclosed {t : Token} {ts : List Token} :
      t.isDelimiter "(" → Calls (operand (t :: ts)) (expression 0 ts)
  | firstArgument {ts : List Token} :
      afterDelimiter? ")" ts = none → Calls (arguments ts) (expression 0 ts)
  | argumentLoop {e : Expr} {ts rest : List Token} :
      afterDelimiter? ")" ts = none → readExpression 0 ts = .found e rest →
      Calls (arguments ts) (moreArguments rest)
  | laterArgument {ts rest : List Token} :
      afterDelimiter? "," ts = some rest → Calls (moreArguments ts) (expression 0 rest)
  | nextArgument {e : Expr} {ts rest behind : List Token} :
      afterDelimiter? "," ts = some rest → readExpression 0 rest = .found e behind →
      Calls (moreArguments ts) (moreArguments behind)

theorem rank_le_two (c : Entry) : c.rank ≤ 2 := by
  cases c <;> simp [rank]

theorem ends_run {c : Entry} (budget : Nat) (h : From whole p c.tokens) :
    (c.run budget).Ends whole p (p + c.minimum) := by
  cases c with
  | expression floor ts => exact ends_ending ((allEnd whole budget).expression floor p ts h)
  | operations floor left ts =>
      exact ends_ending ((allEnd whole budget).operations floor left p ts h)
  | operand ts => exact ends_ending ((allEnd whole budget).operand p ts h)
  | arguments ts => exact ends_ending ((allEnd whole budget).arguments p ts h)
  | moreArguments ts => exact ends_ending ((allEnd whole budget).moreArguments p ts h)

/-! ## Calls descend -/

theorem exists_from_of_readOperand {ts rest : List Token} {e : Expr} (h : From whole p ts)
    (hread : readOperand ts = .found e rest) : ∃ q, p < q ∧ From whole q rest := by
  have hends := (allEnd whole (2 * ts.length + 1)).operand p ts h
  rw [readOperand] at hread
  rw [hread] at hends
  exact hends

theorem exists_from_of_readExpression {floor : Nat} {ts rest : List Token} {e : Expr}
    (h : From whole p ts) (hread : readExpression floor ts = .found e rest) :
    ∃ q, p < q ∧ From whole q rest := by
  have hends := (allEnd whole (sufficientBudget ts.length)).expression floor p ts h
  rw [readExpression] at hread
  rw [hread] at hends
  exact hends

/-- The reader that is called stands further on, or it has a smaller rank. -/
theorem Calls.descends {c d : Entry} (h : Calls c d) (hfrom : From whole p c.tokens) :
    ∃ q, From whole q d.tokens ∧ (p < q ∨ p = q ∧ d.rank < c.rank) := by
  -- Only an expression's operand and a call's first argument begin where their reader stands.
  cases h with
  | leftOperand floor ts => exact ⟨p, hfrom, .inr ⟨rfl, Nat.zero_lt_one⟩⟩
  | operatorLoop hread =>
      obtain ⟨q, hq, hrest⟩ := exists_from_of_readOperand hfrom hread
      exact ⟨q, hrest, .inl hq⟩
  | rightOperand hop => exact ⟨p + 1, from_of_leadingOp? hfrom hop, .inl (Nat.lt_succ_self p)⟩
  | nextOperation hop hread =>
      obtain ⟨q, hq, hrest⟩ := exists_from_of_readExpression (from_of_leadingOp? hfrom hop) hread
      exact ⟨q, hrest, .inl (Nat.lt_of_succ_lt hq)⟩
  | prefixed _ _ => exact ⟨p + 1, hfrom.tail, .inl (Nat.lt_succ_self p)⟩
  | applied _ hafter =>
      exact ⟨p + 2, from_of_afterDelimiter? hfrom.tail hafter, .inl (by omega)⟩
  | enclosed _ => exact ⟨p + 1, hfrom.tail, .inl (Nat.lt_succ_self p)⟩
  | firstArgument _ => exact ⟨p, hfrom, .inr ⟨rfl, Nat.lt_succ_self 1⟩⟩
  | argumentLoop _ hread =>
      obtain ⟨q, hq, hrest⟩ := exists_from_of_readExpression hfrom hread
      exact ⟨q, hrest, .inl hq⟩
  | laterArgument hafter =>
      exact ⟨p + 1, from_of_afterDelimiter? hfrom hafter, .inl (Nat.lt_succ_self p)⟩
  | nextArgument hafter hread =>
      obtain ⟨q, hq, hrest⟩ :=
        exists_from_of_readExpression (from_of_afterDelimiter? hfrom hafter) hread
      exact ⟨q, hrest, .inl (Nat.lt_of_succ_lt hq)⟩

/-- Tokens count three times as much as ranks, of which there are three. -/
theorem Calls.measure_lt {c d : Entry} (h : Calls c d) :
    3 * d.tokens.length + d.rank < 3 * c.tokens.length + c.rank := by
  have hfrom : From c.tokens 0 c.tokens := ⟨Nat.zero_le _, rfl⟩
  obtain ⟨q, hd, hq⟩ := h.descends hfrom
  have hlength := hd.length
  have hrank := d.rank_le_two
  omega

/-! ## The budget counts nested calls -/

theorem exhausted_or_read_operand (budget : Nat) (ts : List Token) :
    Expr.operand budget ts = .exhausted ∨ Expr.operand budget ts = readOperand ts :=
  exhausted_or_eq (fun b => (allSettle b).operand ts) (within_readOperand ts).ne_exhausted budget

theorem exhausted_or_read_expression (budget floor : Nat) (ts : List Token) :
    Expr.expression budget floor ts = .exhausted ∨
      Expr.expression budget floor ts = readExpression floor ts :=
  exhausted_or_eq (fun b => (allSettle b).expression floor ts)
    (within_readExpression floor ts).ne_exhausted budget

/-- What comes of a found value does not use up a budget. -/
theorem map_eq_exhausted_iff {α β : Type} {r : Reading α} (f : α → β) :
    (r.andThen fun a rest => .found (f a) rest) = .exhausted ↔ r = .exhausted := by
  cases r <;> simp

theorem closed_ne_exhausted {α : Type} (a : α) (ts : List Token) :
    closed a ts ≠ .exhausted :=
  (within_closed a ts).ne_exhausted

theorem andThen_closed_eq_exhausted_iff {α : Type} {r : Reading α} :
    r.andThen closed = .exhausted ↔ r = .exhausted := by
  cases r <;> simp [closed_ne_exhausted]

/-- An operand runs out of budget in the operand behind its prefix operator, in its arguments or in
    its parentheses; the other operands are single tokens. -/
theorem operand_succ_eq_exhausted_iff (budget : Nat) (ts : List Token) :
    Expr.operand (budget + 1) ts = .exhausted ↔
      ∃ d, Calls (operand ts) d ∧ d.run budget = .exhausted := by
  constructor
  · intro h
    cases ts with
    | nil => cases h
    | cons t ts =>
        rw [Expr.operand] at h
        split at h
        · next hkind =>
            split at h
            · next op hop =>
                rw [map_eq_exhausted_iff] at h
                exact ⟨_, .prefixed hkind hop, ending_eq_exhausted_iff.mpr h⟩
            · cases h
        · split at h <;> cases h
        · cases h
        · next hkind =>
            split at h
            · cases h
            · next htrue =>
                split at h
                · cases h
                · next hfalse =>
                    split at h
                    · next rest hafter =>
                        rw [map_eq_exhausted_iff] at h
                        exact ⟨_, .applied ⟨hkind, htrue, hfalse⟩ hafter,
                          ending_eq_exhausted_iff.mpr h⟩
                    · cases h
        · next hkind =>
            split at h
            · next htext =>
                rw [andThen_closed_eq_exhausted_iff] at h
                have hopen : t.isDelimiter "(" := by simp [Token.isDelimiter, hkind, htext]
                exact ⟨_, .enclosed hopen, ending_eq_exhausted_iff.mpr h⟩
            · cases h
  · rintro ⟨d, hd, h⟩
    cases hd with
    | prefixed hkind hop =>
        rw [Expr.operand, hkind]
        simp only [hop, ending_eq_exhausted_iff.mp h, andThen_exhausted]
    | applied hname hafter =>
        rw [Expr.operand, hname.1]
        simp only [hname.2.1, hname.2.2, if_false, hafter, ending_eq_exhausted_iff.mp h,
          andThen_exhausted]
    | enclosed hopen =>
        simp only [Token.isDelimiter, Bool.and_eq_true, beq_iff_eq] at hopen
        rw [Expr.operand, hopen.1]
        simp only [hopen.2, if_true, ending_eq_exhausted_iff.mp h, andThen_exhausted]

theorem expression_succ_eq_exhausted_iff (budget floor : Nat) (ts : List Token) :
    Expr.expression (budget + 1) floor ts = .exhausted ↔
      ∃ d, Calls (expression floor ts) d ∧ d.run budget = .exhausted := by
  rw [Expr.expression, andThen_eq_exhausted_iff (exhausted_or_read_operand budget ts)]
  constructor
  · rintro (h | ⟨left, rest, hread, h⟩)
    · exact ⟨_, .leftOperand floor ts, ending_eq_exhausted_iff.mpr h⟩
    · exact ⟨_, .operatorLoop hread, ending_eq_exhausted_iff.mpr h⟩
  · rintro ⟨d, hd, h⟩
    cases hd with
    | leftOperand _ _ => exact .inl (ending_eq_exhausted_iff.mp h)
    | operatorLoop hread => exact .inr ⟨_, _, hread, ending_eq_exhausted_iff.mp h⟩

theorem operations_succ_eq_exhausted_iff (budget floor : Nat) (left : Expr) (ts : List Token) :
    Expr.operations (budget + 1) floor left ts = .exhausted ↔
      ∃ d, Calls (operations floor left ts) d ∧ d.run budget = .exhausted := by
  rw [Expr.operations]
  cases hop : leadingOp? floor ts with
  | none =>
      constructor
      · intro h
        cases h
      · rintro ⟨d, hd, h⟩
        cases hd with
        | rightOperand hop' | nextOperation hop' _ =>
            rw [hop] at hop'
            cases hop'
  | some next =>
      obtain ⟨op, behind⟩ := next
      simp only
      rw [andThen_eq_exhausted_iff (exhausted_or_read_expression budget _ behind)]
      constructor
      · rintro (h | ⟨right, rest, hread, h⟩)
        · exact ⟨_, .rightOperand hop, ending_eq_exhausted_iff.mpr h⟩
        · exact ⟨_, .nextOperation hop hread, ending_eq_exhausted_iff.mpr h⟩
      · rintro ⟨d, hd, h⟩
        cases hd with
        | rightOperand hop' =>
            rw [hop] at hop'
            cases hop'
            exact .inl (ending_eq_exhausted_iff.mp h)
        | nextOperation hop' hread =>
            rw [hop] at hop'
            cases hop'
            exact .inr ⟨_, _, hread, ending_eq_exhausted_iff.mp h⟩

theorem arguments_succ_eq_exhausted_iff (budget : Nat) (ts : List Token) :
    Expr.arguments (budget + 1) ts = .exhausted ↔
      ∃ d, Calls (arguments ts) d ∧ d.run budget = .exhausted := by
  rw [Expr.arguments]
  cases hafter : afterDelimiter? ")" ts with
  | some rest =>
      constructor
      · intro h
        cases h
      · rintro ⟨d, hd, h⟩
        cases hd with
        | firstArgument hafter' | argumentLoop hafter' _ =>
            rw [hafter] at hafter'
            cases hafter'
  | none =>
      simp only
      rw [andThen_eq_exhausted_iff (exhausted_or_read_expression budget 0 ts)]
      simp only [map_eq_exhausted_iff]
      constructor
      · rintro (h | ⟨e, rest, hread, h⟩)
        · exact ⟨_, .firstArgument hafter, ending_eq_exhausted_iff.mpr h⟩
        · exact ⟨_, .argumentLoop hafter hread, ending_eq_exhausted_iff.mpr h⟩
      · rintro ⟨d, hd, h⟩
        cases hd with
        | firstArgument _ => exact .inl (ending_eq_exhausted_iff.mp h)
        | argumentLoop _ hread => exact .inr ⟨_, _, hread, ending_eq_exhausted_iff.mp h⟩

theorem moreArguments_succ_eq_exhausted_iff (budget : Nat) (ts : List Token) :
    Expr.moreArguments (budget + 1) ts = .exhausted ↔
      ∃ d, Calls (moreArguments ts) d ∧ d.run budget = .exhausted := by
  rw [Expr.moreArguments]
  cases hafter : afterDelimiter? "," ts with
  | none =>
      simp only [closed_ne_exhausted, false_iff]
      rintro ⟨d, hd, h⟩
      cases hd with
      | laterArgument hafter' | nextArgument hafter' _ =>
          rw [hafter] at hafter'
          cases hafter'
  | some behind =>
      simp only
      rw [andThen_eq_exhausted_iff (exhausted_or_read_expression budget 0 behind)]
      simp only [map_eq_exhausted_iff]
      constructor
      · rintro (h | ⟨e, rest, hread, h⟩)
        · exact ⟨_, .laterArgument hafter, ending_eq_exhausted_iff.mpr h⟩
        · exact ⟨_, .nextArgument hafter hread, ending_eq_exhausted_iff.mpr h⟩
      · rintro ⟨d, hd, h⟩
        cases hd with
        | laterArgument hafter' =>
            rw [hafter] at hafter'
            cases hafter'
            exact .inl (ending_eq_exhausted_iff.mp h)
        | nextArgument hafter' hread =>
            rw [hafter] at hafter'
            cases hafter'
            exact .inr ⟨_, _, hread, ending_eq_exhausted_iff.mp h⟩

/-- A reader uses up its budget exactly if it calls one that uses up one unit less. -/
theorem run_succ_eq_exhausted_iff (budget : Nat) (c : Entry) :
    c.run (budget + 1) = .exhausted ↔ ∃ d, c.Calls d ∧ d.run budget = .exhausted := by
  cases c with
  | expression floor ts =>
      exact ending_eq_exhausted_iff.trans (expression_succ_eq_exhausted_iff budget floor ts)
  | operations floor left ts =>
      exact ending_eq_exhausted_iff.trans (operations_succ_eq_exhausted_iff budget floor left ts)
  | operand ts => exact ending_eq_exhausted_iff.trans (operand_succ_eq_exhausted_iff budget ts)
  | arguments ts => exact ending_eq_exhausted_iff.trans (arguments_succ_eq_exhausted_iff budget ts)
  | moreArguments ts =>
      exact ending_eq_exhausted_iff.trans (moreArguments_succ_eq_exhausted_iff budget ts)

/-- No budget beyond the measure is used up, for the measure drops with every nested call. -/
theorem run_ne_exhausted {budget : Nat} {c : Entry}
    (h : 3 * c.tokens.length + c.rank < budget) : c.run budget ≠ .exhausted := by
  induction budget generalizing c with
  | zero => omega
  | succ budget ih =>
      intro hexhausted
      obtain ⟨d, hcalls, hd⟩ := (run_succ_eq_exhausted_iff budget c).mp hexhausted
      have hlt := hcalls.measure_lt
      exact ih (by omega) hd

/-- Whatever tokens a reader stands before, it ends: what it finds takes up a token, unless it is
    the loop over operators, and neither a result nor an error leaves the list; every call that it makes
    stands further on or has a smaller rank; the budget is the depth of these calls; and a budget
    linear in the number of tokens is never used up, such as the one for whole formulas. -/
theorem reading_terminates {c : Entry} (hfrom : From whole p c.tokens) :
    (∀ budget rest, c.run budget = .found () rest →
      ∃ q, p + c.minimum ≤ q ∧ From whole q rest) ∧
    (∀ budget error rest, c.run budget = .failed error rest → ∃ q, p ≤ q ∧ From whole q rest) ∧
    (∀ d, c.Calls d → ∃ q, From whole q d.tokens ∧ (p < q ∨ p = q ∧ d.rank < c.rank)) ∧
    (c.run 0 = .exhausted ∧ ∀ budget,
      c.run (budget + 1) = .exhausted ↔ ∃ d, c.Calls d ∧ d.run budget = .exhausted) ∧
    (∀ budget, 3 * whole.length + 3 ≤ budget → c.run budget ≠ .exhausted) ∧
    Expr.expression (sufficientBudget whole.length) 0 whole ≠ .exhausted := by
  refine ⟨?_, ?_, fun d hd => hd.descends hfrom, ⟨?_, fun budget => ?_⟩, ?_, ?_⟩
  · intro budget rest h
    have hends := ends_run budget hfrom
    rw [h] at hends
    exact hends
  · intro budget error rest h
    have hends := ends_run budget hfrom
    rw [h] at hends
    exact hends
  · cases c <;> rfl
  · exact run_succ_eq_exhausted_iff budget c
  · intro budget hbudget
    have hlength := hfrom.length
    have hrank := c.rank_le_two
    exact run_ne_exhausted (by omega)
  · exact expression_ne_exhausted 0 whole

/-- Behind `f(` a second parenthesis opens and nothing follows. -/
theorem reading_terminates_unclosed :
    From [⟨.identifier, "f", 0, 1⟩, ⟨.delimiter, "(", 1, 2⟩, ⟨.delimiter, "(", 2, 3⟩] 2
        (arguments [⟨.delimiter, "(", 2, 3⟩]).tokens ∧
      (arguments [⟨.delimiter, "(", 2, 3⟩]).run 12 ≠ .exhausted := by
  have hfrom : From [⟨.identifier, "f", 0, 1⟩, ⟨.delimiter, "(", 1, 2⟩, ⟨.delimiter, "(", 2, 3⟩] 2
      (arguments [⟨.delimiter, "(", 2, 3⟩]).tokens := ⟨by decide, rfl⟩
  exact ⟨hfrom, (reading_terminates hfrom).2.2.2.2.1 12 (Nat.le_refl 12)⟩

end Entry

end Expr

end SheetFormula
