/-
  SheetFormula.Proofs.Parsing.Locality

  What a reader finds depends on the tokens that it takes up, and on one more.
  Main statement (`reading_is_local`): the tokens between the position where a
  reader begins and the one where it ends, read by themselves, come to the same;
  outside their parentheses stand no operators weaker than the floor, and the
  token behind them is no operator that could go on.

  Which operators stand outside parentheses is told by one walk over the tokens
  (`outerOperators`), which knows no expressions: an operator behind the end of
  an operand is binary, any other stands in front of an operand.  Over the
  tokens of an expression the walk comes back to the depth that it began with
  and has met operators of the expression's level only
  (`Derives.outerOperators_append`).
-/
import SheetFormula.Proofs.Parsing.Termination

namespace SheetFormula.Grammar

open SheetFormula.Expr SheetFormula.Token

/-! ## Operators outside parentheses -/

/-- The binary operators outside parentheses, where this many parentheses have been opened before
and the token before may be the end of an operand. -/
def outerOperators (depth : Nat) (behindOperand : Bool) : List Token → List BinaryOp
  | [] => []
  | t :: ts =>
    match t.kind with
    | .number | .text | .identifier => outerOperators depth true ts
    | .operator =>
      match BinaryOp.ofSymbol? t.text with
      | some op =>
        if behindOperand && depth == 0 then op :: outerOperators depth false ts
        else outerOperators depth false ts
      | none => outerOperators depth false ts
    | .delimiter =>
      if t.text = "(" then outerOperators (depth + 1) false ts
      else if t.text = ")" then outerOperators (depth - 1) true ts
      else outerOperators depth false ts

variable {depth : Nat} {t : Token}

theorem outerOperators_word (behindOperand : Bool) (ts : List Token)
    (hdelimiter : t.kind ≠ .delimiter) (hoperator : t.kind ≠ .operator) :
    outerOperators depth behindOperand (t :: ts) = outerOperators depth true ts := by
  rw [outerOperators]
  cases hkind : t.kind with
  | number | text | identifier => rfl
  | operator => exact absurd hkind hoperator
  | delimiter => exact absurd hkind hdelimiter

/-- Where no operand has ended, an operator stands in front of one. -/
theorem outerOperators_prefixed (ts : List Token) (hkind : t.kind = .operator) :
    outerOperators depth false (t :: ts) = outerOperators depth false ts := by
  rw [outerOperators, hkind]
  cases BinaryOp.ofSymbol? t.text <;> rfl

theorem outerOperators_binary {op : BinaryOp} (ts : List Token) (hkind : t.kind = .operator)
    (htext : t.text = op.symbol) :
    outerOperators depth true (t :: ts) =
      (if depth = 0 then [op] else []) ++ outerOperators depth false ts := by
  rw [outerOperators, hkind]
  simp only [htext, BinaryOp.ofSymbol?_symbol, Bool.true_and, beq_iff_eq]
  split <;> rfl

theorem outerOperators_opening (behindOperand : Bool) (ts : List Token) (h : t.isDelimiter "(") :
    outerOperators depth behindOperand (t :: ts) = outerOperators (depth + 1) false ts := by
  simp only [Token.isDelimiter, Bool.and_eq_true, beq_iff_eq] at h
  rw [outerOperators, h.1]
  simp [h.2]

theorem outerOperators_closing (behindOperand : Bool) (ts : List Token) (h : t.isDelimiter ")") :
    outerOperators (depth + 1) behindOperand (t :: ts) = outerOperators depth true ts := by
  simp only [Token.isDelimiter, Bool.and_eq_true, beq_iff_eq] at h
  rw [outerOperators, h.1]
  simp [h.2]

theorem outerOperators_comma (behindOperand : Bool) (ts : List Token) (h : t.isDelimiter ",") :
    outerOperators depth behindOperand (t :: ts) = outerOperators depth false ts := by
  simp only [Token.isDelimiter, Bool.and_eq_true, beq_iff_eq] at h
  rw [outerOperators, h.1]
  simp [h.2]

/-- There are no operators that stand both in parentheses and outside of them. -/
theorem eq_nil_of_inside {level : Nat} {ops : List BinaryOp}
    (h : ∀ op ∈ ops, depth + 1 = 0 ∧ level ≤ op.strength) : ops = [] :=
  List.eq_nil_iff_forall_not_mem.mpr fun op hop => Nat.succ_ne_zero depth (h op hop).1

mutual

/-- The walk over an expression meets operators of its level, and outside parentheses only. -/
theorem Derives.outerOperators_append {level : Nat} {ts : List Token} {e : Expr} (depth : Nat)
    (rest : List Token) :
    Derives level ts e → ∃ ops,
      outerOperators depth false (ts ++ rest) = ops ++ outerOperators depth true rest ∧
        ∀ op ∈ ops, depth = 0 ∧ level ≤ op.strength
  | .tighter _ _ h => by
      obtain ⟨ops, hops, hlevel⟩ := h.outerOperators_append depth rest
      exact ⟨ops, hops, fun op hop => (hlevel op hop).imp_right Nat.le_of_succ_le⟩
  | @Derives.binary _ t ts us _ _ _ hleft hkind hmem hright => by
      obtain ⟨op, hsymbol, hstrength, _⟩ := mem_binaryOperators.mp hmem
      obtain ⟨before, hbefore, hbeforeLevel⟩ :=
        hleft.outerOperators_append depth (t :: (us ++ rest))
      obtain ⟨behind, hbehind, hbehindLevel⟩ := hright.outerOperators_append depth rest
      -- The left operand has ended before the operator, and the right one begins behind it.
      rw [List.append_assoc, List.cons_append, hbefore,
        outerOperators_binary _ hkind hsymbol.symm, hbehind]
      refine ⟨before ++ ((if depth = 0 then [op] else []) ++ behind), by simp, ?_⟩
      intro op' hop'
      rcases List.mem_append.mp hop' with hop' | hop'
      · exact hbeforeLevel op' hop'
      rcases List.mem_append.mp hop' with hop' | hop'
      · split at hop'
        · next hdepth =>
            cases List.mem_singleton.mp hop'
            exact ⟨hdepth, Nat.le_of_eq hstrength.symm⟩
        · cases hop'
      · exact (hbehindLevel op' hop').imp_right Nat.le_of_succ_le
  | .operand h => ⟨[], h.outerOperators_append depth rest, nofun⟩

/-- The operators of an operand stand in front of it or in parentheses. -/
theorem Operand.outerOperators_append {ts : List Token} {e : Expr} (depth : Nat)
    (rest : List Token) :
    Operand ts e → outerOperators depth false (ts ++ rest) = outerOperators depth true rest
  | .unary hkind _ h => by
      rw [List.cons_append, outerOperators_prefixed _ hkind, h.outerOperators_append depth rest]
  | .number hkind _ => outerOperators_word _ _ (by simp [hkind]) (by simp [hkind])
  | .text hkind => outerOperators_word _ _ (by simp [hkind]) (by simp [hkind])
  | .trueWord hkind _ => outerOperators_word _ _ (by simp [hkind]) (by simp [hkind])
  | .falseWord hkind _ => outerOperators_word _ _ (by simp [hkind]) (by simp [hkind])
  | .var hname => outerOperators_word _ _ (by simp [hname.1]) (by simp [hname.1])
  | @Operand.call t opening closing ts _ hname hopen hargs hclose => by
      have htail : ts ++ [closing] ++ rest = ts ++ closing :: rest := by simp
      rw [List.cons_append, List.cons_append, htail,
        outerOperators_word _ _ (by simp [hname.1]) (by simp [hname.1]),
        outerOperators_opening _ _ hopen, hargs.outerOperators_append depth rest hclose]
  | @Operand.group opening closing ts _ hopen h hclose => by
      obtain ⟨ops, hops, hlevel⟩ := h.outerOperators_append (depth + 1) (closing :: rest)
      have htail : ts ++ [closing] ++ rest = ts ++ closing :: rest := by simp
      rw [List.cons_append, htail, outerOperators_opening _ _ hopen, hops,
        eq_nil_of_inside hlevel, List.nil_append, outerOperators_closing _ _ hclose]

/-- The walk over arguments meets nothing, and behind the parenthesis that closes them it is where
    it was before the parenthesis that opens them. -/
theorem Arguments.outerOperators_append {ts : List Token} {es : List Expr} {closing : Token}
    (depth : Nat) (rest : List Token) (hclose : closing.isDelimiter ")") :
    Arguments ts es →
      outerOperators (depth + 1) false (ts ++ closing :: rest) = outerOperators depth true rest
  | .none => outerOperators_closing _ _ hclose
  | @Arguments.some ts us _ _ h hmore => by
      obtain ⟨ops, hops, hlevel⟩ := h.outerOperators_append (depth + 1) (us ++ closing :: rest)
      rw [List.append_assoc, hops, eq_nil_of_inside hlevel, List.nil_append,
        hmore.outerOperators_append depth rest hclose]

theorem MoreArguments.outerOperators_append {ts : List Token} {es : List Expr} {closing : Token}
    (depth : Nat) (rest : List Token) (hclose : closing.isDelimiter ")") :
    MoreArguments ts es →
      outerOperators (depth + 1) true (ts ++ closing :: rest) = outerOperators depth true rest
  | .none => outerOperators_closing _ _ hclose
  | @MoreArguments.some comma ts us _ _ hcomma h hmore => by
      obtain ⟨ops, hops, hlevel⟩ := h.outerOperators_append (depth + 1) (us ++ closing :: rest)
      rw [List.cons_append, List.append_assoc, outerOperators_comma _ _ hcomma, hops,
        eq_nil_of_inside hlevel, List.nil_append, hmore.outerOperators_append depth rest hclose]

end

/-- On an expression by itself, the walk meets operators of its level. -/
theorem Derives.level_le_strength {level : Nat} {ts : List Token} {e : Expr}
    (h : Derives level ts e) : ∀ op ∈ outerOperators 0 false ts, level ≤ op.strength := by
  obtain ⟨ops, hops, hlevel⟩ := h.outerOperators_append 0 []
  rw [List.append_nil, outerOperators, List.append_nil] at hops
  rw [hops]
  exact fun op hop => (hlevel op hop).2

theorem Operand.outerOperators_eq_nil {ts : List Token} {e : Expr} (h : Operand ts e) :
    outerOperators 0 false ts = [] := by
  have hwalk := h.outerOperators_append 0 []
  rwa [List.append_nil, outerOperators] at hwalk

/-! ## Floors -/

/-- A floor above all operators is like any other such floor. -/
theorem expression_of_seven_le {floor : Nat} (h : 7 ≤ floor) (budget : Nat) (ts : List Token) :
    expression budget floor ts = expression budget 7 ts := by
  cases budget with
  | zero => rfl
  | succ budget =>
      rw [expression, expression]
      congr 1
      funext left rest
      cases budget with
      | zero => rfl
      | succ budget =>
          rw [operations, operations, leadingOp?_of_seven_le h,
            leadingOp?_of_seven_le (Nat.le_refl 7)]

/-- What an expression reader finds, whatever the floor: no operator outside parentheses is weaker,
    and the operator that comes next, if one does, is. -/
theorem exists_of_expression {budget floor : Nat} {ts rest : List Token} {e : Expr}
    (h : expression budget floor ts = .found e rest) :
    ∃ middle, ts = middle ++ rest ∧ Derives 1 middle e ∧
      (∀ op ∈ outerOperators 0 false middle, floor ≤ op.strength) ∧
      leadingOp? floor rest = none ∧ Unapplied middle rest := by
  rcases Nat.le_total floor 7 with hfloor | hfloor
  · obtain ⟨middle, rfl, hd, hstop, happ⟩ := (allSound budget).expression _ _ _ _ hfloor h
    refine ⟨middle, rfl, hd.of_le (Nat.le_refl 1) (Nat.le_max_left 1 floor) (by omega), ?_, hstop,
      happ⟩
    intro op hop
    exact Nat.le_trans (Nat.le_max_right 1 floor) (hd.level_le_strength op hop)
  -- No operator passes such a floor, so that the expression is an operand.
  · rw [expression_of_seven_le hfloor] at h
    obtain ⟨middle, rfl, hd, hstop, happ⟩ :=
      (allSound budget).expression _ _ _ _ (Nat.le_refl 7) h
    refine ⟨middle, rfl, hd.of_le (Nat.le_refl 1) (by decide) (Nat.le_refl 7), ?_,
      leadingOp?_eq_none_of_le hstop hfloor, happ⟩
    rw [List.nil_append] at hd
    simp [hd.operand_of_seven.outerOperators_eq_nil]

/-! ## Slices -/

/-- What stands in front of the rest of the tokens from a position on is a slice. -/
theorem exists_slice {whole middle rest : List Token} {p : Nat}
    (h : whole.drop p = middle ++ rest) (hne : middle ≠ []) :
    ∃ q, p < q ∧ From whole q rest ∧ whole.extract p q = middle := by
  have hlength := congrArg List.length h
  have hpos := List.length_pos_iff.mpr hne
  rw [List.length_drop, List.length_append] at hlength
  refine ⟨p + middle.length, by omega, ⟨by omega, ?_⟩, ?_⟩
  · rw [← List.drop_drop, h, List.drop_left]
  · rw [List.extract_eq_take_drop, h, Nat.add_sub_cancel_left, List.take_left]

/-- Tokens that are read as an operand are read as one by themselves. -/
theorem readOperand_of_operand {ts : List Token} {e : Expr} (h : Operand ts e) :
    readOperand ts = .found e [] := by
  have hread := h.readOperand_append [] (unapplied_of_afterDelimiter? rfl)
  rwa [List.append_nil] at hread

theorem ofTokens_of_operand {ts : List Token} {e : Expr} (h : Operand ts e) :
    ofTokens ts = .ok e :=
  ofTokens_of_derives (derives_of_operand h (Nat.le_refl 1) (by decide))

/-- What a reader finds at a position, it finds in the slice up to the position where it ends.  For
    an expression no operator of the slice outside parentheses is weaker than the floor, and the
    operator behind the slice, if one stands there, is; an operand has no such operators at all, and
    the arguments of a call have none outside the parentheses of the call. -/
theorem reading_is_local (whole : List Token) (p budget : Nat) :
    (∀ floor e rest, expression budget floor (whole.drop p) = .found e rest →
      ∃ q, p < q ∧ From whole q rest ∧ ofTokens (whole.extract p q) = .ok e ∧
        (∀ op ∈ outerOperators 0 false (whole.extract p q), floor ≤ op.strength) ∧
        (∀ t op, whole[q]? = some t → t.kind = .operator →
          BinaryOp.ofSymbol? t.text = some op → op.strength < floor) ∧
        Unapplied (whole.extract p q) rest) ∧
    (∀ e rest, operand budget (whole.drop p) = .found e rest →
      ∃ q, p < q ∧ From whole q rest ∧ readOperand (whole.extract p q) = .found e [] ∧
        ofTokens (whole.extract p q) = .ok e ∧ outerOperators 0 false (whole.extract p q) = [] ∧
        Unapplied (whole.extract p q) rest) ∧
    (∀ args rest, arguments budget (whole.drop p) = .found args rest →
      ∃ q, p < q ∧ From whole q rest ∧ readArguments (whole.extract p q) = .found args [] ∧
        ∀ name opening, name.IsName → opening.isDelimiter "(" →
          ofTokens (name :: opening :: whole.extract p q) = .ok (callNamed name.text args) ∧
            outerOperators 0 false (name :: opening :: whole.extract p q) = []) := by
  refine ⟨?_, ?_, ?_⟩
  · intro floor e rest h
    obtain ⟨middle, hmiddle, hd, houter, hstop, happ⟩ := exists_of_expression h
    obtain ⟨q, hpq, hrest, rfl⟩ := exists_slice hmiddle hd.ne_nil
    refine ⟨q, hpq, hrest, ofTokens_of_derives hd, houter, ?_, happ⟩
    intro t op ht hkind hop
    -- The token at `q` is the first of those that are left.
    obtain ⟨hlt, rfl⟩ := List.getElem?_eq_some_iff.mp ht
    refine Nat.lt_of_not_le fun hle => ?_
    rw [hrest.2, List.drop_eq_getElem_cons hlt,
      leadingOp?_cons _ hkind (BinaryOp.symbol_of_ofSymbol? hop).symm hle] at hstop
    cases hstop
  · intro e rest h
    obtain ⟨middle, hmiddle, hd, happ⟩ := (allSound budget).operand _ _ _ h
    obtain ⟨q, hpq, hrest, rfl⟩ := exists_slice hmiddle hd.ne_nil
    exact ⟨q, hpq, hrest, readOperand_of_operand hd, ofTokens_of_operand hd,
      hd.outerOperators_eq_nil, happ⟩
  · intro args rest h
    obtain ⟨before, closing, hbefore, hclose, hd⟩ := (allSound budget).arguments _ _ _ h
    rw [List.append_cons] at hbefore
    obtain ⟨q, hpq, hrest, hslice⟩ := exists_slice hbefore (by simp)
    refine ⟨q, hpq, hrest, ?_⟩
    rw [hslice]
    refine ⟨hd.readArguments_append [] hclose, ?_⟩
    intro name opening hname hopen
    have hcall : Operand (name :: opening :: (before ++ [closing])) (callNamed name.text args) :=
      .call hname hopen hd hclose
    exact ⟨ofTokens_of_operand hcall, hcall.outerOperators_eq_nil⟩

/-- The tokens of `a - b * -c + d`. -/
def productInSum : List Token :=
  [⟨.identifier, "a", 0, 1⟩, ⟨.operator, "-", 2, 3⟩, ⟨.identifier, "b", 4, 5⟩,
    ⟨.operator, "*", 6, 7⟩, ⟨.operator, "-", 8, 9⟩, ⟨.identifier, "c", 9, 10⟩,
    ⟨.operator, "+", 11, 12⟩, ⟨.identifier, "d", 13, 14⟩]

/-- The right operand of the first operator, whose own operators have to be stronger. -/
theorem reading_is_local_product :
    expression 18 6 (productInSum.drop 2) =
        .found (.call "__mul" [.var "b", .call "__neg" [.var "c"]]) (productInSum.drop 6) ∧
      ∃ q, 2 < q ∧ From productInSum q (productInSum.drop 6) ∧
        ofTokens (productInSum.extract 2 q) =
          .ok (.call "__mul" [.var "b", .call "__neg" [.var "c"]]) ∧
        (∀ op ∈ outerOperators 0 false (productInSum.extract 2 q), 6 ≤ op.strength) ∧
        (∀ t op, productInSum[q]? = some t → t.kind = .operator →
          BinaryOp.ofSymbol? t.text = some op → op.strength < 6) ∧
        Unapplied (productInSum.extract 2 q) (productInSum.drop 6) :=
  ⟨rfl, (reading_is_local productInSum 2 18).1 6 _ _ rfl⟩

end SheetFormula.Grammar
