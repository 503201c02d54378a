/-
  SheetFormula.Proofs.Parsing.Vocabulary

  The names and numbers that formulas can bring into expressions.  Only symbols
  of operators bring in names that begin with two underscores, and they bring
  the right number of arguments along; words begin with a letter, and a number
  is at least zero.  Main statement: so it is with every part of a parsed
  formula (`everyPart_spellable_of_parse`).
-/
import SheetFormula.FunctionTable
import SheetFormula.Proofs.Expressions.Parts
import SheetFormula.Proofs.Numbers.Magnitudes
import SheetFormula.Proofs.Parsing.Derivation
import SheetFormula.Proofs.Printing.Printer
import SheetFormula.Proofs.Texts.Ascii
import SheetFormula.Proofs.Tokens.Spans

namespace SheetFormula

/-! ## Tokens are spelled as their kinds are -/

namespace Token

/-- A number begins with a digit or a point. -/
theorem WellSpelled.exists_of_number {t : Token} (h : t.WellSpelled) (hkind : t.kind = .number) :
    ∃ c cs, t.text.toList = c :: cs ∧ (c.isDigit = true ∨ c = '.') := by
  obtain ⟨after, hmaximal⟩ := h
  rw [source_eq_text (by simp [hkind]), hkind] at hmaximal
  generalize t.text.toList = spelling at hmaximal
  cases hmaximal with
  | whole hne hdigits =>
      obtain ⟨c, cs, rfl⟩ := List.exists_cons_of_ne_nil hne
      exact ⟨c, cs, rfl, .inl (hdigits c List.mem_cons_self)⟩
  | @fraction whole digits _ hwhole =>
      cases whole with
      | nil => exact ⟨_, _, rfl, .inr rfl⟩
      | cons c cs => exact ⟨c, _, rfl, .inl (hwhole c List.mem_cons_self)⟩

/-- A word is a letter with letters, digits and underscores. -/
theorem WellSpelled.exists_of_identifier {t : Token} (h : t.WellSpelled)
    (hkind : t.kind = .identifier) :
    ∃ c cs, t.text.toList = c :: cs ∧ c.isAlpha = true ∧ ∀ d ∈ cs, Lexeme.isNameChar d = true := by
  obtain ⟨after, hmaximal⟩ := h
  rw [source_eq_text (by simp [hkind]), hkind] at hmaximal
  generalize t.text.toList = spelling at hmaximal
  cases hmaximal with
  | identifier hc hcs _ => exact ⟨_, _, rfl, hc, hcs⟩

end Token

/-! ## Names -/

/-- A character that can stand in the name of a called function after the first. -/
def isCallChar (c : Char) : Bool := c.isLower || c.isDigit || c == '_'

/-- A small letter with small letters, digits and underscores. -/
def isCallName (name : String) : Bool :=
  match name.toList with
  | [] => false
  | c :: cs => c.isLower && cs.all isCallChar

theorem exists_of_isCallName {name : String} (h : isCallName name = true) :
    ∃ c cs, name.toList = c :: cs ∧ c.isLower = true ∧ ∀ d ∈ cs, isCallChar d = true := by
  unfold isCallName at h
  split at h
  · cases h
  · next c cs hname =>
    rw [Bool.and_eq_true, List.all_eq_true] at h
    exact ⟨c, cs, hname, h.1, h.2⟩

/-- No operator's function has the name of a call. -/
theorem isReservedName_of_isCallName {name : String} (h : isCallName name = true) :
    isReservedName name = false := by
  obtain ⟨c, cs, hname, hc, -⟩ := exists_of_isCallName h
  have hunder : '_' ≠ c := by
    rintro rfl
    exact absurd hc (by decide)
  rw [isReservedName, hname, List.isPrefixOf_cons_cons, beq_false_of_ne hunder, Bool.false_and]

/-- The name of a call is in small letters already. -/
theorem lower_of_isCallName {name : String} (h : isCallName name = true) :
    Text.lower name = name := by
  obtain ⟨c, cs, hname, hc, hcs⟩ := exists_of_isCallName h
  refine Text.lower_of_smallChars fun d hd => ?_
  rw [hname, List.mem_cons] at hd
  rcases hd with rfl | hd
  · rw [hc, Bool.true_or, Bool.true_or]
  · exact hcs d hd

theorem isCallChar_toLower {c : Char} (h : Lexeme.isNameChar c = true) :
    isCallChar c.toLower = true := by
  simp only [Lexeme.isNameChar, Char.isAlphanum, Bool.or_eq_true, beq_iff_eq] at h
  rcases h with (halpha | hdigit) | rfl
  · simp [isCallChar, Text.isLower_toLower halpha]
  · simp [isCallChar, Numeral.toLower_of_isDigit hdigit, hdigit]
  · decide

theorem toNat_lt_of_isNameChar {c : Char} (h : Lexeme.isNameChar c = true) : c.toNat < 128 := by
  simp only [Lexeme.isNameChar, Char.isAlphanum, Bool.or_eq_true, beq_iff_eq] at h
  rcases h with (halpha | hdigit) | rfl
  · have := Text.toNat_of_isAlpha halpha
    omega
  · have := Text.toNat_of_isDigit hdigit
    omega
  · decide

/-- The characters of a word are below those with marks. -/
theorem toNat_lt_of_word {c : Char} {cs : List Char} (hc : c.isAlpha = true)
    (hcs : ∀ d ∈ cs, Lexeme.isNameChar d = true) : ∀ d ∈ c :: cs, d.toNat < 128 := by
  intro d hd
  rcases List.mem_cons.mp hd with rfl | hd
  · exact toNat_lt_of_isNameChar (by simp [Lexeme.isNameChar, Char.isAlphanum, hc])
  · exact toNat_lt_of_isNameChar (hcs d hd)

/-- In small letters a word is the name of a call. -/
theorem isCallName_lower {s : String} {c : Char} {cs : List Char} (hs : s.toList = c :: cs)
    (hc : c.isAlpha = true) (hcs : ∀ d ∈ cs, Lexeme.isNameChar d = true) :
    isCallName (Text.lower s) = true := by
  have hascii : ∀ d ∈ s.toList, d.toNat < 128 := hs ▸ toNat_lt_of_word hc hcs
  have hrest : (cs.map Char.toLower).all isCallChar = true := by
    rw [List.all_map, List.all_eq_true]
    exact fun d hd => isCallChar_toLower (hcs d hd)
  rw [Text.lower_of_ascii hascii, hs, isCallName, String.toList_ofList, List.map_cons]
  exact Bool.and_eq_true_iff.mpr ⟨Text.isLower_toLower hc, hrest⟩

/-! ## Operators -/

/-- The functions of the operators, each with the number of operands. -/
def operandCounts : List (String × Nat) :=
  BinaryOp.all.map (·.function, 2) ++ UnaryOp.all.map (·.function, 1)

theorem isReservedName_of_mem_operandCounts :
    ∀ p ∈ operandCounts, isReservedName p.1 = true := by
  decide +kernel

theorem mem_operandCounts_binary (op : BinaryOp) : (op.function, 2) ∈ operandCounts :=
  List.mem_append_left _ (List.mem_map_of_mem op.mem_all)

theorem mem_operandCounts_unary (op : UnaryOp) : (op.function, 1) ∈ operandCounts :=
  List.mem_append_right _ (List.mem_map_of_mem op.mem_all)

/-! ## Expressions -/

namespace Expr

/-- A formula can spell the root of the expression. -/
def Spellable : Expr → Prop
  | number x => Binary64.IsMagnitude x
  | text _ | bool _ => True
  | var name => isVariableName name = true
  | call f args =>
    if isReservedName f then (f, args.length) ∈ operandCounts else isCallName f = true

theorem spellable_operator {f : String} {args : List Expr}
    (h : (f, args.length) ∈ operandCounts) : (call f args).Spellable := by
  rw [Spellable, if_pos (isReservedName_of_mem_operandCounts _ h)]
  exact h

theorem spellable_number {t : Token} {x : Float} (ht : t.WellSpelled) (hkind : t.kind = .number)
    (hx : Numeral.literal? t.text.toList = some x) : (number x).Spellable := by
  obtain ⟨c, cs, htext, hc⟩ := ht.exists_of_number hkind
  rw [htext] at hx
  exact Numeral.isMagnitude_of_literal? hc hx

theorem spellable_var {t : Token} (ht : t.WellSpelled) (hname : t.IsName) :
    (var t.text).Spellable := by
  obtain ⟨hkind, htrue, hfalse⟩ := hname
  obtain ⟨c, cs, htext, hc, hcs⟩ := ht.exists_of_identifier hkind
  simp [Spellable, isVariableName, isWord, htext, hc, htrue, hfalse]
  exact hcs

theorem spellable_call {t : Token} {args : List Expr} (ht : t.WellSpelled) (hname : t.IsName) :
    (call (Text.lower t.text) args).Spellable := by
  obtain ⟨c, cs, htext, hc, hcs⟩ := ht.exists_of_identifier hname.1
  have hcall := isCallName_lower htext hc hcs
  rw [Spellable, isReservedName_of_isCallName hcall]
  exact hcall

end Expr

namespace Grammar

mutual

theorem Derives.everyPart_spellable {level : Nat} {ts : List Token} {e : Expr} :
    Derives level ts e → (∀ t ∈ ts, t.WellSpelled) → e.EveryPart Expr.Spellable
  | .tighter _ _ h, hts => h.everyPart_spellable hts
  | .binary hleft _ hmem hright, hts => by
      obtain ⟨op, -, -, rfl⟩ := mem_binaryOperators.mp hmem
      have hl := hleft.everyPart_spellable fun t ht => hts t (by simp [ht])
      have hr := hright.everyPart_spellable fun t ht => hts t (by simp [ht])
      exact .call (Expr.spellable_operator (mem_operandCounts_binary op)) (by simp [hl, hr])
  | .operand h, hts => h.everyPart_spellable hts

theorem Operand.everyPart_spellable {ts : List Token} {e : Expr} :
    Operand ts e → (∀ t ∈ ts, t.WellSpelled) → e.EveryPart Expr.Spellable
  | .unary _ hmem h, hts => by
      obtain ⟨op, -, rfl⟩ := mem_unaryOperators.mp hmem
      have he := h.everyPart_spellable fun t ht => hts t (by simp [ht])
      exact .call (Expr.spellable_operator (mem_operandCounts_unary op)) (by simp [he])
  | .number hkind hx, hts =>
      .leaf (by simp) (Expr.spellable_number (hts _ List.mem_cons_self) hkind hx)
  | .text _, _ => .leaf (by simp) trivial
  | .trueWord _ _, _ => .leaf (by simp) trivial
  | .falseWord _ _, _ => .leaf (by simp) trivial
  | .var hname, hts => .leaf (by simp) (Expr.spellable_var (hts _ List.mem_cons_self) hname)
  | .call hname _ hargs _, hts =>
      .call (Expr.spellable_call (hts _ List.mem_cons_self) hname)
        (hargs.everyPart_spellable fun t ht => hts t (by simp [ht]))
  | .group _ h _, hts => h.everyPart_spellable fun t ht => hts t (by simp [ht])

theorem Arguments.everyPart_spellable {ts : List Token} {es : List Expr} :
    Arguments ts es → (∀ t ∈ ts, t.WellSpelled) → ∀ e ∈ es, e.EveryPart Expr.Spellable
  | .none, _ => by simp
  | .some h hmore, hts => by
      have he := h.everyPart_spellable fun t ht => hts t (by simp [ht])
      have hes := hmore.everyPart_spellable fun t ht => hts t (by simp [ht])
      exact List.forall_mem_cons.mpr ⟨he, hes⟩

theorem MoreArguments.everyPart_spellable {ts : List Token} {es : List Expr} :
    MoreArguments ts es → (∀ t ∈ ts, t.WellSpelled) → ∀ e ∈ es, e.EveryPart Expr.Spellable
  | .none, _ => by simp
  | .some _ h hmore, hts => by
      have he := h.everyPart_spellable fun t ht => hts t (by simp [ht])
      have hes := hmore.everyPart_spellable fun t ht => hts t (by simp [ht])
      exact List.forall_mem_cons.mpr ⟨he, hes⟩

end

end Grammar

namespace Expr

/-- Each part of a parsed formula is one that a formula can spell. -/
theorem everyPart_spellable_of_parse {formula : String} {e : Expr} (h : parse formula = .ok e) :
    e.EveryPart Spellable := by
  obtain ⟨ts, hscan, htokens⟩ := parse_eq_ok_iff.mp h
  have hspelled : ∀ t ∈ ts, t.WellSpelled := Token.wellSpelled_of_scan hscan
  exact (Grammar.derives_of_ofTokens htokens).everyPart_spellable hspelled

end Expr

end SheetFormula
