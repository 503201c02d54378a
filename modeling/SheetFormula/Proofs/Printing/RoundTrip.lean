/-
  SheetFormula.Proofs.Printing.RoundTrip

  Printing an expression and parsing the formula gives the expression back.
  The induction is over the expression; what it carries is that a phrase spells
  its expression on the level of its outermost operator (`Phrase.Spells`), from
  which every place a phrase can stand in is reached with or without
  parentheses (`Spells.derives_atLevel`).
-/
import SheetFormula.Proofs.Parsing.Derivation
import SheetFormula.Proofs.Printing.Lexing
import SheetFormula.Proofs.Texts.Ascii

namespace SheetFormula

/-! ## Names -/

namespace Expr

theorem exists_of_isWord {first later : Char → Bool} {name : String}
    (h : isWord first later name = true) :
    (∃ c cs, name.toList = c :: cs ∧ first c = true ∧ ∀ c ∈ cs, later c = true)
      ∧ name ≠ "true" ∧ name ≠ "false" := by
  unfold isWord at h
  split at h
  · cases h
  · next c cs hname =>
    simp only [Bool.and_eq_true, List.all_eq_true, bne_iff_ne] at h
    obtain ⟨⟨⟨hfirst, hlater⟩, htrue⟩, hfalse⟩ := h
    exact ⟨⟨c, cs, hname, hfirst, hlater⟩, htrue, hfalse⟩

theorem isVariableName_of_isFunctionName {name : String} (h : isFunctionName name = true) :
    isVariableName name = true := by
  obtain ⟨⟨c, cs, hname, hfirst, hlater⟩, htrue, hfalse⟩ := exists_of_isWord h
  have halpha : c.isAlpha = true := by simp [Char.isAlpha, hfirst]
  have hrest : cs.all Lexeme.isNameChar = true := by
    rw [List.all_eq_true]
    intro d hd
    have hsmall := hlater d hd
    simp only [Bool.or_eq_true] at hsmall
    rcases hsmall with (hlower | hdigit) | hunder
    · simp [Lexeme.isNameChar, Char.isAlphanum, Char.isAlpha, hlower]
    · simp [Lexeme.isNameChar, Char.isAlphanum, hdigit]
    · simp [Lexeme.isNameChar, hunder]
  simp [isVariableName, isWord, hname, halpha, hrest, htrue, hfalse]

/-- The name of a function is in small letters already. -/
theorem lower_of_isFunctionName {name : String} (h : isFunctionName name = true) :
    Text.lower name = name := by
  obtain ⟨⟨c, cs, hname, hfirst, hlater⟩, _⟩ := exists_of_isWord h
  refine Text.lower_of_smallChars fun d hd => ?_
  rw [hname, List.mem_cons] at hd
  rcases hd with rfl | hd
  · rw [hfirst, Bool.true_or, Bool.true_or]
  · exact hlater d hd

theorem standalone_word {name : String} (h : isVariableName name = true) :
    (Lexeme.word name).Standalone := by
  obtain ⟨⟨c, cs, hname, hfirst, hlater⟩, _⟩ := exists_of_isWord h
  exact Lexeme.standalone_word hname hfirst (List.all_eq_true.mpr hlater)

end Expr

/-! ## Phrases that spell expressions -/

namespace Phrase

open Grammar

/-- The lexemes stand by themselves, and tokens with the same faces derive the expression on the
    phrase's level. -/
structure Spells (p : Phrase) (e : Expr) : Prop where
  one_le_level : 1 ≤ p.level
  level_le : p.level ≤ 7
  standalone : ∀ l ∈ p.lexemes, l.Standalone
  derives : ∀ ts : List Token, ts.map Token.face = p.lexemes.map Lexeme.face →
    Derives p.level ts e

/-! Tokens with given faces, from the front. -/

theorem exists_of_face_cons {ts : List Token} {l : Lexeme} {ls : List Lexeme}
    (h : ts.map Token.face = (l :: ls).map Lexeme.face) :
    ∃ t us, ts = t :: us ∧ t.kind = l.kind ∧ t.text = String.ofList l.content
      ∧ us.map Token.face = ls.map Lexeme.face := by
  rw [List.map_cons] at h
  obtain ⟨t, us, rfl, ht, hus⟩ := List.map_eq_cons_iff.mp h
  obtain ⟨hkind, htext⟩ := Prod.mk.inj ht
  exact ⟨t, us, rfl, hkind, htext, hus⟩

theorem exists_of_face_append {ts : List Token} {ls ms : List Lexeme}
    (h : ts.map Token.face = (ls ++ ms).map Lexeme.face) :
    ∃ us vs, ts = us ++ vs ∧ us.map Token.face = ls.map Lexeme.face
      ∧ vs.map Token.face = ms.map Lexeme.face := by
  rw [List.map_append] at h
  exact List.map_eq_append_iff.mp h

theorem eq_nil_of_face {ts : List Token}
    (h : ts.map Token.face = ([] : List Lexeme).map Lexeme.face) : ts = [] := by
  simpa using h

theorem exists_of_face_parentheses {ts : List Token} {ls : List Lexeme}
    (h : ts.map Token.face = (Lexeme.mark '(' :: (ls ++ [.mark ')'])).map Lexeme.face) :
    ∃ opening inner closing, ts = opening :: (inner ++ [closing]) ∧ opening.isDelimiter "("
      ∧ inner.map Token.face = ls.map Lexeme.face ∧ closing.isDelimiter ")" := by
  obtain ⟨opening, us, rfl, hkind, htext, hus⟩ := exists_of_face_cons h
  obtain ⟨inner, last, rfl, hinner, hlast⟩ := exists_of_face_append hus
  obtain ⟨closing, none, rfl, hkind', htext', hnone⟩ := exists_of_face_cons hlast
  rw [eq_nil_of_face hnone]
  exact ⟨opening, inner, closing, rfl, Token.isDelimiter_of_mark hkind htext, hinner,
    Token.isDelimiter_of_mark hkind' htext'⟩

theorem standalone_parentheses {ls : List Lexeme} (h : ∀ l ∈ ls, l.Standalone) :
    ∀ l ∈ Lexeme.mark '(' :: (ls ++ [.mark ')']), l.Standalone := by
  intro l hl
  simp only [List.mem_cons, List.mem_append, List.not_mem_nil, or_false] at hl
  rcases hl with rfl | hl | rfl
  · exact Lexeme.standalone_mark (by decide)
  · exact h l hl
  · exact Lexeme.standalone_mark (by decide)

theorem Spells.standalone_atLevel {p : Phrase} {e : Expr} (h : p.Spells e) (floor : Nat) :
    ∀ l ∈ p.atLevel floor, l.Standalone := by
  unfold atLevel
  split
  · exact h.standalone
  · exact standalone_parentheses h.standalone

/-- Every level is within the first. -/
theorem Spells.derives_one {p : Phrase} {e : Expr} (h : p.Spells e) {ts : List Token}
    (hts : ts.map Token.face = p.lexemes.map Lexeme.face) : Derives 1 ts e :=
  (h.derives ts hts).of_le (Nat.le_refl 1) h.one_le_level h.level_le

/-- In parentheses or not, a phrase spells its expression on the level asked for. -/
theorem Spells.derives_atLevel {p : Phrase} {e : Expr} (h : p.Spells e) {floor : Nat}
    (hpos : 1 ≤ floor) (hmax : floor ≤ 7) {ts : List Token}
    (hts : ts.map Token.face = (p.atLevel floor).map Lexeme.face) : Derives floor ts e := by
  unfold atLevel at hts
  split at hts
  · next hle => exact (h.derives ts hts).of_le hpos hle h.level_le
  · obtain ⟨opening, inner, closing, rfl, hopen, hinner, hclose⟩ := exists_of_face_parentheses hts
    have hgroup : Operand (opening :: (inner ++ [closing])) e :=
      .group hopen (h.derives_one hinner) hclose
    -- What stands in parentheses is an operand, so any level will do.
    exact derives_of_operand hgroup hpos hmax

/-! ### One constructor at a time -/

/-- What has no operator outside parentheses is an operand. -/
theorem spells_of_operand {ls : List Lexeme} {e : Expr} (hls : ∀ l ∈ ls, l.Standalone)
    (h : ∀ ts : List Token, ts.map Token.face = ls.map Lexeme.face → Operand ts e) :
    (⟨7, ls⟩ : Phrase).Spells e where
  one_le_level := by
    show 1 ≤ 7
    decide
  level_le := Nat.le_refl 7
  standalone := hls
  derives := fun ts hts => .operand (h ts hts)

/-- An operand of one token. -/
theorem spells_single {l : Lexeme} {e : Expr} (hl : l.Standalone)
    (h : ∀ t : Token, t.kind = l.kind → t.text = String.ofList l.content → Operand [t] e) :
    (⟨7, [l]⟩ : Phrase).Spells e := by
  refine spells_of_operand ?_ fun ts hts => ?_
  · intro m hm
    rw [List.mem_singleton.mp hm]
    exact hl
  · obtain ⟨t, none, rfl, hkind, htext, hnone⟩ := exists_of_face_cons hts
    rw [eq_nil_of_face hnone]
    exact h t hkind htext

theorem spells_infixed (op : BinaryOp) {p q : Phrase} {left right : Expr} (hp : p.Spells left)
    (hq : q.Spells right) : (infixed op p q).Spells (.call op.function [left, right]) where
  one_le_level := op.one_le_strength
  level_le := Nat.le_succ_of_le op.strength_le_six
  standalone := by
    intro l hl
    simp only [infixed, List.mem_append, List.mem_cons] at hl
    rcases hl with hl | rfl | hl
    · exact hp.standalone_atLevel _ l hl
    · exact Lexeme.standalone_binary op
    · exact hq.standalone_atLevel _ l hl
  derives := by
    intro ts hts
    obtain ⟨us, rest, rfl, hus, hrest⟩ := exists_of_face_append hts
    obtain ⟨t, vs, rfl, hkind, htext, hvs⟩ := exists_of_face_cons hrest
    have hpos := op.one_le_strength
    have hmax := op.strength_le_six
    have hleft : Derives op.strength us left := hp.derives_atLevel hpos (by omega) hus
    have hright : Derives (op.strength + 1) vs right :=
      hq.derives_atLevel (by omega) (by omega) hvs
    have hsymbol : t.text = op.symbol := htext.trans (Lexeme.ofList_content_sign _)
    exact hleft.binaryOp hkind hsymbol hright

theorem spells_prefixed (op : UnaryOp) {p : Phrase} {e : Expr} (hp : p.Spells e) :
    (prefixed op p).Spells (.call op.function [e]) := by
  refine spells_of_operand ?_ fun ts hts => ?_
  · intro l hl
    rcases List.mem_cons.mp hl with rfl | hl
    · exact Lexeme.standalone_unary op
    · exact hp.standalone_atLevel _ l hl
  · obtain ⟨t, us, rfl, hkind, htext, hus⟩ := exists_of_face_cons hts
    -- Binary operators bind more loosely than any prefix, so the operand holds none of them.
    have hoperand : Derives 7 us e := hp.derives_atLevel (by decide) (Nat.le_refl 7) hus
    have hsymbol : t.text = op.symbol := htext.trans (Lexeme.ofList_content_sign _)
    exact hoperand.operand_of_seven.unaryOp hkind hsymbol

section Arguments

variable {format : NumberFormat}

theorem standalone_behindCommas {args : List Expr}
    (h : ∀ e ∈ args, (e.phrase format).Spells e) :
    ∀ l ∈ behindCommas (Expr.phrases format args), l.Standalone := by
  induction args with
  | nil => simp [Expr.phrases, behindCommas]
  | cons e args ih =>
      intro l hl
      simp only [Expr.phrases, behindCommas, List.mem_cons, List.mem_append] at hl
      rcases hl with rfl | hl | hl
      · exact Lexeme.standalone_mark (by decide)
      · exact (h e List.mem_cons_self).standalone l hl
      · exact ih (fun d hd => h d (List.mem_cons_of_mem e hd)) l hl

theorem moreArguments_of_face {args : List Expr} (h : ∀ e ∈ args, (e.phrase format).Spells e)
    {ts : List Token}
    (hts : ts.map Token.face = (behindCommas (Expr.phrases format args)).map Lexeme.face) :
    MoreArguments ts args := by
  induction args generalizing ts with
  | nil =>
      rw [eq_nil_of_face hts]
      exact .none
  | cons e args ih =>
      obtain ⟨comma, rest, rfl, hkind, htext, hrest⟩ := exists_of_face_cons hts
      obtain ⟨us, vs, rfl, hus, hvs⟩ := exists_of_face_append hrest
      have hderives : Derives 1 us e := (h e List.mem_cons_self).derives_one hus
      have hmore := ih (fun d hd => h d (List.mem_cons_of_mem e hd)) hvs
      exact .some (Token.isDelimiter_of_mark hkind htext) hderives hmore

theorem standalone_separated {args : List Expr} (h : ∀ e ∈ args, (e.phrase format).Spells e) :
    ∀ l ∈ separated (Expr.phrases format args), l.Standalone := by
  cases args with
  | nil => simp [Expr.phrases, separated]
  | cons e args =>
      intro l hl
      rcases List.mem_append.mp hl with hl | hl
      · exact (h e List.mem_cons_self).standalone l hl
      · exact standalone_behindCommas (fun d hd => h d (List.mem_cons_of_mem e hd)) l hl

theorem arguments_of_face {args : List Expr} (h : ∀ e ∈ args, (e.phrase format).Spells e)
    {ts : List Token}
    (hts : ts.map Token.face = (separated (Expr.phrases format args)).map Lexeme.face) :
    Arguments ts args := by
  cases args with
  | nil =>
      rw [eq_nil_of_face hts]
      exact .none
  | cons e args =>
      obtain ⟨us, vs, rfl, hus, hvs⟩ := exists_of_face_append hts
      have hderives : Derives 1 us e := (h e List.mem_cons_self).derives_one hus
      exact .some hderives (moreArguments_of_face (fun d hd => h d (List.mem_cons_of_mem e hd)) hvs)

theorem spells_applied {name : String} (hname : Expr.isFunctionName name = true) {args : List Expr}
    (h : ∀ e ∈ args, (e.phrase format).Spells e) :
    (applied name (Expr.phrases format args)).Spells (.call name args) := by
  refine spells_of_operand ?_ fun ts hts => ?_
  · intro l hl
    rcases List.mem_cons.mp hl with rfl | hl
    · exact Expr.standalone_word (Expr.isVariableName_of_isFunctionName hname)
    · exact standalone_parentheses (standalone_separated h) l hl
  · obtain ⟨t, rest, rfl, hkind, htext, hrest⟩ := exists_of_face_cons hts
    obtain ⟨opening, us, closing, rfl, hopen, hus, hclose⟩ := exists_of_face_parentheses hrest
    have htext : t.text = name := htext.trans (Lexeme.ofList_content_word _)
    have hisName : t.IsName := by
      obtain ⟨_, htrue, hfalse⟩ := Expr.exists_of_isWord hname
      exact ⟨hkind, htext ▸ htrue, htext ▸ hfalse⟩
    have hcall := Operand.call hisName hopen (arguments_of_face h hus) hclose
    -- The parser calls functions by their names in small letters.
    rw [htext, Expr.lower_of_isFunctionName hname] at hcall
    exact hcall

end Arguments

end Phrase

/-! ## Printing and parsing -/

namespace Expr

open Grammar Phrase

theorem ofCall_of_isFunctionName {name : String} (h : isFunctionName name = true)
    (args : List Phrase) : Phrase.ofCall name args = Phrase.applied name args := by
  have hbinary : BinaryOp.ofFunction? name = none := by
    refine List.find?_eq_none.mpr fun op _ hop => ?_
    rw [beq_iff_eq] at hop
    rw [← hop] at h
    revert h
    cases op <;> decide
  have hunary : UnaryOp.ofFunction? name = none := by
    refine List.find?_eq_none.mpr fun op _ hop => ?_
    rw [beq_iff_eq] at hop
    rw [← hop] at h
    revert h
    cases op <;> decide
  unfold Phrase.ofCall
  split <;> simp [hbinary, hunary]

/-- A printable expression is spelled by its phrase. -/
theorem spells_phrase (format : NumberFormat) {e : Expr} (h : Printable e) :
    (e.phrase format).Spells e := by
  induction h with
  | @number x hx =>
      refine spells_single (Lexeme.standalone_ofPositional (format.isPlain x hx)
        (format.unsigned x hx)) fun t hkind htext => .number hkind ?_
      rw [htext, String.toList_ofList]
      exact format.reads_back x hx
  | @text s hs =>
      refine spells_single (Lexeme.standalone_quoted hs) fun t hkind htext => ?_
      have htext : t.text = s := htext.trans (Lexeme.ofList_content_quoted _)
      exact htext ▸ Operand.text hkind
  | bool b =>
      cases b with
      | true =>
          have hword : (Lexeme.word "true").Standalone := Lexeme.standalone_word rfl rfl rfl
          exact spells_single hword fun t hkind htext => .trueWord hkind htext
      | false =>
          have hword : (Lexeme.word "false").Standalone := Lexeme.standalone_word rfl rfl rfl
          exact spells_single hword fun t hkind htext => .falseWord hkind htext
  | @var name hname =>
      refine spells_single (standalone_word hname) fun t hkind htext => ?_
      have htext : t.text = name := htext.trans (Lexeme.ofList_content_word _)
      obtain ⟨_, htrue, hfalse⟩ := exists_of_isWord hname
      exact htext ▸ Operand.var ⟨hkind, htext ▸ htrue, htext ▸ hfalse⟩
  | @binary op left right _ _ ihleft ihright =>
      have hphrase : (call op.function [left, right]).phrase format
          = infixed op (left.phrase format) (right.phrase format) := by
        simp only [phrase, phrases, Phrase.ofCall, BinaryOp.ofFunction?_function]
      rw [hphrase]
      exact spells_infixed op ihleft ihright
  | @unary op e _ ih =>
      have hphrase : (call op.function [e]).phrase format = prefixed op (e.phrase format) := by
        simp only [phrase, phrases, Phrase.ofCall, UnaryOp.ofFunction?_function]
      rw [hphrase]
      exact spells_prefixed op ih
  | @call name args hname _ ih =>
      have hphrase : (call name args).phrase format = applied name (phrases format args) := by
        simp only [phrase, ofCall_of_isFunctionName hname]
      rw [hphrase]
      exact spells_applied hname ih

/-- Printing and parsing an expression gives the expression back. -/
theorem parse_print (format : NumberFormat) {e : Expr} (h : Printable e) :
    parse (e.print format) = .ok e := by
  have hspells := spells_phrase format h
  obtain ⟨ts, hscan, hface⟩ := Token.exists_scan_spelled hspells.standalone
  rw [parse, print, hscan]
  exact ofTokens_of_derives (hspells.derives_one hface)

theorem parse_print_product :
    Printable (.call "__mul" [.call "__sub" [.var "a", .call "__sub" [.var "b", .text "x"]],
      .call "__neg" [.call "max" [.number (.ofBits 0x3FF8000000000000), .bool true]]])
    ∧ parse (print .shortest (.call "__mul" [.call "__sub" [.var "a",
        .call "__sub" [.var "b", .text "x"]],
        .call "__neg" [.call "max" [.number (.ofBits 0x3FF8000000000000), .bool true]]]))
      = .ok (.call "__mul" [.call "__sub" [.var "a", .call "__sub" [.var "b", .text "x"]],
        .call "__neg" [.call "max" [.number (.ofBits 0x3FF8000000000000), .bool true]]]) := by
  have hdifference : Printable (.call "__sub" [.var "b", .text "x"]) :=
    .binary .subtract (.var (by decide)) (.text (by decide))
  have hnumber : Printable (.number (.ofBits 0x3FF8000000000000)) := .number (by decide +kernel)
  have hcall : Printable (.call "max" [.number (.ofBits 0x3FF8000000000000), .bool true]) := by
    refine .call (by decide) fun e he => ?_
    simp only [List.mem_cons, List.not_mem_nil, or_false] at he
    rcases he with rfl | rfl
    · exact hnumber
    · exact .bool true
  have h : Printable (.call "__mul" [.call "__sub" [.var "a",
      .call "__sub" [.var "b", .text "x"]],
      .call "__neg" [.call "max" [.number (.ofBits 0x3FF8000000000000), .bool true]]]) :=
    .binary .multiply (.binary .subtract (.var (by decide)) hdifference) (.unary .negate hcall)
  exact ⟨h, parse_print .shortest h⟩

example : print .shortest (.call "__mul" [.call "__sub" [.var "a", .call "__sub" [.var "b",
      .text "x"]], .call "__neg" [.call "max" [.number (.ofBits 0x3FF8000000000000), .bool true]]])
    = "( a - ( b - \"x\" ) ) * - max ( 1.5 , true )" := by
  decide +kernel

end Expr

end SheetFormula
