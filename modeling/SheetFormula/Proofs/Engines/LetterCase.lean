/-
  SheetFormula.Proofs.Engines.LetterCase

  The letter case of functions' names.  A formula in which the names of calls
  are written in other cases (`RecasesCalls`) is cut into tokens at the same
  bytes, and the tokens are the same but for these names (`readAlike_drop`);
  a word behind which no parenthesis opens keeps its letters, even where it is
  the name of a function too.  Main statement: the second formula stands for
  the same expression, has the same dependencies and is evaluated in the same
  way by every engine (`evaluate_of_recasesCalls`).
-/
import SheetFormula.Proofs.Engines.Provenance
import SheetFormula.Proofs.Parsing.Faces
import SheetFormula.Proofs.Parsing.Vocabulary
import SheetFormula.Proofs.Tokens.LetterCase

namespace SheetFormula

namespace Token

open Text

/-! ## Names of calls -/

/-- One of the tokens is this name, and the next one opens a parenthesis. -/
def IsCalled (ts : List Token) (t : Token) : Prop :=
  t.IsName ∧ ∃ (k : Nat) (opening : Token),
    ts[k]? = some t ∧ ts[k + 1]? = some opening ∧ opening.isDelimiter "(" = true

/-- The second formula is the first one, which has these tokens, with letters of called names in
    other cases; none of the new names is a truth value. -/
structure RecasesCalls (ts : List Token) (formula other : String) : Prop where
  letters : SameBut (fun place => ∃ t, IsCalled ts t ∧ t.Spans place) 0 formula.toList other.toList
  names : ∀ t, IsCalled ts t → ∀ before word after : String, other = before ++ word ++ after →
    t.start = before.utf8ByteSize → t.stop = (before ++ word).utf8ByteSize →
    word ≠ "true" ∧ word ≠ "false"

/-! ## Tokens of recased formulas -/

variable {formula other : String} {ts us : List Token}

/-- Tokens that share a byte are the same one. -/
theorem Cuts.index_eq {offset : Nat} {cs : List Char} (h : Cuts offset cs ts) {i j place : Nat}
    {t u : Token} (ht : ts[i]? = some t) (hu : ts[j]? = some u) (htPlace : t.Spans place)
    (huPlace : u.Spans place) : i = j := by
  obtain ⟨hi, rfl⟩ := List.getElem?_eq_some_iff.mp ht
  obtain ⟨hj, rfl⟩ := List.getElem?_eq_some_iff.mp hu
  have hseparated := List.pairwise_iff_getElem.mp h.separated
  obtain ⟨htStart, htStop⟩ := htPlace
  obtain ⟨huStart, huStop⟩ := huPlace
  rcases Nat.lt_trichotomy i j with hlt | heq | hlt
  · have := hseparated i j hi hj hlt
    omega
  · exact heq
  · have := hseparated j i hj hi hlt
    omega

/-- The text of a token of a formula stands in the formula where the token says. -/
theorem exists_of_scan_identifier (h : scan formula = .ok ts) {t : Token} (ht : t ∈ ts)
    (hkind : t.kind = .identifier) :
    ∃ before after : String, formula = before ++ t.text ++ after ∧
      t.start = before.utf8ByteSize ∧ t.stop = (before ++ t.text).utf8ByteSize := by
  have hcut := ((scanFrom_eq_ok_iff_cuts _ _ ts).mp h).cutAt t ht
  obtain ⟨before, after, hformula, hstart, hstop, _⟩ := standsIn_iff_cutAt.mpr hcut
  rw [source_eq_text (by simp [hkind])] at hformula hstop
  exact ⟨before, after, hformula, hstart, hstop⟩

theorem lower_eq_of_sameLetters {t u : Token} (ht : t.WellSpelled) (hu : u.WellSpelled)
    (htKind : t.kind = .identifier) (huKind : u.kind = .identifier)
    (h : SameLetters t.text.toList u.text.toList) : lower t.text = lower u.text := by
  obtain ⟨_, _, htText, htHead, htTail⟩ := ht.exists_of_identifier htKind
  obtain ⟨_, _, huText, huHead, huTail⟩ := hu.exists_of_identifier huKind
  exact h.lower_eq (htText ▸ toNat_lt_of_word htHead htTail)
    (huText ▸ toNat_lt_of_word huHead huTail)

/-- A called name is recased to a name with the same small letters. -/
theorem RecasesCalls.name (h : RecasesCalls ts formula other) (hts : scan formula = .ok ts)
    (hus : scan other = .ok us) {p : Nat → Prop} {t u : Token} (ht : t ∈ ts) (hu : u ∈ us)
    (hsame : RecasedAt p t u) (hcalled : IsCalled ts t) :
    u.IsName ∧ lower t.text = lower u.text := by
  have htKind : t.kind = .identifier := hcalled.1.1
  have huKind : u.kind = .identifier := hsame.kind.trans htKind
  obtain ⟨before, after, hother, hstart, hstop⟩ := exists_of_scan_identifier hus hu huKind
  have hword := h.names t hcalled before u.text after hother (hsame.start.symm.trans hstart)
    (hsame.stop.symm.trans hstop)
  exact ⟨⟨huKind, hword⟩, lower_eq_of_sameLetters (wellSpelled_of_scan hts t ht)
    (wellSpelled_of_scan hus u hu) htKind huKind (hsame.letters htKind)⟩

/-- What is left of the tokens of both formulas is read alike, wherever the reader stands. -/
theorem readAlike_drop (h : RecasesCalls ts formula other) (hts : scan formula = .ok ts)
    (hus : scan other = .ok us)
    (hsame : List.Forall₂ (RecasedAt fun place => ∃ t, IsCalled ts t ∧ t.Spans place) ts us) :
    ReadAlike fun ts' us' => ∃ k, ts' = ts.drop k ∧ us' = us.drop k := by
  rintro _ _ ⟨k, rfl, rfl⟩
  have hcuts : Cuts 0 formula.toList ts := (scanFrom_eq_ok_iff_cuts _ _ ts).mp hts
  obtain ⟨hlength, hpairs⟩ := List.forall₂_iff_get.mp hsame
  by_cases hk : k < ts.length
  · have hk' : k < us.length := hlength ▸ hk
    have hget : ts[k]? = some ts[k] := List.getElem?_eq_getElem hk
    have hpair : RecasedAt _ ts[k] us[k] := hpairs k hk hk'
    rw [List.drop_eq_getElem_cons hk, List.drop_eq_getElem_cons hk']
    by_cases hcalled : IsCalled ts ts[k]
    · obtain ⟨hname, hlower⟩ := h.name hts hus (List.getElem_mem hk) (List.getElem_mem hk') hpair
        hcalled
      obtain ⟨htName, j, opening, hj, hnext, hopen⟩ := hcalled
      -- The name spans its first byte, so it is nowhere else among the tokens.
      have hstart : ts[k].Spans ts[k].start :=
        ⟨Nat.le_refl _, (hcuts.cutAt _ (List.getElem_mem hk)).bounds.2⟩
      obtain rfl := hcuts.index_eq hj hget hstart hstart
      obtain ⟨hlt, rfl⟩ := List.getElem?_eq_some_iff.mp hnext
      rw [List.drop_eq_getElem_cons hlt]
      exact .name htName hname hlower hopen
        ⟨j + 1, (List.drop_eq_getElem_cons hlt).symm, rfl⟩
    -- A byte of a token that is not called belongs to no other token, so nothing has changed.
    · have htext : us[k].text = ts[k].text := by
        refine hpair.text fun place hplace hrecased => ?_
        obtain ⟨t, ht, htPlace⟩ := hrecased
        have ⟨_, j, _, hj, _⟩ := ht
        obtain rfl := hcuts.index_eq hget hj hplace htPlace
        rw [hget] at hj
        cases hj
        exact hcalled ht
      exact .face (Prod.ext hpair.kind.symm htext.symm) ⟨k + 1, rfl, rfl⟩
  · rw [List.drop_eq_nil_of_le (by omega), List.drop_eq_nil_of_le (by omega)]
    exact .nil

/-- A formula with recased calls has tokens that are read like those of the first one. -/
theorem parse_of_recasesCalls {e : Expr} (h : RecasesCalls ts formula other)
    (hts : scan formula = .ok ts) (hparse : Expr.parse formula = .ok e) :
    Expr.parse other = .ok e := by
  obtain ⟨us, hus, hsame⟩ := exists_scanFrom_of_sameBut h.letters hts
  obtain ⟨ts', hts', htokens⟩ := Expr.parse_eq_ok_iff.mp hparse
  rw [hts] at hts'
  cases hts'
  refine Expr.parse_eq_ok_iff.mpr ⟨us, hus, ?_⟩
  exact Expr.ofTokens_of_readAlike (readAlike_drop h hts hus hsame) ⟨0, rfl, rfl⟩ htokens

end Token

namespace Engine

/-- A formula that can be parsed and the same formula with the names of calls in other letter cases
    stand for the same expression.  So they have the same dependencies, and every engine evaluates
    them to the same, be it by the special forms, which take their arguments unevaluated, or by
    functions, and with the same calls in the same order; whether variables have the names of
    functions makes no difference. -/
theorem evaluate_of_recasesCalls {formula other : String} {ts : List Token} {e : Expr}
    (hscan : Token.scan formula = .ok ts) (hparse : Expr.parse formula = .ok e)
    (h : Token.RecasesCalls ts formula other) :
    Expr.parse other = .ok e ∧ Expr.dependencies other = Expr.dependencies formula ∧
      ∀ {σ : Type} (engine : Engine σ) (locals : Bindings),
        engine.evaluate other locals = engine.evaluate formula locals ∧
          ∀ host, engine.run other locals host = engine.run formula locals host := by
  have hother : Expr.parse other = .ok e := Token.parse_of_recasesCalls h hscan hparse
  refine ⟨hother, ?_, fun engine locals => ⟨?_, fun host => ?_⟩⟩
  · rw [Expr.dependencies_of_parse_ok hother, Expr.dependencies_of_parse_ok hparse]
  · rw [evaluate, evaluate, hother, hparse]
  · rw [run_of_parse_ok engine hother, run_of_parse_ok engine hparse]

/-- The tokens of `If(f(x),f)`. -/
def recasedTokens : List Token :=
  [⟨.identifier, "If", 0, 2⟩, ⟨.delimiter, "(", 2, 3⟩, ⟨.identifier, "f", 3, 4⟩,
    ⟨.delimiter, "(", 4, 5⟩, ⟨.identifier, "x", 5, 6⟩, ⟨.delimiter, ")", 6, 7⟩,
    ⟨.delimiter, ",", 7, 8⟩, ⟨.identifier, "f", 8, 9⟩, ⟨.delimiter, ")", 9, 10⟩]

/-- A special form and a function are recased, and a variable with the function's name is not. -/
theorem evaluate_of_recasesCalls_branch :
    Token.scan "If(f(x),f)" = .ok recasedTokens ∧
      Expr.parse "If(f(x),f)" = .ok (.call "if" [.call "f" [.var "x"], .var "f"]) ∧
      Token.RecasesCalls recasedTokens "If(f(x),f)" "iF(F(x),f)" ∧
      Expr.parse "iF(F(x),f)" = .ok (.call "if" [.call "f" [.var "x"], .var "f"]) := by
  have hscan : Token.scan "If(f(x),f)" = .ok recasedTokens := by decide +kernel
  have hparse : Expr.parse "If(f(x),f)" = .ok (.call "if" [.call "f" [.var "x"], .var "f"]) :=
    Expr.parse_eq_ok_iff.mpr ⟨recasedTokens, hscan, rfl⟩
  have hIf : Token.IsCalled recasedTokens ⟨.identifier, "If", 0, 2⟩ :=
    ⟨⟨rfl, by decide, by decide⟩, 0, ⟨.delimiter, "(", 2, 3⟩, rfl, rfl, by decide⟩
  have hf : Token.IsCalled recasedTokens ⟨.identifier, "f", 3, 4⟩ :=
    ⟨⟨rfl, by decide, by decide⟩, 2, ⟨.delimiter, "(", 4, 5⟩, rfl, rfl, by decide⟩
  have hletters : Token.SameBut
      (fun place => ∃ t, Token.IsCalled recasedTokens t ∧ t.Spans place) 0
      ['I', 'f', '(', 'f', '(', 'x', ')', ',', 'f', ')']
      ['i', 'F', '(', 'F', '(', 'x', ')', ',', 'f', ')'] :=
    .recased ⟨_, hIf, by decide, by decide⟩ (by decide) <|
    .recased ⟨_, hIf, by decide, by decide⟩ (by decide) <| .same <|
    .recased ⟨_, hf, by decide, by decide⟩ (by decide) <|
    .same <| .same <| .same <| .same <| .same <| .same <| .nil _
  have hrecases : Token.RecasesCalls recasedTokens "If(f(x),f)" "iF(F(x),f)" := by
    refine ⟨hletters, fun t ht before word after _ hstart hstop => ?_⟩
    -- The names have two letters and one.
    obtain ⟨_, _, _, hget, _⟩ := ht
    have hshort : ∀ t ∈ recasedTokens, t.stop ≤ t.start + 2 := by decide
    have hle := hshort t (List.mem_of_getElem? hget)
    rw [hstop, hstart, String.utf8ByteSize_append] at hle
    constructor
    · rintro rfl
      exact absurd (Nat.le_of_add_le_add_left hle) (by decide)
    · rintro rfl
      exact absurd (Nat.le_of_add_le_add_left hle) (by decide)
  exact ⟨hscan, hparse, hrecases, (evaluate_of_recasesCalls hscan hparse hrecases).1⟩

end Engine

end SheetFormula
