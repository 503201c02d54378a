/-
  SheetFormula.Proofs.Parsing.ErrorKinds

  The kind of an error tells which stage of reading has failed.  Cutting a
  formula into tokens fails with lexical errors only, and reading the tokens
  with errors of the grammar only (`kind_of_parse_eq_lexical_iff`,
  `kind_of_parse_eq_grammar_iff`).
-/
import SheetFormula.Proofs.Parsing.CorrectPrefix

namespace SheetFormula

theorem Token.kind_of_scanFrom {offset : Nat} {cs : List Char} {e : Error}
    (h : scanFrom offset cs = .error e) : e.kind = .lexical := by
  induction offset, cs using scanFrom.induct with
  | case1 offset =>
      rw [scanFrom_nil] at h
      cases h
  | case2 offset c cs hblank ih =>
      rw [scanFrom_blank cs hblank] at h
      exact ih h
  | case3 offset c cs hblank hread =>
      rw [scanFrom_error (Bool.eq_false_iff.mpr hblank) hread] at h
      cases h
      rfl
  | case4 offset c cs hblank l rest hread _ ih =>
      rw [scanFrom_lexeme (Bool.eq_false_iff.mpr hblank) hread] at h
      cases hrest : scanFrom (offset + byteLength l.spelling) rest with
      | ok us =>
          rw [hrest] at h
          cases h
      | error e' =>
          rw [hrest] at h
          cases h
          exact ih hrest

theorem Grammar.FailsAfter.kind {ts : List Token} {error : Error} {k : Nat}
    (h : FailsAfter ts error k) : error.kind = .grammar := by
  rcases h.2.2 with ⟨t, _, _, _, rfl | rfl⟩ | ⟨_, rfl | rfl⟩ <;> rfl

namespace Expr

theorem kind_of_ofTokens {ts : List Token} {e : Error} (h : ofTokens ts = .error e) :
    e.kind = .grammar := by
  rw [ofTokens_eq] at h
  split at h
  · cases h
  · cases h
    rfl
  · next rest hread =>
    cases h
    obtain ⟨k, hk, -⟩ :=
      Grammar.failsAfter_of_stuck ((Grammar.allStuck ts).expression 0 e rest hread)
    exact hk.kind
  · next hread => exact absurd hread (expression_ne_exhausted 0 ts)

/-- Parsing fails where the scan fails or where the tokens cannot be read. -/
theorem parse_eq_error_iff {formula : String} {e : Error} :
    parse formula = .error e ↔
      Token.scan formula = .error e ∨ ∃ ts, Token.scan formula = .ok ts ∧ ofTokens ts = .error e := by
  rw [parse]
  cases hscan : Token.scan formula with
  | error e' => simp [bind, Except.bind]
  | ok ts => simp [bind, Except.bind]

theorem kind_of_parse_eq_lexical_iff {formula : String} {e : Error}
    (h : parse formula = .error e) : e.kind = .lexical ↔ Token.scan formula = .error e := by
  rcases parse_eq_error_iff.mp h with hscan | ⟨ts, hscan, htokens⟩
  · simp [hscan, Token.kind_of_scanFrom hscan]
  · simp [hscan, kind_of_ofTokens htokens]

theorem kind_of_parse_eq_grammar_iff {formula : String} {e : Error}
    (h : parse formula = .error e) :
    e.kind = .grammar ↔ ∃ ts, Token.scan formula = .ok ts ∧ ofTokens ts = .error e := by
  rcases parse_eq_error_iff.mp h with hscan | ⟨ts, hscan, htokens⟩
  · simp [hscan, Token.kind_of_scanFrom hscan]
  · simp [hscan, htokens, kind_of_ofTokens htokens]

/-- What a formula cannot be parsed for has no other kind. -/
theorem kind_of_parse {formula : String} {e : Error} (h : parse formula = .error e) :
    e.kind = .lexical ∨ e.kind = .grammar := by
  rcases parse_eq_error_iff.mp h with hscan | ⟨ts, _, htokens⟩
  · exact .inl (Token.kind_of_scanFrom hscan)
  · exact .inr (kind_of_ofTokens htokens)

end Expr

end SheetFormula
