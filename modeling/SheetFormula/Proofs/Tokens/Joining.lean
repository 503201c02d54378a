/-
  SheetFormula.Proofs.Tokens.Joining

  Texts one behind the other.  Characters are cut into tokens with the others
  really standing behind them (`Yields`), so that pieces of a text can be cut
  one by one.  A text that can be cut by itself yields the same tokens in front
  of another unless its last lexeme goes on into that one
  (`TokenKind.StopsBefore`).  Main statements: `yields_of_scanFrom`, and that
  tokens move along with their text (`scanFrom_shift`).
-/
import SheetFormula.Proofs.Tokens.Maximal
import SheetFormula.Token.Scan

namespace SheetFormula

/-! ## Where lexemes stop -/

/-- No lexeme of the kind goes on into the characters. -/
def TokenKind.StopsBefore : TokenKind → List Char → Prop
  | .number, rest => (∀ c ∈ rest.head?, c.isDigit = false) ∧
      ∀ c behind, rest = '.' :: c :: behind → c.isDigit = false
  | .identifier, rest => ∀ c ∈ rest.head?, Lexeme.isNameChar c = false
  | .operator, rest => rest.head? ≠ some '='
  | .text, _ | .delimiter, _ => True

/-- A character that is none of those that a lexeme goes on with. -/
theorem TokenKind.stopsBefore_cons {kind : TokenKind} {c : Char} {rest : List Char}
    (hdigit : c.isDigit = false) (hpoint : c = '.' → ∀ d ∈ rest.head?, d.isDigit = false)
    (hname : kind = .identifier → Lexeme.isNameChar c = false) (hequal : c ≠ '=') :
    kind.StopsBefore (c :: rest) := by
  cases kind with
  | number =>
      refine ⟨by simpa using hdigit, fun d behind hrest => ?_⟩
      obtain ⟨rfl, rfl⟩ := List.cons.inj hrest
      exact hpoint rfl d rfl
  | identifier => simpa [StopsBefore] using hname rfl
  | operator => simpa [StopsBefore] using hequal
  | text | delimiter => trivial

theorem TokenKind.stopsBefore_delimiter {c : Char} (hc : c ∈ Lexeme.delimiterChars)
    (rest : List Char) (kind : TokenKind) : kind.StopsBefore (c :: rest) := by
  have hno : c.isDigit = false ∧ c ≠ '.' ∧ Lexeme.isNameChar c = false ∧ c ≠ '=' := by
    simp only [Lexeme.delimiterChars, List.mem_cons, List.not_mem_nil, or_false] at hc
    rcases hc with rfl | rfl | rfl <;> decide
  obtain ⟨hdigit, hpoint, hname, hequal⟩ := hno
  exact stopsBefore_cons hdigit (fun h => absurd h hpoint) (fun _ => hname) hequal

/-- White space ends every lexeme. -/
theorem TokenKind.stopsBefore_blank {c : Char} (hc : Text.isBlank c = true) (rest : List Char)
    (kind : TokenKind) : kind.StopsBefore (c :: rest) := by
  have hne : ∀ d, Text.isBlank d = false → c ≠ d := by
    rintro d hd rfl
    rw [hc] at hd
    cases hd
  have hfalse : ∀ p : Char → Bool, (∀ d, p d = true → Text.isBlank d = false) → p c = false := by
    intro p hp
    cases hpc : p c with
    | false => rfl
    | true => exact absurd rfl (hne c (hp c hpc))
  have hdigit : c.isDigit = false := hfalse _ fun _ => Text.isBlank_of_isDigit
  have halpha : c.isAlpha = false := hfalse _ fun _ => Text.isBlank_of_isAlpha
  have hunder : c ≠ '_' := hne '_' (by decide)
  refine stopsBefore_cons hdigit (fun h => absurd h (hne '.' (by decide))) (fun _ => ?_)
    (hne '=' (by decide))
  simp [Lexeme.isNameChar, Char.isAlphanum, hdigit, halpha, hunder]

namespace Lexeme

variable {kind : TokenKind} {spelling rest tail : List Char}

/-- A lexeme is maximal before whatever it does not go on into. -/
theorem IsMaximal.of_stopsBefore (h : IsMaximal kind spelling rest)
    (hstop : kind.StopsBefore tail) : IsMaximal kind spelling tail := by
  cases h with
  | text hinner => exact .text hinner
  | whole hne hdigits => exact .whole hne hdigits hstop.1 hstop.2
  | fraction hwhole hne hdigits => exact .fraction hwhole hne hdigits hstop.1
  | identifier hc hcs => exact .identifier hc hcs hstop
  | pair hc => exact .pair hc
  | single hc => exact .single hc
  | alone hc => exact .alone hc hstop
  | delimiter hc => exact .delimiter hc

/-- Less behind a lexeme gives it no more to go on with. -/
theorem IsMaximal.of_append (h : IsMaximal kind spelling (rest ++ tail)) :
    IsMaximal kind spelling rest := by
  have hhead : ∀ c ∈ rest.head?, c ∈ (rest ++ tail).head? := by
    cases rest <;> simp
  cases h with
  | text hinner => exact .text hinner
  | whole hne hdigits hrest hpoint =>
      refine .whole hne hdigits (fun c hc => hrest c (hhead c hc)) fun c behind hbehind => ?_
      exact hpoint c (behind ++ tail) (by rw [hbehind]; rfl)
  | fraction hwhole hne hdigits hrest =>
      exact .fraction hwhole hne hdigits fun c hc => hrest c (hhead c hc)
  | identifier hc hcs hrest => exact .identifier hc hcs fun d hd => hrest d (hhead d hd)
  | pair hc => exact .pair hc
  | single hc => exact .single hc
  | alone hc hrest => exact .alone hc fun h => hrest (hhead '=' h)
  | delimiter hc => exact .delimiter hc

/-- What stands behind a lexeme decides by its first character whether the lexeme goes on, unless
    this is a point that the digits of a number may go on with. -/
theorem IsMaximal.append (h : IsMaximal kind spelling rest) (hne : rest ≠ [])
    (hpoint : rest ≠ ['.']) (tail : List Char) : IsMaximal kind spelling (rest ++ tail) := by
  obtain ⟨d, ds, rfl⟩ := List.exists_cons_of_ne_nil hne
  cases h with
  | text hinner => exact .text hinner
  | whole hdigitsNe hdigits hrest hbehind =>
      refine .whole hdigitsNe hdigits hrest fun c behind hcs => ?_
      obtain ⟨rfl, htail⟩ := List.cons.inj hcs
      cases ds with
      | nil => exact absurd rfl hpoint
      | cons e ds =>
          -- The character behind the point was there before.
          obtain ⟨rfl, -⟩ := List.cons.inj htail
          exact hbehind e ds rfl
  | fraction hwhole hdigitsNe hdigits hrest => exact .fraction hwhole hdigitsNe hdigits hrest
  | identifier hc hcs hrest => exact .identifier hc hcs hrest
  | pair hc => exact .pair hc
  | single hc => exact .single hc
  | alone hc hrest => exact .alone hc hrest
  | delimiter hc => exact .delimiter hc

end Lexeme

namespace Token

variable {offset : Nat} {cs ds tail : List Char} {ts us : List Token}

/-! ## Pieces of a text -/

/-- In front of other characters the characters are cut into the tokens, and the cut goes on behind
    them. -/
def Yields (offset : Nat) (cs tail : List Char) (ts : List Token) : Prop :=
  scanFrom offset (cs ++ tail) = (scanFrom (offset + byteLength cs) tail).map (ts ++ ·)

theorem yields_nil : Yields offset [] tail [] := by
  rw [Yields, List.nil_append, byteLength_nil, Nat.add_zero]
  cases scanFrom offset tail <;> rfl

/-- Two pieces make one. -/
theorem Yields.append (h : Yields offset cs (ds ++ tail) ts)
    (h' : Yields (offset + byteLength cs) ds tail us) :
    Yields offset (cs ++ ds) tail (ts ++ us) := by
  rw [Yields] at h h' ⊢
  rw [List.append_assoc, h, h', byteLength_append, Nat.add_assoc]
  cases scanFrom (offset + (byteLength cs + byteLength ds)) tail with
  | error e => rfl
  | ok vs =>
      show Except.ok (ts ++ (us ++ vs)) = Except.ok (ts ++ us ++ vs)
      rw [List.append_assoc]

/-- With nothing behind it, a piece is the whole text. -/
theorem Yields.scanFrom_eq (h : Yields offset cs [] ts) : scanFrom offset cs = .ok ts := by
  rw [Yields, List.append_nil, scanFrom_nil] at h
  rw [h]
  show Except.ok (ts ++ []) = Except.ok ts
  rw [List.append_nil]

/-- Where the cut goes wrong behind a piece, it goes wrong for the whole text. -/
theorem Yields.scanFrom_eq_error (h : Yields offset cs tail ts) {e : Error}
    (htail : scanFrom (offset + byteLength cs) tail = .error e) :
    scanFrom offset (cs ++ tail) = .error e := by
  rw [h, htail]
  rfl

theorem yields_blank {c : Char} (h : Text.isBlank c = true) : Yields offset [c] tail [] := by
  rw [Yields, List.singleton_append, scanFrom_blank tail h, byteLength_cons, byteLength_nil,
    Nat.add_zero]
  cases scanFrom (offset + c.utf8Size) tail <;> rfl

theorem yields_of_isAllBlank (h : Text.isAllBlank cs = true) : Yields offset cs tail [] := by
  induction cs generalizing offset with
  | nil => exact yields_nil
  | cons c cs ih =>
      rw [Text.isAllBlank, List.all_cons, Bool.and_eq_true] at h
      exact (yields_blank h.1).append (ih h.2)

theorem yields_lexeme {l : Lexeme} (h : Lexeme.IsMaximal l.kind l.spelling tail) :
    Yields offset l.spelling tail [ofLexeme l offset] := by
  obtain ⟨c, cs, hspelling, hblank⟩ := h.exists_cons
  have hread := Lexeme.read?_of_isMaximal h
  rw [hspelling, List.cons_append] at hread
  rw [Yields, hspelling, List.cons_append, scanFrom_lexeme hblank hread]
  rw [← hspelling]
  rfl

/-! ## Texts that can be cut by themselves -/

/-- Behind the first lexeme of a text that can be cut, the rest can be cut too. -/
theorem exists_of_scanFrom_lexeme {c : Char} {rest : List Char} {l : Lexeme}
    (hblank : Text.isBlank c = false) (hread : Lexeme.read? (c :: cs) = some (l, rest))
    (h : scanFrom offset (c :: cs) = .ok ts) :
    ∃ us, scanFrom (offset + byteLength l.spelling) rest = .ok us ∧
      ts = ofLexeme l offset :: us := by
  rw [scanFrom_lexeme hblank hread] at h
  cases hrest : scanFrom (offset + byteLength l.spelling) rest with
  | error e =>
      rw [hrest] at h
      cases h
  | ok us =>
      rw [hrest] at h
      cases h
      exact ⟨us, rfl, rfl⟩

/-- A text does not end with a point by itself. -/
theorem ne_point_of_scanFrom (h : scanFrom offset cs = .ok ts) : cs ≠ ['.'] := by
  rintro rfl
  rw [scanFrom_error (by decide) (by decide)] at h
  cases h

/-- A text that can be cut by itself yields its tokens in front of characters that its last lexeme
    does not go on into. -/
theorem yields_of_scanFrom (h : scanFrom offset cs = .ok ts)
    (hstop : ∀ t ∈ ts, t.stop = offset + byteLength cs → t.kind.StopsBefore tail) :
    Yields offset cs tail ts := by
  -- Along the scan; a piece that is cut off leaves the end of the text where it is, and so the
  -- hypothesis on the last lexeme.
  induction offset, cs using scanFrom.induct generalizing ts with
  | case1 offset =>
      rw [scanFrom_nil] at h
      cases h
      exact yields_nil
  | case2 offset c cs hblank ih =>
      rw [scanFrom_blank cs hblank] at h
      rw [byteLength_cons, ← Nat.add_assoc] at hstop
      exact (yields_blank hblank).append (ih h hstop)
  | case3 offset c cs hblank hread =>
      rw [scanFrom_error (Bool.eq_false_iff.mpr hblank) hread] at h
      cases h
  | case4 offset c cs hblank l rest hread _ ih =>
      obtain ⟨us, hus, rfl⟩ := exists_of_scanFrom_lexeme (Bool.eq_false_iff.mpr hblank) hread h
      obtain ⟨happend, hmaximal⟩ := Lexeme.read?_eq_some_iff.mp hread
      rw [← happend] at hstop ⊢
      have hlexeme : Lexeme.IsMaximal l.kind l.spelling (rest ++ tail) := by
        by_cases hrest : rest = []
        · -- The lexeme is the last one.
          subst hrest
          refine hmaximal.of_stopsBefore (hstop (ofLexeme l offset) List.mem_cons_self ?_)
          rw [List.append_nil]
          rfl
        · exact hmaximal.append hrest (ne_point_of_scanFrom hus) tail
      refine (yields_lexeme hlexeme).append (ih hus fun t ht hend => ?_)
      refine hstop t (List.mem_cons_of_mem _ ht) ?_
      rw [hend, byteLength_append, Nat.add_assoc]

/-! ## Texts that start elsewhere -/

/-- The token of a text that starts `n` bytes later. -/
def shift (n : Nat) (t : Token) : Token := { t with start := n + t.start, stop := n + t.stop }

theorem ofLexeme_add (l : Lexeme) (n offset : Nat) :
    ofLexeme l (n + offset) = (ofLexeme l offset).shift n := by
  rw [ofLexeme, ofLexeme, shift, Nat.add_assoc]

/-- Tokens move along with their text. -/
theorem scanFrom_shift (n : Nat) (h : scanFrom offset cs = .ok ts) :
    scanFrom (n + offset) cs = .ok (ts.map (shift n)) := by
  induction offset, cs using scanFrom.induct generalizing ts with
  | case1 offset =>
      rw [scanFrom_nil] at h ⊢
      cases h
      rfl
  | case2 offset c cs hblank ih =>
      rw [scanFrom_blank cs hblank] at h ⊢
      rw [Nat.add_assoc]
      exact ih h
  | case3 offset c cs hblank hread =>
      rw [scanFrom_error (Bool.eq_false_iff.mpr hblank) hread] at h
      cases h
  | case4 offset c cs hblank l rest hread _ ih =>
      have hc : Text.isBlank c = false := Bool.eq_false_iff.mpr hblank
      obtain ⟨us, hus, rfl⟩ := exists_of_scanFrom_lexeme hc hread h
      rw [scanFrom_lexeme hc hread, Nat.add_assoc, ih hus, ofLexeme_add]
      rfl

/-- A character that is refused moves along with its text. -/
theorem scanFrom_shift_error (n : Nat) {e : Error} (h : scanFrom offset cs = .error e) :
    ∃ place c, e = .unexpectedCharacter place c ∧
      scanFrom (n + offset) cs = .error (.unexpectedCharacter (n + place) c) := by
  induction offset, cs using scanFrom.induct with
  | case1 offset =>
      rw [scanFrom_nil] at h
      cases h
  | case2 offset c cs hblank ih =>
      rw [scanFrom_blank cs hblank] at h ⊢
      rw [Nat.add_assoc]
      exact ih h
  | case3 offset c cs hblank hread =>
      have hc : Text.isBlank c = false := Bool.eq_false_iff.mpr hblank
      rw [scanFrom_error hc hread] at h
      cases h
      exact ⟨offset, c, rfl, scanFrom_error hc hread⟩
  | case4 offset c cs hblank l rest hread _ ih =>
      have hc : Text.isBlank c = false := Bool.eq_false_iff.mpr hblank
      rw [scanFrom_lexeme hc hread] at h
      cases hrest : scanFrom (offset + byteLength l.spelling) rest with
      | ok us =>
          rw [hrest] at h
          cases h
      | error e' =>
          rw [hrest] at h
          cases h
          obtain ⟨place, d, rfl, hmoved⟩ := ih hrest
          refine ⟨place, d, rfl, ?_⟩
          rw [scanFrom_lexeme hc hread, Nat.add_assoc, hmoved]
          rfl

end Token

end SheetFormula
