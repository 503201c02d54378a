/-
  SheetFormula.Proofs.Tokens.Spans

  What the tokens of a formula are, said by the bytes that they span and not by
  the order in which they are read (`Tokenizes`).  Main statement: these are the
  tokens that the scan finds, there is at most one such list, and where there is
  none the scan fails (`scan_eq_ok_iff_tokenizes`).

  The induction over the scan is on characters that start at a byte (`Cuts`):
  white space in front belongs to no token (`cuts_blank_iff`), and any other
  character is the first one of the first token, which `Lexeme.read?` finds
  (`cuts_lexeme_iff`).
-/
import SheetFormula.Proofs.Tokens.Maximal
import SheetFormula.Token.Scan

namespace SheetFormula

namespace Token

/-! ## What tokens of a formula are -/

/-- The piece of the formula that a token spans: its text, between quotes if it is quoted. -/
def source (t : Token) : String :=
  match t.kind with
  | .text => "\"" ++ t.text ++ "\""
  | _ => t.text

/-- Only texts have quotes around them. -/
theorem source_eq_text {t : Token} (h : t.kind ≠ .text) : t.source = t.text := by
  cases hkind : t.kind with
  | text => exact absurd hkind h
  | number | identifier | operator | delimiter => rw [source, hkind]

/-- A token spans its piece of the formula, from one place between two characters to another, and
    the piece is a lexeme that goes as far as it can. -/
def StandsIn (formula : String) (t : Token) : Prop :=
  ∃ before after : String, formula = before ++ t.source ++ after ∧
    t.start = before.utf8ByteSize ∧ t.stop = (before ++ t.source).utf8ByteSize ∧
    Lexeme.IsMaximal t.kind t.source.toList after.toList

/-- The tokens stand in the formula one behind the other and leave nothing but white space out. -/
structure Tokenizes (formula : String) (ts : List Token) : Prop where
  standsIn : ∀ t ∈ ts, t.StandsIn formula
  nonempty : ∀ t ∈ ts, t.start < t.stop
  separated : ts.Pairwise (fun t u => t.stop ≤ u.start)
  covered : ∀ before c after, formula = before ++ String.singleton c ++ after →
    Text.isBlank c = false →
    ∃ t ∈ ts, t.start ≤ before.utf8ByteSize ∧ (before ++ String.singleton c).utf8ByteSize ≤ t.stop

/-! ## Tokens and lexemes -/

theorem utf8ByteSize_ofList (cs : List Char) : (String.ofList cs).utf8ByteSize = byteLength cs := by
  induction cs with
  | nil => rfl
  | cons c cs ih =>
      have hcons : String.ofList (c :: cs) = String.singleton c ++ String.ofList cs := by
        rw [String.singleton_eq_ofList, ← String.ofList_append, List.singleton_append]
      rw [hcons, String.utf8ByteSize_append, String.utf8ByteSize_singleton, ih, byteLength_cons]

theorem byteLength_toList (s : String) : byteLength s.toList = s.utf8ByteSize := by
  rw [← utf8ByteSize_ofList, String.ofList_toList]

/-- A token says what the lexeme with its source says. -/
theorem content_source (t : Token) : Lexeme.content ⟨t.kind, t.source.toList⟩ = t.text.toList := by
  cases hkind : t.kind <;> simp [Lexeme.content, source, hkind]

/-- The source of a maximal lexeme's token is its spelling. -/
theorem source_ofLexeme {l : Lexeme} {rest : List Char} (offset : Nat)
    (h : Lexeme.IsMaximal l.kind l.spelling rest) :
    (ofLexeme l offset).source.toList = l.spelling := by
  obtain ⟨kind, spelling⟩ := l
  cases h <;> simp [source, ofLexeme, Lexeme.content]

/-! ## Tokens of characters that start at a byte -/

/-- A token as `StandsIn` has it, for characters that start at a byte. -/
def CutAt (offset : Nat) (cs : List Char) (t : Token) : Prop :=
  ∃ before after : List Char, cs = before ++ (t.source.toList ++ after) ∧
    t.start = offset + byteLength before ∧ t.stop = t.start + byteLength t.source.toList ∧
    Lexeme.IsMaximal t.kind t.source.toList after

/-- The tokens as `Tokenizes` has them, for characters that start at a byte. -/
structure Cuts (offset : Nat) (cs : List Char) (ts : List Token) : Prop where
  cutAt : ∀ t ∈ ts, t.CutAt offset cs
  separated : ts.Pairwise (fun t u => t.stop ≤ u.start)
  covered : ∀ before c after, cs = before ++ c :: after → Text.isBlank c = false →
    ∃ t ∈ ts, t.start ≤ offset + byteLength before ∧
      offset + byteLength before + c.utf8Size ≤ t.stop

theorem byteLength_pos {cs : List Char} (h : cs ≠ []) : 0 < byteLength cs := by
  obtain ⟨c, cs, rfl⟩ := List.exists_cons_of_ne_nil h
  have hc := c.utf8Size_pos
  rw [byteLength_cons]
  omega

theorem source_ne_nil {t : Token} {after : List Char}
    (h : Lexeme.IsMaximal t.kind t.source.toList after) : t.source.toList ≠ [] := by
  obtain ⟨c, cs, hcons, _⟩ := h.exists_cons
  simp [hcons]

theorem CutAt.bounds {offset : Nat} {cs : List Char} {t : Token} (h : t.CutAt offset cs) :
    offset ≤ t.start ∧ t.start < t.stop := by
  obtain ⟨before, after, _, hstart, hstop, hmaximal⟩ := h
  have hpos := byteLength_pos (source_ne_nil hmaximal)
  omega

/-- What goes as far as a prefix does has this prefix in front. -/
theorem exists_append_of_byteLength_le {cs ds before rest : List Char}
    (h : cs ++ rest = before ++ ds) (hle : byteLength cs ≤ byteLength before) :
    ∃ between, before = cs ++ between ∧ rest = between ++ ds := by
  rcases List.append_eq_append_iff.mp h with ⟨between, hbefore, hrest⟩ | ⟨between, hcs, hds⟩
  · exact ⟨between, hbefore, hrest⟩
  · -- `before` is the shorter one, so the two are the same.
    cases between with
    | nil => exact ⟨[], by simpa using hcs.symm, by simpa using hds.symm⟩
    | cons c between =>
        have hpos := byteLength_pos (List.cons_ne_nil c between)
        rw [hcs, byteLength_append] at hle
        omega

/-! ## One step of the scan -/

theorem cuts_nil_iff {offset : Nat} {ts : List Token} : Cuts offset [] ts ↔ ts = [] := by
  constructor
  · intro h
    refine List.eq_nil_iff_forall_not_mem.mpr fun t ht => ?_
    obtain ⟨before, after, hcs, _, _, hmaximal⟩ := h.cutAt t ht
    obtain ⟨hsource, -⟩ := List.append_eq_nil_iff.mp (List.append_eq_nil_iff.mp hcs.symm).2
    exact source_ne_nil hmaximal hsource
  · rintro rfl
    exact ⟨by simp, .nil, by simp⟩

/-- A token that starts behind the first characters is one of the rest. -/
theorem cutAt_append_iff {offset : Nat} {front rest : List Char} {t : Token}
    (h : offset + byteLength front ≤ t.start) :
    t.CutAt offset (front ++ rest) ↔ t.CutAt (offset + byteLength front) rest := by
  constructor
  · rintro ⟨before, after, hcs, hstart, hstop, hmaximal⟩
    obtain ⟨between, rfl, hrest⟩ := exists_append_of_byteLength_le hcs (by omega)
    rw [byteLength_append] at hstart
    exact ⟨between, after, hrest, by omega, hstop, hmaximal⟩
  · rintro ⟨before, after, rfl, hstart, hstop, hmaximal⟩
    refine ⟨front ++ before, after, by rw [List.append_assoc], ?_, hstop, hmaximal⟩
    rw [byteLength_append]
    omega

theorem ofLexeme_cutAt {offset : Nat} {rest : List Char} {l : Lexeme}
    (h : Lexeme.IsMaximal l.kind l.spelling rest) :
    (ofLexeme l offset).CutAt offset (l.spelling ++ rest) := by
  have hsource := source_ofLexeme offset h
  refine ⟨[], rest, by rw [hsource, List.nil_append], rfl, by rw [hsource]; rfl, ?_⟩
  rw [hsource]
  exact h

/-- No token begins with white space. -/
theorem cutAt_blank_iff {offset : Nat} {c : Char} {cs : List Char} {t : Token}
    (hblank : Text.isBlank c = true) :
    t.CutAt offset (c :: cs) ↔ t.CutAt (offset + c.utf8Size) cs := by
  have hbehind : offset + c.utf8Size ≤ t.start →
      (t.CutAt offset (c :: cs) ↔ t.CutAt (offset + c.utf8Size) cs) :=
    @cutAt_append_iff offset [c] cs t
  constructor
  · intro h
    have ⟨before, after, hcs, hstart, _, hmaximal⟩ := h
    cases before with
    | nil =>
        obtain ⟨d, ds, hsource, hd⟩ := hmaximal.exists_cons
        rw [hsource] at hcs
        obtain ⟨rfl, -⟩ := List.cons.inj hcs
        rw [hblank] at hd
        cases hd
    | cons d before =>
        obtain ⟨rfl, -⟩ := List.cons.inj hcs
        rw [byteLength_cons] at hstart
        exact (hbehind (by omega)).mp h
  · intro h
    exact (hbehind h.bounds.1).mpr h

theorem cuts_blank_iff {offset : Nat} {c : Char} {cs : List Char} {ts : List Token}
    (hblank : Text.isBlank c = true) :
    Cuts offset (c :: cs) ts ↔ Cuts (offset + c.utf8Size) cs ts := by
  constructor
  · intro h
    refine ⟨fun t ht => (cutAt_blank_iff hblank).mp (h.cutAt t ht), h.separated, ?_⟩
    rintro before d after rfl hd
    obtain ⟨t, ht, hstart, hstop⟩ := h.covered (c :: before) d after rfl hd
    rw [byteLength_cons] at hstart hstop
    exact ⟨t, ht, by omega, by omega⟩
  · intro h
    refine ⟨fun t ht => (cutAt_blank_iff hblank).mpr (h.cutAt t ht), h.separated, ?_⟩
    intro before d after hcs hd
    cases before with
    | nil =>
        obtain ⟨rfl, -⟩ := List.cons.inj hcs
        rw [hblank] at hd
        cases hd
    | cons e before =>
        obtain ⟨rfl, rfl⟩ := List.cons.inj hcs
        obtain ⟨t, ht, hstart, hstop⟩ := h.covered before d after rfl hd
        rw [byteLength_cons]
        exact ⟨t, ht, by omega, by omega⟩

/-- What is not white space is the first character of the first token, and this is the lexeme read
    there. -/
theorem Cuts.exists_first {offset : Nat} {c : Char} {cs : List Char} {ts : List Token}
    (h : Cuts offset (c :: cs) ts) (hc : Text.isBlank c = false) :
    ∃ l rest us, Lexeme.read? (c :: cs) = some (l, rest) ∧ ts = ofLexeme l offset :: us := by
  obtain ⟨t, ht, hle, _⟩ := h.covered [] c cs rfl hc
  obtain ⟨before, after, hcs, hstart, hstop, hmaximal⟩ := h.cutAt t ht
  have hbefore : before = [] := by
    cases before with
    | nil => rfl
    | cons d before =>
        have hpos := byteLength_pos (List.cons_ne_nil d before)
        rw [byteLength_nil] at hle
        omega
  subst hbefore
  rw [byteLength_nil, Nat.add_zero] at hstart
  rw [List.nil_append] at hcs
  have hread := Lexeme.read?_of_isMaximal hmaximal
  rw [← hcs] at hread
  have hlexeme : t = ofLexeme ⟨t.kind, t.source.toList⟩ offset := by
    rw [ofLexeme, content_source, String.ofList_toList, ← hstart, ← hstop]
  cases ts with
  | nil => cases ht
  | cons u us =>
      rcases List.mem_cons.mp ht with rfl | hmem
      · exact ⟨_, _, us, hread, by rw [← hlexeme]⟩
      · -- A token before this one would end before the characters begin.
        have hbounds := (h.cutAt u List.mem_cons_self).bounds
        have hseparated : u.stop ≤ t.start := (List.pairwise_cons.mp h.separated).1 t hmem
        omega

/-- Behind the first lexeme the tokens are those of the rest. -/
theorem Cuts.behind {offset : Nat} {l : Lexeme} {rest : List Char} {us : List Token}
    (h : Cuts offset (l.spelling ++ rest) (ofLexeme l offset :: us)) :
    Cuts (offset + byteLength l.spelling) rest us := by
  obtain ⟨hbehind, hseparated⟩ := List.pairwise_cons.mp h.separated
  refine ⟨fun u hu => ?_, hseparated, ?_⟩
  · exact (cutAt_append_iff (hbehind u hu)).mp (h.cutAt u (List.mem_cons_of_mem _ hu))
  · rintro before c after rfl hc
    obtain ⟨u, hu, hstart, hstop⟩ := h.covered (l.spelling ++ before) c after
      (by rw [List.append_assoc]) hc
    rw [byteLength_append] at hstart hstop
    rcases List.mem_cons.mp hu with rfl | hu
    · -- The lexeme ends where the rest begins.
      have hpos := c.utf8Size_pos
      have hend : (ofLexeme l offset).stop = offset + byteLength l.spelling := rfl
      omega
    · exact ⟨u, hu, by omega, by omega⟩

/-- A maximal lexeme is one more token in front. -/
theorem Cuts.cons {offset : Nat} {l : Lexeme} {rest : List Char} {us : List Token}
    (hmaximal : Lexeme.IsMaximal l.kind l.spelling rest)
    (h : Cuts (offset + byteLength l.spelling) rest us) :
    Cuts offset (l.spelling ++ rest) (ofLexeme l offset :: us) := by
  have hbehind : ∀ u ∈ us, offset + byteLength l.spelling ≤ u.start :=
    fun u hu => (h.cutAt u hu).bounds.1
  refine ⟨fun t ht => ?_, List.pairwise_cons.mpr ⟨hbehind, h.separated⟩, ?_⟩
  · rcases List.mem_cons.mp ht with rfl | hu
    · exact ofLexeme_cutAt hmaximal
    · exact (cutAt_append_iff (hbehind t hu)).mpr (h.cutAt t hu)
  · intro before c after hcs hc
    rcases List.append_eq_append_iff.mp hcs with
      ⟨between, rfl, hrest⟩ | ⟨between, hspelling, hafter⟩
    -- The character stands behind the lexeme.
    · obtain ⟨u, hu, hstart, hstop⟩ := h.covered between c after hrest hc
      rw [byteLength_append]
      exact ⟨u, List.mem_cons_of_mem _ hu, by omega, by omega⟩
    · cases between with
      | nil =>
          obtain ⟨u, hu, hstart, hstop⟩ := h.covered [] c after hafter.symm hc
          rw [List.append_nil] at hspelling
          rw [hspelling, byteLength_nil] at hstart hstop
          exact ⟨u, List.mem_cons_of_mem _ hu, by omega, by omega⟩
      -- The character belongs to the lexeme.
      | cons d between =>
          obtain ⟨rfl, -⟩ := List.cons.inj hafter
          refine ⟨ofLexeme l offset, List.mem_cons_self, Nat.le_add_right _ _, ?_⟩
          show _ ≤ offset + byteLength l.spelling
          rw [hspelling, byteLength_append, byteLength_cons]
          omega

theorem cuts_lexeme_iff {offset : Nat} {c : Char} {cs rest : List Char} {l : Lexeme}
    {ts : List Token} (hc : Text.isBlank c = false)
    (hread : Lexeme.read? (c :: cs) = some (l, rest)) :
    Cuts offset (c :: cs) ts ↔
      ∃ us, ts = ofLexeme l offset :: us ∧ Cuts (offset + byteLength l.spelling) rest us := by
  obtain ⟨happend, hmaximal⟩ := Lexeme.read?_eq_some_iff.mp hread
  constructor
  · intro h
    obtain ⟨l', rest', us, hread', rfl⟩ := h.exists_first hc
    rw [hread] at hread'
    cases hread'
    rw [← happend] at h
    exact ⟨us, rfl, h.behind⟩
  · rintro ⟨us, rfl, h⟩
    rw [← happend]
    exact h.cons hmaximal

/-! ## The whole scan -/

theorem scanFrom_eq_ok_iff_cuts (offset : Nat) (cs : List Char) (ts : List Token) :
    scanFrom offset cs = .ok ts ↔ Cuts offset cs ts := by
  induction offset, cs using scanFrom.induct generalizing ts with
  | case1 offset =>
      rw [scanFrom_nil, cuts_nil_iff, Except.ok.injEq]
      exact eq_comm
  | case2 offset c cs hblank ih => rw [scanFrom_blank cs hblank, ih, cuts_blank_iff hblank]
  | case3 offset c cs hblank hread =>
      have hc : Text.isBlank c = false := Bool.eq_false_iff.mpr hblank
      rw [scanFrom_error hc hread]
      constructor
      · intro h
        cases h
      · intro h
        obtain ⟨l, rest, us, hread', _⟩ := h.exists_first hc
        rw [hread] at hread'
        cases hread'
  | case4 offset c cs hblank l rest hread _ ih =>
      have hc : Text.isBlank c = false := Bool.eq_false_iff.mpr hblank
      rw [scanFrom_lexeme hc hread, cuts_lexeme_iff hc hread]
      constructor
      · intro h
        cases hus : scanFrom (offset + byteLength l.spelling) rest with
        | error e =>
            rw [hus] at h
            cases h
        | ok us =>
            rw [hus] at h
            cases h
            exact ⟨us, rfl, (ih us).mp hus⟩
      · rintro ⟨us, rfl, hus⟩
        rw [(ih us).mpr hus]
        rfl

/-! ## Strings -/

theorem standsIn_iff_cutAt {formula : String} {t : Token} :
    t.StandsIn formula ↔ t.CutAt 0 formula.toList := by
  constructor
  · rintro ⟨before, after, rfl, hstart, hstop, hmaximal⟩
    rw [String.utf8ByteSize_append, ← hstart] at hstop
    refine ⟨before.toList, after.toList, ?_, ?_, ?_, hmaximal⟩
    · rw [String.toList_append, String.toList_append, List.append_assoc]
    · rw [hstart, byteLength_toList, Nat.zero_add]
    · rw [hstop, byteLength_toList]
  · rintro ⟨before, after, hformula, hstart, hstop, hmaximal⟩
    rw [Nat.zero_add, ← utf8ByteSize_ofList] at hstart
    refine ⟨String.ofList before, String.ofList after, ?_, hstart, ?_, ?_⟩
    · rw [← String.toList_inj, hformula]
      simp
    · rw [String.utf8ByteSize_append, ← hstart, hstop, byteLength_toList]
    · rw [String.toList_ofList]
      exact hmaximal

theorem tokenizes_iff_cuts {formula : String} {ts : List Token} :
    Tokenizes formula ts ↔ Cuts 0 formula.toList ts := by
  constructor
  · intro h
    refine ⟨fun t ht => standsIn_iff_cutAt.mp (h.standsIn t ht), h.separated, ?_⟩
    intro before c after hformula hc
    obtain ⟨t, ht, hstart, hstop⟩ := h.covered (String.ofList before) c (String.ofList after)
      (by rw [← String.toList_inj, hformula]; simp) hc
    rw [String.utf8ByteSize_append, String.utf8ByteSize_singleton] at hstop
    rw [utf8ByteSize_ofList] at hstart hstop
    exact ⟨t, ht, by omega, by omega⟩
  · intro h
    refine ⟨fun t ht => standsIn_iff_cutAt.mpr (h.cutAt t ht),
      fun t ht => (h.cutAt t ht).bounds.2, h.separated, ?_⟩
    rintro before c after rfl hc
    obtain ⟨t, ht, hstart, hstop⟩ := h.covered before.toList c after.toList (by simp) hc
    rw [byteLength_toList] at hstart hstop
    rw [String.utf8ByteSize_append, String.utf8ByteSize_singleton]
    exact ⟨t, ht, by omega, by omega⟩

/-- The scan finds the one list of tokens that a formula has, and fails if there is none. -/
theorem scan_eq_ok_iff_tokenizes (formula : String) :
    (∀ ts, scan formula = .ok ts ↔ Tokenizes formula ts) ∧
      ∀ ts us, Tokenizes formula ts → Tokenizes formula us → ts = us := by
  have hscan : ∀ ts, scan formula = .ok ts ↔ Tokenizes formula ts := by
    intro ts
    rw [scan, scanFrom_eq_ok_iff_cuts, tokenizes_iff_cuts]
  refine ⟨hscan, fun ts us hts hus => ?_⟩
  have hok : Except.ok ts = (Except.ok us : Except Error (List Token)) := by
    rw [← (hscan ts).mpr hts, ← (hscan us).mpr hus]
  exact Except.ok.inj hok

/-! ## Tokens are spelled as their kinds are -/

/-- Somewhere the token's source is a lexeme of the token's kind. -/
def WellSpelled (t : Token) : Prop := ∃ after, Lexeme.IsMaximal t.kind t.source.toList after

theorem wellSpelled_of_scan {formula : String} {ts : List Token} (h : scan formula = .ok ts) :
    ∀ t ∈ ts, t.WellSpelled := by
  intro t ht
  obtain ⟨_, after, _, _, _, hmaximal⟩ := ((scanFrom_eq_ok_iff_cuts _ _ ts).mp h).cutAt t ht
  exact ⟨after, hmaximal⟩

end Token

end SheetFormula
