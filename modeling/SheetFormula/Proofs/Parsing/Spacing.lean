/-
  SheetFormula.Proofs.Parsing.Spacing

  White space between tokens.  White space ends every lexeme and belongs to
  none, so what stands before and behind it is cut as if it stood alone
  (`scanFrom_spaced`).  A text can be taken apart wherever no token goes across
  (`exists_of_scanFrom_append`), and there white space may be put in without
  any other effect than that the tokens behind it move
  (`exists_sameFaces_of_insert`).  Main statement: `scan_spaced`.
-/
import SheetFormula.Proofs.Parsing.Composition
import SheetFormula.Proofs.Tokens.Spans

namespace SheetFormula

namespace Token

variable {offset : Nat} {cs ds ws : List Char} {ts us : List Token}

/-! ## White space behind a text -/

/-- In front of white space a text yields the tokens that it has by itself. -/
theorem yields_spaced (h : scanFrom offset cs = .ok ts) (hne : ws ≠ [])
    (hblank : Text.isAllBlank ws = true) : Yields offset (cs ++ ws) ds ts := by
  obtain ⟨c, behind, rfl⟩ := List.exists_cons_of_ne_nil hne
  have hc : Text.isBlank c = true := List.all_eq_true.mp hblank c List.mem_cons_self
  have hcut : Yields offset cs (c :: behind ++ ds) ts :=
    yields_of_scanFrom h fun t _ _ => TokenKind.stopsBefore_blank hc (behind ++ ds) t.kind
  have hspace : Yields (offset + byteLength cs) (c :: behind) ds [] := yields_of_isAllBlank hblank
  have hboth := hcut.append hspace
  rw [List.append_nil] at hboth
  exact hboth

/-- Behind white space the tokens of the second text are what they are in the text alone. -/
theorem scanFrom_spaced (h : scanFrom offset cs = .ok ts) (hne : ws ≠ [])
    (hblank : Text.isAllBlank ws = true) (hds : scanFrom 0 ds = .ok us) :
    scanFrom offset (cs ++ ws ++ ds) =
      .ok (ts ++ us.map (shift (offset + byteLength (cs ++ ws)))) := by
  have hmoved := scanFrom_shift (offset + byteLength (cs ++ ws)) hds
  rw [Nat.add_zero] at hmoved
  rw [yields_spaced h hne hblank, hmoved]
  rfl

/-- Behind white space the second text is refused where it is refused alone. -/
theorem scanFrom_spaced_error (h : scanFrom offset cs = .ok ts) (hne : ws ≠ [])
    (hblank : Text.isAllBlank ws = true) {e : Error} (hds : scanFrom 0 ds = .error e) :
    ∃ place c, e = .unexpectedCharacter place c ∧
      scanFrom offset (cs ++ ws ++ ds) =
        .error (.unexpectedCharacter (offset + byteLength (cs ++ ws) + place) c) := by
  obtain ⟨place, c, rfl, hmoved⟩ := scanFrom_shift_error (offset + byteLength (cs ++ ws)) hds
  rw [Nat.add_zero] at hmoved
  exact ⟨place, c, rfl, (yields_spaced h hne hblank).scanFrom_eq_error hmoved⟩

/-! ## White space between two tokens -/

/-- No token goes across the place. -/
def NoneAcross (ts : List Token) (place : Nat) : Prop :=
  ∀ t ∈ ts, t.stop ≤ place ∨ place ≤ t.start

/-- A text is cut in two parts, each by itself, where no token goes across. -/
theorem exists_of_scanFrom_append (h : scanFrom offset (cs ++ ds) = .ok ts)
    (hacross : NoneAcross ts (offset + byteLength cs)) :
    ∃ us vs, ts = us ++ vs ∧ scanFrom offset cs = .ok us ∧
      scanFrom (offset + byteLength cs) ds = .ok vs := by
  -- Along the scan of the whole; each step takes white space or a lexeme off the first part, until
  -- this part is used up.
  generalize hinput : cs ++ ds = input at h
  induction offset, input using scanFrom.induct generalizing cs ts with
  | case1 offset =>
      obtain ⟨rfl, rfl⟩ := List.append_eq_nil_iff.mp hinput
      exact ⟨[], ts, rfl, scanFrom_nil offset, h⟩
  | case2 offset c input hblank ih =>
      cases cs with
      | nil =>
          rw [List.nil_append] at hinput
          exact ⟨[], ts, rfl, scanFrom_nil offset, by rwa [hinput]⟩
      | cons d cs =>
          obtain ⟨rfl, hrest⟩ := List.cons.inj hinput
          rw [scanFrom_blank input hblank] at h
          rw [byteLength_cons, ← Nat.add_assoc] at hacross ⊢
          rw [scanFrom_blank cs hblank]
          exact ih hacross hrest h
  | case3 offset c input hblank hread =>
      rw [scanFrom_error (Bool.eq_false_iff.mpr hblank) hread] at h
      cases h
  | case4 offset c input hblank l rest hread _ ih =>
      cases cs with
      | nil =>
          rw [List.nil_append] at hinput
          exact ⟨[], ts, rfl, scanFrom_nil offset, by rwa [hinput]⟩
      | cons d cs =>
          obtain ⟨ts, hrest, rfl⟩ := exists_of_scanFrom_lexeme (Bool.eq_false_iff.mpr hblank) hread h
          obtain ⟨happend, hmaximal⟩ := Lexeme.read?_eq_some_iff.mp hread
          -- The lexeme starts in the first part, so it ends there too.
          have hwithin : byteLength l.spelling ≤ byteLength (d :: cs) := by
            have hpos := byteLength_pos (List.cons_ne_nil d cs)
            have hends : offset + byteLength l.spelling ≤ offset + byteLength (d :: cs) ∨
                offset + byteLength (d :: cs) ≤ offset :=
              hacross (ofLexeme l offset) List.mem_cons_self
            omega
          obtain ⟨between, hfirst, rfl⟩ :=
            exists_append_of_byteLength_le (happend.trans hinput.symm) hwithin
          rw [hfirst, byteLength_append, ← Nat.add_assoc] at hacross
          obtain ⟨us, vs, rfl, hus, hvs⟩ :=
            ih (fun t ht => hacross t (List.mem_cons_of_mem _ ht)) rfl hrest
          refine ⟨ofLexeme l offset :: us, vs, rfl, ?_, ?_⟩
          · rw [hfirst, yields_lexeme hmaximal.of_append, hus]
            rfl
          · rw [hfirst, byteLength_append, ← Nat.add_assoc]
            exact hvs

/-- Where no token goes across, white space may be put in. -/
theorem exists_sameFaces_of_insert (h : scanFrom offset (cs ++ ds) = .ok ts)
    (hacross : NoneAcross ts (offset + byteLength cs)) (hblank : Text.isAllBlank ws = true) :
    ∃ us, scanFrom offset (cs ++ ws ++ ds) = .ok us ∧ SameFaces us ts := by
  by_cases hne : ws = []
  · subst hne
    rw [List.append_nil]
    exact ⟨ts, h, sameFaces_iff.mpr rfl⟩
  · obtain ⟨us, vs, rfl, hus, hvs⟩ := exists_of_scanFrom_append h hacross
    have hmoved := scanFrom_shift (byteLength ws) hvs
    have hplace : offset + byteLength (cs ++ ws) = byteLength ws + (offset + byteLength cs) := by
      rw [byteLength_append]
      omega
    refine ⟨us ++ vs.map (shift (byteLength ws)), ?_, ?_⟩
    · rw [yields_spaced hus hne hblank, hplace, hmoved]
      rfl
    · rw [sameFaces_iff, List.map_append, List.map_append,
        sameFaces_iff.mp (sameFaces_shift (byteLength ws) vs)]

/-- Of two tokens of a text one ends before the other starts, unless they are the same. -/
theorem Cuts.eq_or_separated (h : Cuts offset cs ts) {t u : Token} (ht : t ∈ ts) (hu : u ∈ ts) :
    t = u ∨ t.stop ≤ u.start ∨ u.stop ≤ t.start := by
  obtain ⟨front, behind, rfl⟩ := List.append_of_mem ht
  obtain ⟨-, hbehind, hfront⟩ := List.pairwise_append.mp h.separated
  rcases List.mem_append.mp hu with hu | hu
  · exact .inr (.inr (hfront u hu t List.mem_cons_self))
  · rcases List.mem_cons.mp hu with rfl | hu
    · exact .inl rfl
    · exact .inr (.inl ((List.pairwise_cons.mp hbehind).1 u hu))

theorem Cuts.noneAcross_start (h : Cuts offset cs ts) {t : Token} (ht : t ∈ ts) :
    NoneAcross ts t.start := by
  intro u hu
  rcases h.eq_or_separated ht hu with rfl | hle | hle
  · exact .inr (Nat.le_refl _)
  · have hbounds := (h.cutAt t ht).bounds
    exact .inr (by omega)
  · exact .inl hle

theorem Cuts.noneAcross_stop (h : Cuts offset cs ts) {t : Token} (ht : t ∈ ts) :
    NoneAcross ts t.stop := by
  intro u hu
  rcases h.eq_or_separated ht hu with rfl | hle | hle
  · exact .inl (Nat.le_refl _)
  · exact .inr hle
  · have hbounds := (h.cutAt t ht).bounds
    exact .inl (by omega)

/-! ## Strings -/

/-- The second formula has the tokens of the first, but for the bytes that they span, and stands for
    the same expression or cannot be parsed for the same reason. -/
structure ReadsAs (formula other : String) : Prop where
  scan : ∃ ts us, scan formula = .ok ts ∧ scan other = .ok us ∧ us.map face = ts.map face
  parse : Expr.parse other = Expr.parse formula

theorem readsAs_of_insert {before after w : String} (h : scan (before ++ after) = .ok ts)
    (hacross : NoneAcross ts before.utf8ByteSize) (hblank : Text.isAllBlank w.toList = true) :
    ReadsAs (before ++ after) (before ++ w ++ after) := by
  have hchars : scanFrom 0 (before.toList ++ after.toList) = .ok ts := by
    rw [← String.toList_append]
    exact h
  rw [← byteLength_toList, ← Nat.zero_add (byteLength _)] at hacross
  obtain ⟨us, hus, hfaces⟩ := exists_sameFaces_of_insert hchars hacross hblank
  have hspaced : scan (before ++ w ++ after) = .ok us := by
    rw [scan, String.toList_append, String.toList_append]
    exact hus
  refine ⟨⟨ts, us, h, hspaced, sameFaces_iff.mp hfaces⟩, ?_⟩
  have hsame : Expr.ofTokens us = Expr.ofTokens ts := Expr.ofTokens_eq_of_sameFaces hfaces
  rw [Expr.parse, Expr.parse, h, hspaced]
  exact hsame

/-- White space between two texts keeps them apart: the tokens are those of the first and, moved,
    those of the second, and what is refused in the second alone is refused.  And white space around
    a token of a text changes neither the tokens nor the expression. -/
theorem scan_spaced {a : String} (ha : scan a = .ok ts) :
    (∀ w b : String, w ≠ "" → Text.isAllBlank w.toList = true →
      (∀ us, scan b = .ok us →
        scan (a ++ w ++ b) = .ok (ts ++ us.map (shift (a ++ w).utf8ByteSize))) ∧
      ∀ e, scan b = .error e → ∃ place c, e = .unexpectedCharacter place c ∧
        scan (a ++ w ++ b) = .error (.unexpectedCharacter ((a ++ w).utf8ByteSize + place) c)) ∧
    ∀ t ∈ ts, ∃ before after : String, a = before ++ t.source ++ after ∧
      t.start = before.utf8ByteSize ∧ t.stop = (before ++ t.source).utf8ByteSize ∧
      ∀ w : String, Text.isAllBlank w.toList = true →
        ReadsAs a (before ++ w ++ t.source ++ after) ∧
          ReadsAs a (before ++ t.source ++ w ++ after) := by
  constructor
  · intro w b hne hblank
    have hw : w.toList ≠ [] := fun hnil => hne (String.toList_eq_nil_iff.mp hnil)
    have hplace : 0 + byteLength (a.toList ++ w.toList) = (a ++ w).utf8ByteSize := by
      rw [Nat.zero_add, ← String.toList_append, byteLength_toList]
    have hjoined : (a ++ w ++ b).toList = a.toList ++ w.toList ++ b.toList := by
      rw [String.toList_append, String.toList_append]
    constructor
    · intro us hb
      have hspaced := scanFrom_spaced ha hw hblank hb
      rwa [hplace, ← hjoined] at hspaced
    · intro e hb
      obtain ⟨place, c, rfl, hspaced⟩ := scanFrom_spaced_error ha hw hblank hb
      rw [hplace, ← hjoined] at hspaced
      exact ⟨place, c, rfl, hspaced⟩
  · intro t ht
    have hcuts : Cuts 0 a.toList ts := (scanFrom_eq_ok_iff_cuts 0 a.toList ts).mp ha
    obtain ⟨before, after, rfl, hstart, hstop, -⟩ := standsIn_iff_cutAt.mpr (hcuts.cutAt t ht)
    refine ⟨before, after, rfl, hstart, hstop, fun w hblank => ⟨?_, ?_⟩⟩
    · have hacross := hcuts.noneAcross_start ht
      rw [hstart] at hacross
      have hfront : ∀ s : String, s ++ t.source ++ after = s ++ (t.source ++ after) :=
        fun s => String.append_assoc
      rw [hfront before] at ha ⊢
      rw [hfront (before ++ w)]
      exact readsAs_of_insert ha hacross hblank
    · have hacross := hcuts.noneAcross_stop ht
      rw [hstop] at hacross
      exact readsAs_of_insert ha hacross hblank

/-- White space keeps the characters of `>=` apart, and can be put around the sign that is left. -/
theorem scan_spaced_greater :
    scan "x>" = .ok [⟨.identifier, "x", 0, 1⟩, ⟨.operator, ">", 1, 2⟩] ∧
      (scan "=1" = .ok [⟨.operator, "=", 0, 1⟩, ⟨.number, "1", 1, 2⟩] ∧
        scan ("x>" ++ "\u2003" ++ "=1") =
          .ok ([⟨.identifier, "x", 0, 1⟩, ⟨.operator, ">", 1, 2⟩] ++
            [⟨.operator, "=", 0, 1⟩, ⟨.number, "1", 1, 2⟩].map
              (shift ("x>" ++ "\u2003").utf8ByteSize))) ∧
      (scan "1." = .error (.unexpectedCharacter 1 '.') ∧
        ∃ place c, Error.unexpectedCharacter 1 '.' = .unexpectedCharacter place c ∧
          scan ("x>" ++ "\u2003" ++ "1.") =
            .error (.unexpectedCharacter (("x>" ++ "\u2003").utf8ByteSize + place) c)) ∧
      ∃ before after : String, "x>" = before ++ ">" ++ after ∧ 1 = before.utf8ByteSize ∧
        2 = (before ++ ">").utf8ByteSize ∧
        ReadsAs "x>" (before ++ "\n\u2003" ++ ">" ++ after) ∧
          ReadsAs "x>" (before ++ ">" ++ "\n\u2003" ++ after) := by
  have ha : scan "x>" = .ok [⟨.identifier, "x", 0, 1⟩, ⟨.operator, ">", 1, 2⟩] := by decide +kernel
  have hb : scan "=1" = .ok [⟨.operator, "=", 0, 1⟩, ⟨.number, "1", 1, 2⟩] := by decide +kernel
  have hrefused : scan "1." = .error (.unexpectedCharacter 1 '.') := by decide +kernel
  obtain ⟨hbetween, haround⟩ := scan_spaced ha
  obtain ⟨before, after, htext, hstart, hstop, hinsert⟩ :=
    haround ⟨.operator, ">", 1, 2⟩ (by decide)
  exact ⟨ha, ⟨hb, (hbetween "\u2003" "=1" (by decide) (by decide)).1 _ hb⟩,
    ⟨hrefused, (hbetween "\u2003" "1." (by decide) (by decide)).2 _ hrefused⟩,
    before, after, htext, hstart, hstop, hinsert "\n\u2003" (by decide)⟩

end Token

end SheetFormula
