/-
  SheetFormula.Proofs.Tokens.LetterCase

  Letters in the other case.  Where a text is cut into tokens does not depend on
  the case of its letters below the letters with marks, because each of them may
  stand in a name wherever its other form may, and none has another part to play
  (`IsMaximal.of_sameLetters`).  Main statement: a text in which letters have
  changed at some bytes has the same tokens, but for the letters of tokens that
  span one of these bytes (`exists_scanFrom_of_sameBut`).
-/
import Mathlib.Data.List.Forall2
import SheetFormula.Proofs.Texts.Ascii
import SheetFormula.Proofs.Tokens.Joining
import SheetFormula.Proofs.Tokens.Spans

namespace SheetFormula

namespace Text

/-! ## Characters and their small forms -/

/-- The characters are the same but for the case of letters below those with marks. -/
abbrev SameLetters (cs ds : List Char) : Prop :=
  List.Forall₂ (fun c d => c.toLower = d.toLower) cs ds

/-- Only letters have the small form of another character. -/
theorem eq_or_isAlpha_of_toLower {c d : Char} (h : c.toLower = d.toLower) :
    c = d ∨ c.isAlpha = true ∧ d.isAlpha = true := by
  -- The one that is no capital is its own small form, and the small form of the other.
  have hcapital {c : Char} (hc : c.isUpper = true) : c.isAlpha = true :=
    Bool.or_eq_true_iff.mpr (.inl hc)
  have hsmall {c d : Char} (hc : c.isUpper = true) (hd : d.isUpper = false)
      (h : c.toLower = d.toLower) : c.isAlpha = true ∧ d.isAlpha = true := by
    have hlower := isLower_toLower (hcapital hc)
    rw [h, toLower_of_isUpper_eq_false hd] at hlower
    exact ⟨hcapital hc, Bool.or_eq_true_iff.mpr (.inr hlower)⟩
  cases hc : c.isUpper with
  | true =>
      cases hd : d.isUpper with
      | true => exact .inr ⟨hcapital hc, hcapital hd⟩
      | false => exact .inr (hsmall hc hd h)
  | false =>
      cases hd : d.isUpper with
      | true => exact .inr (hsmall hd hc h.symm).symm
      | false =>
          rw [toLower_of_isUpper_eq_false hc, toLower_of_isUpper_eq_false hd] at h
          exact .inl h

/-- A test that does not tell letters apart does not tell them from their other forms. -/
theorem eq_of_toLower (p : Char → Bool) (b : Bool) (hp : ∀ c, c.isAlpha = true → p c = b)
    {c d : Char} (h : c.toLower = d.toLower) : p c = p d := by
  rcases eq_or_isAlpha_of_toLower h with rfl | ⟨hc, hd⟩
  · rfl
  · rw [hp c hc, hp d hd]

theorem isDigit_of_toLower {c d : Char} (h : c.toLower = d.toLower) : c.isDigit = d.isDigit :=
  eq_of_toLower Char.isDigit false (fun _ => isDigit_of_isAlpha) h

theorem isAlpha_of_toLower {c d : Char} (h : c.toLower = d.toLower) : c.isAlpha = d.isAlpha :=
  eq_of_toLower Char.isAlpha true (fun _ hc => hc) h

theorem isBlank_of_toLower {c d : Char} (h : c.toLower = d.toLower) : isBlank c = isBlank d :=
  eq_of_toLower isBlank false (fun _ => isBlank_of_isAlpha) h

theorem isNameChar_of_toLower {c d : Char} (h : c.toLower = d.toLower) :
    Lexeme.isNameChar c = Lexeme.isNameChar d :=
  eq_of_toLower Lexeme.isNameChar true
    (fun c hc => by simp [Lexeme.isNameChar, Char.isAlphanum, hc]) h

theorem utf8Size_of_isAlpha {c : Char} (h : c.isAlpha = true) : c.utf8Size = 1 := by
  have hbounds := toNat_of_isAlpha h
  have hval : c.val ≤ 0x7F := by
    rw [UInt32.le_iff_toNat_le]
    show c.toNat ≤ 127
    omega
  simp [Char.utf8Size, hval]

theorem utf8Size_of_toLower {c d : Char} (h : c.toLower = d.toLower) :
    c.utf8Size = d.utf8Size := by
  rcases eq_or_isAlpha_of_toLower h with rfl | ⟨hc, hd⟩
  · rfl
  · rw [utf8Size_of_isAlpha hc, utf8Size_of_isAlpha hd]

/-- A character that is no letter has no other form. -/
theorem eq_of_toLower_of_isAlpha {c d : Char} (h : c.toLower = d.toLower)
    (hc : c.isAlpha = false) : d = c := by
  rcases eq_or_isAlpha_of_toLower h with rfl | ⟨halpha, _⟩
  · rfl
  · rw [hc] at halpha
    cases halpha

/-! ## Characters one by one -/

theorem SameLetters.eq_of_isAlpha {cs ds : List Char} (h : SameLetters cs ds)
    (hcs : ∀ c ∈ cs, c.isAlpha = false) : ds = cs := by
  induction h with
  | nil => rfl
  | @cons c d cs ds hchar _ ih =>
      rw [eq_of_toLower_of_isAlpha hchar (hcs c List.mem_cons_self),
        ih fun c hc => hcs c (List.mem_cons_of_mem _ hc)]

theorem SameLetters.exists_append {before behind ds : List Char}
    (h : SameLetters (before ++ behind) ds) :
    ∃ before' behind', ds = before' ++ behind' ∧ SameLetters before before' ∧
      SameLetters behind behind' := by
  have hflip : List.Forall₂ (fun d c : Char => c.toLower = d.toLower) ds (before ++ behind) :=
    h.flip
  exact ⟨ds.take before.length, ds.drop before.length, (List.take_append_drop _ ds).symm,
    (List.forall₂_take_append _ _ _ hflip).flip, (List.forall₂_drop_append _ _ _ hflip).flip⟩

theorem SameLetters.forall_mem {p : Char → Bool} {b : Bool} {cs ds : List Char}
    (h : SameLetters cs ds) (hp : ∀ {c d : Char}, c.toLower = d.toLower → p c = p d)
    (hcs : ∀ c ∈ cs, p c = b) : ∀ d ∈ ds, p d = b := by
  intro d hd
  obtain ⟨c, hc, hchar⟩ : ∃ c ∈ cs, c.toLower = d.toLower := by
    induction h with
    | nil => cases hd
    | @cons c d' cs ds hchar _ ih =>
        rcases List.mem_cons.mp hd with rfl | hd
        · exact ⟨c, List.mem_cons_self, hchar⟩
        · obtain ⟨c', hc', hchar'⟩ := ih (fun c hc => hcs c (List.mem_cons_of_mem _ hc)) hd
          exact ⟨c', List.mem_cons_of_mem _ hc', hchar'⟩
  rw [← hp hchar, hcs c hc]

/-- What holds of the first character, if there is one. -/
theorem SameLetters.forall_head? {p : Char → Bool} {b : Bool} {cs ds : List Char}
    (h : SameLetters cs ds) (hp : ∀ {c d : Char}, c.toLower = d.toLower → p c = p d)
    (hcs : ∀ c ∈ cs.head?, p c = b) : ∀ d ∈ ds.head?, p d = b := by
  cases h with
  | nil => exact hcs
  | cons hchar _ =>
      intro d hd
      cases hd
      rw [← hp hchar]
      exact hcs _ rfl

/-- Letter by letter the same text in small letters. -/
theorem SameLetters.lower_eq {s s' : String} (h : SameLetters s.toList s'.toList)
    (hs : ∀ c ∈ s.toList, c.toNat < 128) (hs' : ∀ c ∈ s'.toList, c.toNat < 128) :
    lower s = lower s' := by
  have hmap : s.toList.map Char.toLower = s'.toList.map Char.toLower := by
    rw [← List.forall₂_eq_eq_eq, List.forall₂_map_left_iff, List.forall₂_map_right_iff]
    exact h
  rw [lower_of_ascii hs, lower_of_ascii hs', hmap]

end Text

namespace Lexeme

open Text

variable {kind : TokenKind} {spelling spelling' rest rest' : List Char}

/-! ## Lexemes -/

/-- The case of letters behind a lexeme does not matter to it. -/
theorem IsMaximal.of_sameLetters_behind (h : IsMaximal kind spelling rest)
    (hrest : SameLetters rest rest') : IsMaximal kind spelling rest' := by
  cases h with
  | text hinner => exact .text hinner
  | whole hne hdigits hhead hpoint =>
      refine .whole hne hdigits (hrest.forall_head? isDigit_of_toLower hhead) ?_
      rintro d behind rfl
      cases hrest with
      | @cons c _ cs _ hchar hbehind =>
          cases hbehind with
          | @cons c' _ _ _ hchar' _ =>
              have hc : c = '.' := eq_of_toLower_of_isAlpha hchar.symm (by decide)
              rw [← isDigit_of_toLower hchar']
              exact hpoint c' _ (by rw [hc])
  | fraction hwhole hne hdigits hhead =>
      exact .fraction hwhole hne hdigits (hrest.forall_head? isDigit_of_toLower hhead)
  | identifier hc hcs hhead =>
      exact .identifier hc hcs (hrest.forall_head? isNameChar_of_toLower hhead)
  | pair hc => exact .pair hc
  | single hc => exact .single hc
  | alone hc hhead =>
      refine .alone hc fun hequal => hhead ?_
      cases hrest with
      | nil => cases hequal
      | cons hchar _ =>
          cases hequal
          rw [eq_of_toLower_of_isAlpha hchar.symm (by decide)]
          rfl
  | delimiter hc => exact .delimiter hc

theorem isAlpha_of_operatorChar {c : Char} (h : c ∈ operatorChars) : c.isAlpha = false := by
  simp only [operatorChars, List.mem_cons, List.not_mem_nil, or_false] at h
  rcases h with rfl | rfl | rfl | rfl | rfl | rfl | rfl | rfl | rfl | rfl <;> decide

theorem isAlpha_of_delimiterChar {c : Char} (h : c ∈ delimiterChars) : c.isAlpha = false := by
  simp only [delimiterChars, List.mem_cons, List.not_mem_nil, or_false] at h
  rcases h with rfl | rfl | rfl <;> decide

/-- With its letters in another case a lexeme stays one of its kind. -/
theorem IsMaximal.of_sameLetters (h : IsMaximal kind spelling rest)
    (hspelling : SameLetters spelling spelling') : IsMaximal kind spelling' rest := by
  have hsame : (∀ c ∈ spelling, c.isAlpha = false) → IsMaximal kind spelling' rest := fun hno => by
    rw [hspelling.eq_of_isAlpha hno]
    exact h
  cases h with
  | @text inner _ hinner =>
      cases hspelling with
      | cons hopening htail =>
          obtain ⟨inner', closing, rfl, hinnerSame, hclosing⟩ := SameLetters.exists_append htail
          have hquote {c d : Char} (h : c.toLower = d.toLower) : (c == '"') = (d == '"') :=
            eq_of_toLower (· == '"') false
              (fun c hc => beq_false_of_ne (by rintro rfl; cases hc)) h
          have hnone : ∀ c ∈ inner', (c == '"') = false :=
            hinnerSame.forall_mem hquote fun c hc =>
              beq_false_of_ne fun heq => hinner (heq ▸ hc)
          rw [eq_of_toLower_of_isAlpha hopening (by decide),
            hclosing.eq_of_isAlpha (List.forall_mem_singleton.mpr (by decide))]
          exact .text fun hmem => absurd (hnone _ hmem) (by decide)
  | whole _ hdigits => exact hsame fun c hc => isAlpha_of_isDigit (hdigits c hc)
  | fraction hwhole _ hdigits =>
      refine hsame fun c hc => ?_
      rcases List.mem_append.mp hc with hc | hc
      · exact isAlpha_of_isDigit (hwhole c hc)
      rcases List.mem_cons.mp hc with rfl | hc
      · decide
      · exact isAlpha_of_isDigit (hdigits c hc)
  | identifier hc hcs hhead =>
      cases hspelling with
      | cons hchar hchars =>
          refine .identifier ?_ (SameLetters.forall_mem hchars isNameChar_of_toLower hcs) hhead
          rw [← isAlpha_of_toLower hchar]
          exact hc
  | pair hc =>
      refine hsame (List.forall_mem_cons.mpr ⟨?_, List.forall_mem_singleton.mpr (by decide)⟩)
      exact isAlpha_of_operatorChar (mem_operatorChars.mpr (.inr hc))
  | single hc =>
      refine hsame (List.forall_mem_singleton.mpr ?_)
      exact isAlpha_of_operatorChar (mem_operatorChars.mpr (.inl hc))
  | alone hc =>
      refine hsame (List.forall_mem_singleton.mpr ?_)
      exact isAlpha_of_operatorChar (mem_operatorChars.mpr (.inr hc))
  | delimiter hc => exact hsame (List.forall_mem_singleton.mpr (isAlpha_of_delimiterChar hc))

end Lexeme

namespace Token

open Text

variable {p : Nat → Prop} {offset : Nat} {cs ds : List Char} {ts : List Token}

/-! ## Texts that differ at some bytes only -/

/-- The characters, which start at a byte, are the same but for the case of letters at bytes that
    satisfy `p`. -/
inductive SameBut (p : Nat → Prop) : Nat → List Char → List Char → Prop
  | nil (offset : Nat) : SameBut p offset [] []
  | same {offset : Nat} {c : Char} {cs ds : List Char} :
      SameBut p (offset + c.utf8Size) cs ds → SameBut p offset (c :: cs) (c :: ds)
  | recased {offset : Nat} {c d : Char} {cs ds : List Char} :
      p offset → c.toLower = d.toLower → SameBut p (offset + c.utf8Size) cs ds →
      SameBut p offset (c :: cs) (d :: ds)

theorem SameBut.sameLetters (h : SameBut p offset cs ds) : SameLetters cs ds := by
  induction h with
  | nil => exact .nil
  | same _ ih => exact .cons rfl ih
  | recased _ hchar _ ih => exact .cons hchar ih

/-- Letters keep their size. -/
theorem byteLength_of_sameLetters (h : SameLetters cs ds) : byteLength cs = byteLength ds := by
  induction h with
  | nil => rfl
  | cons hchar _ ih => rw [byteLength_cons, byteLength_cons, utf8Size_of_toLower hchar, ih]

theorem SameBut.exists_append {before behind : List Char}
    (h : SameBut p offset (before ++ behind) ds) :
    ∃ before' behind', ds = before' ++ behind' ∧ SameBut p offset before before' ∧
      SameBut p (offset + byteLength before) behind behind' := by
  induction before generalizing offset ds with
  | nil => exact ⟨[], ds, rfl, .nil offset, h⟩
  | cons c before ih =>
      rw [byteLength_cons, ← Nat.add_assoc]
      cases h with
      | same hrest =>
          obtain ⟨before', behind', rfl, hbefore, hbehind⟩ := ih hrest
          exact ⟨c :: before', behind', rfl, .same hbefore, hbehind⟩
      | @recased _ _ d _ _ hp hchar hrest =>
          obtain ⟨before', behind', rfl, hbefore, hbehind⟩ := ih hrest
          exact ⟨d :: before', behind', rfl, .recased hp hchar hbefore, hbehind⟩

/-- Where no byte satisfies `p` nothing has changed. -/
theorem SameBut.eq_of_forall_not (h : SameBut p offset cs ds)
    (hno : ∀ place, offset ≤ place → place < offset + byteLength cs → ¬ p place) : ds = cs := by
  induction h with
  | nil => rfl
  | @same offset c cs ds _ ih =>
      rw [ih fun place hle hlt => hno place (by omega) (by rw [byteLength_cons]; omega)]
  | @recased offset c d cs ds hp _ _ _ =>
      have hpos := c.utf8Size_pos
      exact absurd hp (hno offset (Nat.le_refl _) (by rw [byteLength_cons]; omega))

/-- The byte is one of those that the token spans. -/
def Spans (t : Token) (place : Nat) : Prop := t.start ≤ place ∧ place < t.stop

/-- The second token is the first one with its letters in other cases, and only if it spans a byte
    that satisfies `p`. -/
structure RecasedAt (p : Nat → Prop) (t u : Token) : Prop where
  kind : u.kind = t.kind
  start : u.start = t.start
  stop : u.stop = t.stop
  letters : t.kind = .identifier → SameLetters t.text.toList u.text.toList
  text : (∀ place, t.Spans place → ¬ p place) → u.text = t.text

theorem recasedAt_ofLexeme {l : Lexeme} {spelling : List Char}
    (h : SameBut p offset l.spelling spelling) :
    RecasedAt p (ofLexeme l offset) (ofLexeme ⟨l.kind, spelling⟩ offset) where
  kind := rfl
  start := rfl
  stop := by
    rw [ofLexeme, ofLexeme, byteLength_of_sameLetters h.sameLetters]
  letters := by
    intro hkind
    have hidentifier : l.kind = .identifier := hkind
    simp only [ofLexeme, Lexeme.content, hidentifier, String.toList_ofList]
    exact h.sameLetters
  text := by
    intro hno
    rw [h.eq_of_forall_not fun place hle hlt => hno place ⟨hle, hlt⟩]

/-- A text that has changed at some bytes is cut where it was cut before, and only tokens that span
    such a byte have changed. -/
theorem exists_scanFrom_of_sameBut (h : SameBut p offset cs ds)
    (hscan : scanFrom offset cs = .ok ts) :
    ∃ us, scanFrom offset ds = .ok us ∧ List.Forall₂ (RecasedAt p) ts us := by
  -- Along the scan of the first text; white space and lexemes are taken off both at once.
  induction offset, cs using scanFrom.induct generalizing ds ts with
  | case1 offset =>
      cases h
      exact ⟨[], scanFrom_nil offset, by rw [scanFrom_nil] at hscan; cases hscan; exact .nil⟩
  | case2 offset c cs hblank ih =>
      rw [scanFrom_blank cs hblank] at hscan
      cases h with
      | same hrest =>
          obtain ⟨us, hus, hsame⟩ := ih hrest hscan
          exact ⟨us, by rw [scanFrom_blank _ hblank, hus], hsame⟩
      | @recased _ _ d _ ds _ hchar hrest =>
          obtain ⟨us, hus, hsame⟩ := ih hrest hscan
          have hd : isBlank d = true := by rw [← isBlank_of_toLower hchar, hblank]
          exact ⟨us, by rw [scanFrom_blank _ hd, ← utf8Size_of_toLower hchar, hus], hsame⟩
  | case3 offset c cs hblank hread =>
      rw [scanFrom_error (Bool.eq_false_iff.mpr hblank) hread] at hscan
      cases hscan
  | case4 offset c cs hblank l rest hread _ ih =>
      obtain ⟨us, hus, rfl⟩ := exists_of_scanFrom_lexeme (Bool.eq_false_iff.mpr hblank) hread hscan
      obtain ⟨happend, hmaximal⟩ := Lexeme.read?_eq_some_iff.mp hread
      rw [← happend] at h
      obtain ⟨spelling, rest', rfl, hspelling, hrest⟩ := h.exists_append
      obtain ⟨vs, hvs, hsame⟩ := ih hrest hus
      -- Neither the letters of the lexeme nor those behind it decide where it ends.
      have hmaximal' : Lexeme.IsMaximal l.kind spelling rest' :=
        (hmaximal.of_sameLetters hspelling.sameLetters).of_sameLetters_behind hrest.sameLetters
      refine ⟨ofLexeme ⟨l.kind, spelling⟩ offset :: vs, ?_,
        .cons (recasedAt_ofLexeme hspelling) hsame⟩
      have hyields : Yields offset spelling rest' [ofLexeme ⟨l.kind, spelling⟩ offset] :=
        @yields_lexeme offset rest' ⟨l.kind, spelling⟩ hmaximal'
      rw [hyields, ← byteLength_of_sameLetters hspelling.sameLetters, hvs]
      rfl

end Token

end SheetFormula
