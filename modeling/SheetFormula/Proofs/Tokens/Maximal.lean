/-
  SheetFormula.Proofs.Tokens.Maximal

  Lexemes in their surroundings.  Whether characters are a lexeme depends on what
  comes behind them, because a lexeme goes as far as it can (`IsMaximal`).  Main
  statement: the lexeme at the front of a text is the only one that is maximal
  there (`read?_eq_some_iff`).
-/
import SheetFormula.Proofs.Tokens.Characters
import SheetFormula.Token.Lexeme

namespace SheetFormula

namespace Lexeme

/-! ## Maximal lexemes -/

/-- The characters are a lexeme of a kind in front of other characters, and with none of those would
    they still be one. -/
inductive IsMaximal : TokenKind → List Char → List Char → Prop where
  /-- Quotes around characters that are none. -/
  | text {inner rest : List Char} : '"' ∉ inner →
      IsMaximal .text ('"' :: (inner ++ ['"'])) rest
  /-- Digits, unless a digit or a point and a digit follow. -/
  | whole {digits rest : List Char} : digits ≠ [] → (∀ c ∈ digits, c.isDigit = true) →
      (∀ c ∈ rest.head?, c.isDigit = false) →
      (∀ c behind, rest = '.' :: c :: behind → c.isDigit = false) →
      IsMaximal .number digits rest
  /-- Digits behind a point, with or without digits before it, unless a digit follows. -/
  | fraction {whole digits rest : List Char} : (∀ c ∈ whole, c.isDigit = true) →
      digits ≠ [] → (∀ c ∈ digits, c.isDigit = true) → (∀ c ∈ rest.head?, c.isDigit = false) →
      IsMaximal .number (whole ++ '.' :: digits) rest
  /-- A letter with letters, digits and underscores, unless another of these follows. -/
  | identifier {c : Char} {cs rest : List Char} : c.isAlpha = true →
      (∀ d ∈ cs, isNameChar d = true) → (∀ d ∈ rest.head?, isNameChar d = false) →
      IsMaximal .identifier (c :: cs) rest
  | pair {c : Char} {rest : List Char} : c ∈ ['!', '>', '<'] → IsMaximal .operator [c, '='] rest
  | single {c : Char} {rest : List Char} : c ∈ ['+', '-', '=', '&', '|', '*', '/'] →
      IsMaximal .operator [c] rest
  /-- A character that could begin a pair, unless the pair is there. -/
  | alone {c : Char} {rest : List Char} : c ∈ ['!', '>', '<'] → rest.head? ≠ some '=' →
      IsMaximal .operator [c] rest
  | delimiter {c : Char} {rest : List Char} : c ∈ ['(', ')', ','] → IsMaximal .delimiter [c] rest

theorem mem_operatorChars {c : Char} :
    c ∈ operatorChars ↔ c ∈ ['+', '-', '=', '&', '|', '*', '/'] ∨ c ∈ ['!', '>', '<'] := by
  simp only [operatorChars, List.mem_cons, List.not_mem_nil, or_false]
  grind

theorem isBlank_of_operatorChar {c : Char} (h : c ∈ operatorChars) : Text.isBlank c = false := by
  simp only [operatorChars, List.mem_cons, List.not_mem_nil, or_false] at h
  rcases h with rfl | rfl | rfl | rfl | rfl | rfl | rfl | rfl | rfl | rfl <;> decide

theorem isBlank_of_delimiterChar {c : Char} (h : c ∈ delimiterChars) : Text.isBlank c = false := by
  simp only [delimiterChars, List.mem_cons, List.not_mem_nil, or_false] at h
  rcases h with rfl | rfl | rfl <;> decide

/-- A maximal lexeme has a first character, which is not white space. -/
theorem IsMaximal.exists_cons {kind : TokenKind} {spelling rest : List Char}
    (h : IsMaximal kind spelling rest) : ∃ c cs, spelling = c :: cs ∧ Text.isBlank c = false := by
  cases h with
  | text => exact ⟨_, _, rfl, by decide⟩
  | whole hne hdigits =>
      obtain ⟨c, cs, rfl⟩ := List.exists_cons_of_ne_nil hne
      exact ⟨c, cs, rfl, Text.isBlank_of_isDigit (hdigits c List.mem_cons_self)⟩
  | @fraction whole digits rest hwhole =>
      cases whole with
      | nil => exact ⟨_, _, rfl, by decide⟩
      | cons c cs => exact ⟨c, _, rfl, Text.isBlank_of_isDigit (hwhole c List.mem_cons_self)⟩
  | identifier hc => exact ⟨_, _, rfl, Text.isBlank_of_isAlpha hc⟩
  | pair hc | alone hc =>
      exact ⟨_, _, rfl, isBlank_of_operatorChar (mem_operatorChars.mpr (.inr hc))⟩
  | single hc => exact ⟨_, _, rfl, isBlank_of_operatorChar (mem_operatorChars.mpr (.inl hc))⟩
  | delimiter hc => exact ⟨_, _, rfl, isBlank_of_delimiterChar hc⟩

/-! ## What is read is maximal -/

/-- A reader finds nothing but maximal lexemes. -/
def ReadsMaximal (reader : List Char → Option (Lexeme × List Char)) : Prop :=
  ∀ cs l rest, reader cs = some (l, rest) → IsMaximal l.kind l.spelling rest

theorem readsMaximal_text? : ReadsMaximal text? := by
  intro cs l rest h
  unfold text? at h
  split at h
  · split at h
    · cases h
      refine .text fun hmem => ?_
      have hquote := List.mem_takeWhile_imp hmem
      simp at hquote
    · cases h
  · cases h

theorem readsMaximal_number? : ReadsMaximal number? := by
  intro cs l rest h
  have hwhole : ∀ c ∈ cs.takeWhile Char.isDigit, c.isDigit = true :=
    fun c hc => List.mem_takeWhile_imp hc
  simp only [number?] at h
  split at h
  · next hpoint =>
    cases h
    exact .fraction hwhole hpoint.2 (fun c hc => List.mem_takeWhile_imp hc)
      Text.eq_false_of_head?_dropWhile
  · next hpoint =>
    split at h
    · next hne =>
      cases h
      refine .whole hne hwhole Text.eq_false_of_head?_dropWhile fun c behind hrest => ?_
      -- A digit behind the point would have made a fraction.
      cases hc : c.isDigit with
      | false => rfl
      | true => exact absurd (by simp [hrest, hc]) hpoint
    · cases h

theorem readsMaximal_identifier? : ReadsMaximal identifier? := by
  intro cs l rest h
  unfold identifier? at h
  split at h
  · split at h
    · next hc =>
      cases h
      exact .identifier hc (fun d hd => List.mem_takeWhile_imp hd) Text.eq_false_of_head?_dropWhile
    · cases h
  · cases h

theorem readsMaximal_operator? : ReadsMaximal operator? := by
  intro cs l rest h
  have single : ∀ {c : Char} {behind : List Char}, c ∈ operatorChars →
      (c ∈ pairStarts → behind.head? ≠ some '=') → IsMaximal .operator [c] behind := by
    intro c behind hc hbehind
    rcases mem_operatorChars.mp hc with hc | hc
    · exact .single hc
    · exact .alone hc (hbehind hc)
  unfold operator? at h
  split at h
  · split at h
    · next hc =>
      cases h
      exact .pair hc
    · next hpair =>
      split at h
      · next hc =>
        cases h
        exact single hc fun hmem => absurd hmem hpair
      · cases h
  · next hequal =>
    split at h
    · next hc =>
      cases h
      refine single hc fun _ hhead => ?_
      obtain ⟨ds, hds⟩ := List.head?_eq_some_iff.mp hhead
      exact hequal ds hds
    · cases h
  · cases h

theorem readsMaximal_delimiter? : ReadsMaximal delimiter? := by
  intro cs l rest h
  unfold delimiter? at h
  split at h
  · split at h
    · next hc =>
      cases h
      exact .delimiter hc
    · cases h
  · cases h

theorem readsMaximal_read? : ReadsMaximal read? := by
  intro cs l rest h
  obtain ⟨reader, hmem, hread⟩ := List.exists_of_findSome?_eq_some h
  have hall : ∀ r ∈ readers, ReadsMaximal r := by
    simp [readers, readsMaximal_text?, readsMaximal_number?, readsMaximal_identifier?,
      readsMaximal_operator?, readsMaximal_delimiter?]
  exact hall reader hmem cs l rest hread

/-! ## What is maximal is read -/

theorem text?_cons_of_ne {c : Char} (cs : List Char) (h : c ≠ '"') : text? (c :: cs) = none := by
  unfold text?
  split
  · next heq => exact absurd (List.cons.inj heq).1 h
  · rfl

theorem number?_cons {c : Char} (cs : List Char) (hdigit : c.isDigit = false) (hpoint : c ≠ '.') :
    number? (c :: cs) = none := by
  simp [number?, hdigit, hpoint]

theorem identifier?_cons {c : Char} (cs : List Char) (h : c.isAlpha = false) :
    identifier? (c :: cs) = none := by
  simp [identifier?, h]

theorem operator?_cons {c : Char} (cs : List Char) (h : c ∉ operatorChars) :
    operator? (c :: cs) = none := by
  have hpair : c ∉ pairStarts := fun hmem => h (mem_operatorChars.mpr (.inr hmem))
  unfold operator?
  split <;> simp_all

theorem delimiter?_cons {c : Char} (cs : List Char) (h : c ∉ delimiterChars) :
    delimiter? (c :: cs) = none := by
  simp [delimiter?, h]

/-- Quotes end with the first one behind them. -/
theorem read?_quoted {inner : List Char} (rest : List Char) (h : '"' ∉ inner) :
    read? ('"' :: (inner ++ '"' :: rest)) = some (⟨.text, '"' :: (inner ++ ['"'])⟩, rest) := by
  have hne : ∀ c ∈ inner, (c != '"') = true := by
    intro c hc
    rw [bne_iff_ne]
    rintro rfl
    exact h hc
  have hquote : ∀ c ∈ ('"' :: rest).head?, (c != '"') = false := by
    intro c hc
    cases hc
    rfl
  obtain ⟨htake, hdrop⟩ := Text.takeWhile_append_stop hne hquote
  simp [read?, readers, text?, htake, hdrop]

/-- What begins with a digit or a point is read as a number. -/
theorem read?_of_number? {c : Char} {cs : List Char} {found : Lexeme × List Char}
    (hc : c.isDigit = true ∨ c = '.') (h : number? (c :: cs) = some found) :
    read? (c :: cs) = some found := by
  have hquote : c ≠ '"' := by
    rintro rfl
    revert hc
    decide
  simp [read?, readers, text?_cons_of_ne cs hquote, h]

theorem read?_whole {digits rest : List Char} (hne : digits ≠ [])
    (hdigits : ∀ c ∈ digits, c.isDigit = true) (hrest : ∀ c ∈ rest.head?, c.isDigit = false)
    (hpoint : ∀ c behind, rest = '.' :: c :: behind → c.isDigit = false) :
    read? (digits ++ rest) = some (⟨.number, digits⟩, rest) := by
  obtain ⟨htake, hdrop⟩ := Text.takeWhile_append_stop hdigits hrest
  have hfraction : ¬ (rest.head? = some '.' ∧ (rest.drop 1).takeWhile Char.isDigit ≠ []) := by
    rintro ⟨hhead, hfraction⟩
    obtain ⟨behind, rfl⟩ := List.head?_eq_some_iff.mp hhead
    cases behind with
    | nil => exact hfraction rfl
    | cons c behind => simp [hpoint c behind rfl] at hfraction
  have hnumber : number? (digits ++ rest) = some (⟨.number, digits⟩, rest) := by
    simp only [number?, htake, hdrop, if_neg hfraction, if_pos hne]
  obtain ⟨c, cs, rfl⟩ := List.exists_cons_of_ne_nil hne
  exact read?_of_number? (.inl (hdigits c List.mem_cons_self)) hnumber

theorem read?_fraction {whole digits rest : List Char} (hwhole : ∀ c ∈ whole, c.isDigit = true)
    (hne : digits ≠ []) (hdigits : ∀ c ∈ digits, c.isDigit = true)
    (hrest : ∀ c ∈ rest.head?, c.isDigit = false) :
    read? (whole ++ '.' :: (digits ++ rest))
      = some (⟨.number, whole ++ '.' :: digits⟩, rest) := by
  have hpoint : ∀ c ∈ ('.' :: (digits ++ rest)).head?, c.isDigit = false := by
    intro c hc
    cases hc
    rfl
  obtain ⟨htakeWhole, hdropWhole⟩ := Text.takeWhile_append_stop hwhole hpoint
  obtain ⟨htake, hdrop⟩ := Text.takeWhile_append_stop hdigits hrest
  have hnumber : number? (whole ++ '.' :: (digits ++ rest))
      = some (⟨.number, whole ++ '.' :: digits⟩, rest) := by
    simp [number?, htakeWhole, hdropWhole, htake, hdrop, hne]
  cases whole with
  | nil => exact read?_of_number? (.inr rfl) hnumber
  | cons c cs => exact read?_of_number? (.inl (hwhole c List.mem_cons_self)) hnumber

theorem read?_word {c : Char} {cs rest : List Char} (hc : c.isAlpha = true)
    (hcs : ∀ d ∈ cs, isNameChar d = true) (hrest : ∀ d ∈ rest.head?, isNameChar d = false) :
    read? (c :: (cs ++ rest)) = some (⟨.identifier, c :: cs⟩, rest) := by
  have hquote : c ≠ '"' := by
    rintro rfl
    cases hc
  have hpoint : c ≠ '.' := by
    rintro rfl
    cases hc
  obtain ⟨htake, hdrop⟩ := Text.takeWhile_append_stop hcs hrest
  simp [read?, readers, text?_cons_of_ne _ hquote,
    number?_cons _ (Text.isDigit_of_isAlpha hc) hpoint, identifier?, hc, htake, hdrop]

/-- An operator character begins no other lexeme. -/
theorem read?_of_operatorChar {c : Char} (h : c ∈ operatorChars) (cs : List Char) :
    read? (c :: cs) = operator? (c :: cs) := by
  have hno : c ≠ '"' ∧ c.isDigit = false ∧ c ≠ '.' ∧ c.isAlpha = false ∧ c ∉ delimiterChars := by
    simp only [operatorChars, List.mem_cons, List.not_mem_nil, or_false] at h
    rcases h with rfl | rfl | rfl | rfl | rfl | rfl | rfl | rfl | rfl | rfl <;> decide
  obtain ⟨hquote, hdigit, hpoint, halpha, hdelimiter⟩ := hno
  simp only [read?, readers, List.findSome?_cons, List.findSome?_nil, text?_cons_of_ne cs hquote,
    number?_cons cs hdigit hpoint, identifier?_cons cs halpha, delimiter?_cons cs hdelimiter]
  cases operator? (c :: cs) <;> rfl

theorem read?_pair {c : Char} (rest : List Char) (hc : c ∈ pairStarts) :
    read? (c :: '=' :: rest) = some (⟨.operator, [c, '=']⟩, rest) := by
  rw [read?_of_operatorChar (mem_operatorChars.mpr (.inr hc))]
  simp [operator?, hc]

theorem read?_sign {c : Char} {rest : List Char} (hc : c ∈ operatorChars)
    (hrest : c ∈ pairStarts → rest.head? ≠ some '=') :
    read? (c :: rest) = some (⟨.operator, [c]⟩, rest) := by
  rw [read?_of_operatorChar hc]
  cases rest with
  | nil => simp [operator?, hc]
  | cons d rest =>
      by_cases hd : d = '='
      · subst hd
        have hpair : c ∉ pairStarts := fun hmem => hrest hmem rfl
        simp [operator?, hc, hpair]
      · simp [operator?, hc, hd]

theorem read?_delimiter {c : Char} (rest : List Char) (hc : c ∈ delimiterChars) :
    read? (c :: rest) = some (⟨.delimiter, [c]⟩, rest) := by
  have hno : c ≠ '"' ∧ c.isDigit = false ∧ c ≠ '.' ∧ c.isAlpha = false ∧ c ∉ operatorChars := by
    simp only [delimiterChars, List.mem_cons, List.not_mem_nil, or_false] at hc
    rcases hc with rfl | rfl | rfl <;> decide
  obtain ⟨hquote, hdigit, hpoint, halpha, hoperator⟩ := hno
  simp [read?, readers, text?_cons_of_ne rest hquote, number?_cons rest hdigit hpoint,
    identifier?_cons rest halpha, operator?_cons rest hoperator, delimiter?, hc]

theorem read?_of_isMaximal {kind : TokenKind} {spelling rest : List Char}
    (h : IsMaximal kind spelling rest) :
    read? (spelling ++ rest) = some (⟨kind, spelling⟩, rest) := by
  cases h with
  | @text inner _ hinner =>
      rw [List.cons_append, List.append_assoc, List.singleton_append]
      exact read?_quoted rest hinner
  | whole hne hdigits hrest hpoint => exact read?_whole hne hdigits hrest hpoint
  | @fraction whole digits _ hwhole hne hdigits hrest =>
      rw [List.append_assoc, List.cons_append]
      exact read?_fraction hwhole hne hdigits hrest
  | identifier hc hcs hrest => exact read?_word hc hcs hrest
  | pair hc => exact read?_pair rest hc
  | single hc =>
      refine read?_sign (mem_operatorChars.mpr (.inl hc)) fun hpair => ?_
      -- None of these characters begins a pair.
      simp only [pairStarts, List.mem_cons, List.not_mem_nil, or_false] at hpair
      rcases hpair with rfl | rfl | rfl <;> simp at hc
  | alone hc hrest => exact read?_sign (mem_operatorChars.mpr (.inr hc)) fun _ => hrest
  | delimiter hc => exact read?_delimiter rest hc

/-- The lexeme that is read is the one that is maximal at the front of the text. -/
theorem read?_eq_some_iff {cs rest : List Char} {l : Lexeme} :
    read? cs = some (l, rest) ↔ l.spelling ++ rest = cs ∧ IsMaximal l.kind l.spelling rest := by
  constructor
  · intro h
    exact ⟨spelling_append_of_read? h, readsMaximal_read? cs l rest h⟩
  · rintro ⟨rfl, h⟩
    exact read?_of_isMaximal h

end Lexeme

end SheetFormula
