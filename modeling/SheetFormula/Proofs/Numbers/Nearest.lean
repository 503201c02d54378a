/-
  SheetFormula.Proofs.Numbers.Nearest

  Correct rounding.  The nearest double of a number is said by distances alone
  (`IsNearest`): no double is nearer, and of two that are equally near it is the
  one with the even significand.  Words stand for numbers in increasing order
  (`valueOf_strictMono`), so only the two words around a number have to be
  compared with it.  Main statements: quotients are rounded to the nearest
  double (`isNearest_nearestWord`), decimals too, also where their size settles
  the matter without a division (`Decimal.isNearest_word`), and there is only one
  nearest double (`IsNearest.unique`).
-/
import SheetFormula.Proofs.Numbers.Shortest

namespace SheetFormula

namespace Binary64

/-! ## Words in their order -/

section Fields

variable {significand : Nat} (hlt : significand < 2 * fieldWeight)

include hlt

/-- A leading bit adds one to the exponent field. -/
theorem add_eq_of_leading (exponent : Nat) (hlarge : fieldWeight ≤ significand) :
    exponent * fieldWeight + significand =
        (significand - fieldWeight) + fieldWeight * (exponent + 1) ∧
      significand - fieldWeight < fieldWeight := by
  rw [Nat.mul_add, Nat.mul_comm fieldWeight]
  omega

variable {exponent : Nat} (hlead : exponent = 0 ∨ fieldWeight ≤ significand)

include hlead

theorem exponentOf_add : exponentOf (exponent * fieldWeight + significand) = exponent := by
  rcases Nat.lt_or_ge significand fieldWeight with hsmall | hlarge
  · obtain rfl : exponent = 0 := by omega
    rw [exponentOf, Nat.zero_mul, Nat.zero_add, Nat.div_eq_of_lt hsmall]
  · obtain ⟨hword, hrest⟩ := add_eq_of_leading hlt exponent hlarge
    rw [exponentOf, hword, Nat.add_mul_div_left _ _ fieldWeight_pos, Nat.div_eq_of_lt hrest]
    omega

theorem significandOf_add : significandOf (exponent * fieldWeight + significand) = significand := by
  rcases Nat.lt_or_ge significand fieldWeight with hsmall | hlarge
  · obtain rfl : exponent = 0 := by omega
    rw [significandOf, Nat.zero_mul, Nat.zero_add, if_pos hsmall]
  · obtain ⟨hword, hrest⟩ := add_eq_of_leading hlt exponent hlarge
    have hnot : ¬ exponent * fieldWeight + significand < fieldWeight := by omega
    rw [significandOf, if_neg hnot, hword, Nat.add_mul_mod_self_left, Nat.mod_eq_of_lt hrest]
    omega

end Fields

/-- One step up the significand, or on to the next exponent, is one step of the word. -/
theorem unitsOf_add {exponent significand : Nat} (hle : significand ≤ 2 * fieldWeight)
    (hlead : exponent = 0 ∨ fieldWeight ≤ significand) :
    unitsOf (exponent * fieldWeight + significand) = significand * 2 ^ exponent := by
  rcases Nat.lt_or_eq_of_le hle with hlt | rfl
  · rw [unitsOf, exponentOf_add hlt hlead, significandOf_add hlt hlead, Nat.pow_eq]
  -- The significand has used up its bits, and the next exponent takes over.
  · have hword : exponent * fieldWeight + 2 * fieldWeight =
        (exponent + 1) * fieldWeight + fieldWeight := by
      rw [Nat.add_mul]
      omega
    have hpos := fieldWeight_pos
    have hlt : fieldWeight < 2 * fieldWeight := by omega
    have hlead' : exponent + 1 = 0 ∨ fieldWeight ≤ fieldWeight := .inr (Nat.le_refl _)
    rw [hword, unitsOf, exponentOf_add hlt hlead', significandOf_add hlt hlead', Nat.pow_eq,
      Nat.pow_succ]
    ring

/-- Only the least exponent goes with significands that have no leading bit. -/
theorem exponentOf_eq_zero_or (word : Nat) :
    exponentOf word = 0 ∨ fieldWeight ≤ significandOf word := by
  rcases Nat.lt_or_ge (significandOf word) fieldWeight with hsmall | hlarge
  · exact .inl (exponentOf_eq_zero_of_lt hsmall)
  · exact .inr hlarge

theorem unitsOf_lt_succ (word : Nat) : unitsOf word < unitsOf (word + 1) := by
  have hsum := exponentOf_mul_add_significandOf word
  have hlt := significandOf_lt word
  have hlead : exponentOf word = 0 ∨ fieldWeight ≤ significandOf word + 1 :=
    (exponentOf_eq_zero_or word).imp_right Nat.le_succ_of_le
  have hnext : unitsOf (word + 1) = (significandOf word + 1) * 2 ^ exponentOf word := by
    rw [← unitsOf_add (Nat.succ_le_of_lt hlt) hlead, ← hsum, Nat.add_assoc, hsum]
  rw [hnext, unitsOf, Nat.pow_eq]
  exact Nat.mul_lt_mul_of_pos_right (Nat.lt_succ_self _) (Nat.two_pow_pos _)

theorem unitsOf_strictMono : StrictMono unitsOf := strictMono_nat_of_lt_succ unitsOf_lt_succ

/-- The number that magnitude bits stand for; those of an infinity stand for the power of two that
    would come next. -/
def valueOf (word : Nat) : ℚ := unitsOf word / unitsPerOne

theorem unitsPerOne_cast_pos : (0 : ℚ) < unitsPerOne := by exact_mod_cast unitsPerOne_pos

theorem valueOf_strictMono : StrictMono valueOf := by
  intro v w hlt
  have hunits : (unitsOf v : ℚ) < unitsOf w := by exact_mod_cast unitsOf_strictMono hlt
  exact div_lt_div_of_pos_right hunits unitsPerOne_cast_pos

@[simp] theorem valueOf_zero : valueOf 0 = 0 := by
  have hunits : unitsOf 0 = 0 := by decide
  rw [valueOf, hunits, Nat.cast_zero, zero_div]

/-- The doubles of one exponent are multiples of one spacing. -/
theorem valueOf_add {exponent significand : Nat} (hle : significand ≤ 2 * fieldWeight)
    (hlead : exponent = 0 ∨ fieldWeight ≤ significand) :
    valueOf (exponent * fieldWeight + significand) =
      significand * (2 ^ exponent / unitsPerOne) := by
  rw [valueOf, unitsOf_add hle hlead, Nat.cast_mul, Nat.cast_pow, Nat.cast_ofNat, mul_div_assoc]

/-! ## The nearest double -/

/-- No double is nearer to the number than the one with these magnitude bits, and where another one
    is equally near its significand is even. -/
structure IsNearest (q : ℚ) (word : Nat) : Prop where
  le : word ≤ infinityWord
  nearest : ∀ w ≤ infinityWord, |valueOf word - q| ≤ |valueOf w - q|
  even : ∀ w ≤ infinityWord, w ≠ word → |valueOf w - q| = |valueOf word - q| → word % 2 = 0

section Neighbours

variable {q : ℚ} {word : Nat}

theorem IsNearest.of_ne (hle : word ≤ infinityWord)
    (h : ∀ w, w ≠ word → |valueOf word - q| < |valueOf w - q| ∨
      |valueOf word - q| ≤ |valueOf w - q| ∧ word % 2 = 0) : IsNearest q word where
  le := hle
  nearest w _ := by
    by_cases heq : w = word
    · rw [heq]
    · rcases h w heq with hlt | ⟨hle, -⟩
      · exact le_of_lt hlt
      · exact hle
  even w _ hne htie := by
    rcases h w hne with hlt | ⟨-, heven⟩
    · exact absurd htie (ne_of_gt hlt)
    · exact heven

/-- The word below the number, if it is the nearer one of the two around the number. -/
theorem IsNearest.of_below (hle : word ≤ infinityWord) (hlo : valueOf word ≤ q)
    (hhi : q < valueOf (word + 1))
    (hhalf : 2 * q < valueOf word + valueOf (word + 1) ∨
      2 * q = valueOf word + valueOf (word + 1) ∧ word % 2 = 0) : IsNearest q word := by
  refine .of_ne hle fun w hne => ?_
  have hdist : |valueOf word - q| = q - valueOf word := by
    rw [abs_of_nonpos (by linarith), neg_sub]
  rcases Nat.lt_or_gt_of_ne hne with hlt | hgt
  · -- Words further down are further away.
    have hbelow : valueOf w < valueOf word := valueOf_strictMono hlt
    have hdist' : |valueOf w - q| = q - valueOf w := by
      rw [abs_of_nonpos (by linarith), neg_sub]
    rw [hdist, hdist']
    exact .inl (by linarith)
  · have habove : valueOf (word + 1) ≤ valueOf w := valueOf_strictMono.monotone hgt
    have hdist' : |valueOf w - q| = valueOf w - q := abs_of_nonneg (by linarith)
    rw [hdist, hdist']
    rcases hhalf with hhalf | ⟨htie, heven⟩
    · exact .inl (by linarith)
    · exact .inr ⟨by linarith, heven⟩

/-- The word above the number, if it is the nearer one of the two around the number. -/
theorem IsNearest.of_above (hle : word + 1 ≤ infinityWord) (hlo : valueOf word ≤ q)
    (hhi : q < valueOf (word + 1))
    (hhalf : valueOf word + valueOf (word + 1) < 2 * q ∨
      2 * q = valueOf word + valueOf (word + 1) ∧ (word + 1) % 2 = 0) :
    IsNearest q (word + 1) := by
  refine .of_ne hle fun w hne => ?_
  have hdist : |valueOf (word + 1) - q| = valueOf (word + 1) - q := abs_of_nonneg (by linarith)
  rcases Nat.lt_or_gt_of_ne hne with hlt | hgt
  · have hbelow : valueOf w ≤ valueOf word := valueOf_strictMono.monotone (Nat.le_of_lt_succ hlt)
    have hdist' : |valueOf w - q| = q - valueOf w := by
      rw [abs_of_nonpos (by linarith), neg_sub]
    rw [hdist, hdist']
    rcases hhalf with hhalf | ⟨htie, heven⟩
    · exact .inl (by linarith)
    · exact .inr ⟨by linarith, heven⟩
  · -- Words further up are further away.
    have habove : valueOf (word + 1) < valueOf w := valueOf_strictMono hgt
    have hdist' : |valueOf w - q| = valueOf w - q := abs_of_nonneg (by linarith)
    rw [hdist, hdist']
    exact .inl (by linarith)

/-- Beyond the range of the doubles an infinity is nearest. -/
theorem IsNearest.of_infinity (h : valueOf infinityWord ≤ q) : IsNearest q infinityWord := by
  have hdist : |valueOf infinityWord - q| = q - valueOf infinityWord := by
    rw [abs_of_nonpos (by linarith), neg_sub]
  have hle : ∀ w ≤ infinityWord, |valueOf infinityWord - q| ≤ |valueOf w - q| := by
    intro w hw
    have hbelow : valueOf w ≤ valueOf infinityWord := valueOf_strictMono.monotone hw
    rw [hdist, abs_of_nonpos (by linarith), neg_sub]
    linarith
  exact ⟨Nat.le_refl _, hle, fun _ _ _ _ => by decide⟩

/-- There is only one nearest double. -/
theorem IsNearest.unique {v w : Nat} (hv : IsNearest q v) (hw : IsNearest q w) : v = w := by
  have hdist : |valueOf v - q| = |valueOf w - q| :=
    le_antisymm (hv.nearest w hw.le) (hw.nearest v hv.le)
  -- Two of them would lie on both sides of the number, with no double in between.
  have hno : ∀ {v w : Nat}, IsNearest q v → IsNearest q w → |valueOf v - q| = |valueOf w - q| →
      ¬ v < w := by
    intro v w hv hw hdist hlt
    have hvalue : valueOf v < valueOf w := valueOf_strictMono hlt
    have hmid : 2 * q = valueOf v + valueOf w := by
      rcases abs_eq_abs.mp hdist with heq | heq
      · exact absurd (sub_left_inj.mp heq) (ne_of_lt hvalue)
      · linarith
    rcases Nat.lt_or_eq_of_le (Nat.succ_le_of_lt hlt) with hbetween | rfl
    · have hnearest := hv.nearest (v + 1) (Nat.le_trans (Nat.le_of_lt hbetween) hw.le)
      have hlo : valueOf v < valueOf (v + 1) := valueOf_strictMono (Nat.lt_succ_self v)
      have hhi : valueOf (v + 1) < valueOf w := valueOf_strictMono hbetween
      rw [abs_of_nonpos (by linarith : valueOf v - q ≤ 0)] at hnearest
      rcases abs_cases (valueOf (v + 1) - q) with ⟨habs, -⟩ | ⟨habs, -⟩ <;>
        rw [habs] at hnearest <;> linarith
    · have hevenBelow := hv.even (v + 1) hw.le (Nat.succ_ne_self v) hdist.symm
      have hevenAbove := hw.even v hv.le (Nat.succ_ne_self v).symm hdist
      omega
  rcases Nat.lt_trichotomy v w with hlt | heq | hgt
  · exact absurd hlt (hno hv hw hdist)
  · exact heq
  · exact absurd hgt (hno hw hv hdist.symm)

end Neighbours

/-! ## Quotients -/

/-- The even neighbour is taken at an exact half, and else the nearer one. -/
theorem roundDiv_toEven_eq (num den : Nat) :
    roundDiv .toEven num den = num / den ∧
        (2 * (num % den) < den ∨ 2 * (num % den) = den ∧ num / den % 2 = 0) ∨
      roundDiv .toEven num den = num / den + 1 ∧
        (den < 2 * (num % den) ∨ 2 * (num % den) = den ∧ (num / den + 1) % 2 = 0) := by
  simp only [roundDiv]
  split
  · next hbelow => exact .inl ⟨rfl, .inl hbelow⟩
  · split
    · next habove => exact .inr ⟨rfl, .inl habove⟩
    · rcases Nat.mod_two_eq_zero_or_one (num / den) with heven | hodd
      · rw [heven, Nat.add_zero]
        exact .inl ⟨rfl, .inr ⟨by omega, rfl⟩⟩
      · rw [hodd]
        exact .inr ⟨rfl, .inr ⟨by omega, by omega⟩⟩

/-- In the exponent that is chosen for a quotient the whole part is a significand. -/
theorem significand_bounds (units den : Nat) :
    units / (den * 2 ^ ((units / den).log2 - 52)) < 2 * fieldWeight ∧
      ((units / den).log2 - 52 = 0 ∨
        fieldWeight ≤ units / (den * 2 ^ ((units / den).log2 - 52))) := by
  generalize hexponent : (units / den).log2 - 52 = exponent
  have hfield : fieldWeight = 2 ^ 52 := by decide
  have hwhole : units / (den * 2 ^ exponent) = units / den / 2 ^ exponent :=
    (Nat.div_div_eq_div_mul ..).symm
  rw [hwhole, hfield]
  constructor
  · rw [Nat.div_lt_iff_lt_mul (Nat.two_pow_pos _), ← Nat.pow_succ', ← Nat.pow_add]
    calc units / den < 2 ^ ((units / den).log2 + 1) := Nat.lt_log2_self
      _ ≤ 2 ^ (52 + 1 + exponent) := Nat.pow_le_pow_right Nat.two_pos (by omega)
  · by_cases hzero : exponent = 0
    · exact .inl hzero
    · have hne : units / den ≠ 0 := by
        intro hnone
        rw [hnone, Nat.log2_zero] at hexponent
        omega
      refine .inr ((Nat.le_div_iff_mul_le (Nat.two_pow_pos _)).mpr ?_)
      rw [← Nat.pow_add]
      calc 2 ^ (52 + exponent) ≤ 2 ^ (units / den).log2 :=
            Nat.pow_le_pow_right Nat.two_pos (by omega)
        _ ≤ units / den := Nat.log2_self_le hne

/-- A quotient in units of a spacing: the whole part, and what is left of one spacing. -/
theorem quotient_eq {num den units spacing whole rest : Nat} (hden : 0 < den) (hunits : 0 < units)
    (hspacing : 0 < spacing) (h : den * spacing * whole + rest = num * units) :
    (num : ℚ) / den = (whole + rest / (den * spacing)) * (spacing / units) := by
  have hden' : (den : ℚ) ≠ 0 := by exact_mod_cast hden.ne'
  have hunits' : (units : ℚ) ≠ 0 := by exact_mod_cast hunits.ne'
  have hspacing' : (spacing : ℚ) ≠ 0 := by exact_mod_cast hspacing.ne'
  have hcast : (den * spacing * whole + rest : ℚ) = num * units := by exact_mod_cast h
  field_simp
  linarith

/-- The exponent field of a word has no part in its last bit. -/
theorem word_mod_two (exponent significand : Nat) :
    (exponent * fieldWeight + significand) % 2 = significand % 2 := by
  unfold fieldWeight
  omega

section Part

variable {whole part spacing q : ℚ} {word : Nat} (hspacing : 0 < spacing)
  (hbelow : valueOf word = whole * spacing) (habove : valueOf (word + 1) = (whole + 1) * spacing)
  (hq : q = (whole + part) * spacing) (hnonneg : 0 ≤ part) (hone : part < 1)

include hspacing hbelow habove hq hnonneg hone

/-- A number that is part of a spacing above a word stands between it and the next. -/
theorem between_of_part : valueOf word ≤ q ∧ q < valueOf (word + 1) := by
  rw [hbelow, habove, hq]
  exact ⟨mul_le_mul_of_nonneg_right (by linarith) (le_of_lt hspacing),
    mul_lt_mul_of_pos_right (by linarith) hspacing⟩

theorem IsNearest.of_part_le (hle : word ≤ infinityWord)
    (hhalf : 2 * part < 1 ∨ 2 * part = 1 ∧ word % 2 = 0) : IsNearest q word := by
  obtain ⟨hlo, hhi⟩ := between_of_part hspacing hbelow habove hq hnonneg hone
  have hmiddle : valueOf word + valueOf (word + 1) - 2 * q = (1 - 2 * part) * spacing := by
    rw [hbelow, habove, hq]
    ring
  refine .of_below hle hlo hhi ?_
  rcases hhalf with hlt | ⟨heq, heven⟩
  · have hpos := mul_pos (show 0 < 1 - 2 * part by linarith) hspacing
    exact .inl (by linarith)
  · rw [heq, sub_self, zero_mul] at hmiddle
    exact .inr ⟨by linarith, heven⟩

theorem IsNearest.of_part_ge (hle : word + 1 ≤ infinityWord)
    (hhalf : 1 < 2 * part ∨ 2 * part = 1 ∧ (word + 1) % 2 = 0) : IsNearest q (word + 1) := by
  obtain ⟨hlo, hhi⟩ := between_of_part hspacing hbelow habove hq hnonneg hone
  have hmiddle : 2 * q - (valueOf word + valueOf (word + 1)) = (2 * part - 1) * spacing := by
    rw [hbelow, habove, hq]
    ring
  refine .of_above hle hlo hhi ?_
  rcases hhalf with hlt | ⟨heq, heven⟩
  · have hpos := mul_pos (show 0 < 2 * part - 1 by linarith) hspacing
    exact .inl (by linarith)
  · rw [heq, sub_self, zero_mul] at hmiddle
    exact .inr ⟨by linarith, heven⟩

end Part

/-- A number that is a part of a spacing above a significand is rounded by that part; beyond the
    range of the doubles comes an infinity. -/
theorem IsNearest.of_rounded {exponent whole rounded : Nat} {part : ℚ}
    (hlt : whole < 2 * fieldWeight) (hlead : exponent = 0 ∨ fieldWeight ≤ whole)
    (hnonneg : 0 ≤ part) (hone : part < 1)
    (hround : rounded = whole ∧ (2 * part < 1 ∨ 2 * part = 1 ∧ whole % 2 = 0) ∨
      rounded = whole + 1 ∧ (1 < 2 * part ∨ 2 * part = 1 ∧ (whole + 1) % 2 = 0)) :
    IsNearest ((whole + part) * (2 ^ exponent / unitsPerOne))
      (min infinityWord (exponent * fieldWeight + rounded)) := by
  have hbelow := valueOf_add (Nat.le_of_lt hlt) hlead
  have habove := valueOf_add (Nat.succ_le_of_lt hlt) (hlead.imp_right Nat.le_succ_of_le)
  rw [Nat.cast_succ, Nat.add_succ] at habove
  have hspacing : (0 : ℚ) < 2 ^ exponent / unitsPerOne :=
    div_pos (by positivity) unitsPerOne_cast_pos
  by_cases hcap : infinityWord ≤ exponent * fieldWeight + whole
  · have hlo := (between_of_part hspacing hbelow habove rfl hnonneg hone).1
    rw [Nat.min_eq_left (by omega)]
    exact .of_infinity (le_trans (valueOf_strictMono.monotone hcap) hlo)
  · rw [Nat.min_eq_right (by omega)]
    rcases hround with ⟨rfl, hhalf⟩ | ⟨rfl, hhalf⟩
    · refine .of_part_le hspacing hbelow habove rfl hnonneg hone (by omega) ?_
      rw [word_mod_two]
      exact hhalf
    · rw [← Nat.add_assoc]
      refine .of_part_ge hspacing hbelow habove rfl hnonneg hone (by omega) ?_
      rw [Nat.add_assoc, word_mod_two]
      exact hhalf

/-- A quotient is rounded to the nearest double. -/
theorem isNearest_nearestWord (num : Nat) {den : Nat} (hden : 0 < den) :
    IsNearest ((num : ℚ) / den) (nearestWord num den) := by
  obtain ⟨hlt, hlead⟩ := significand_bounds (num * unitsPerOne) den
  simp only [nearestWord, Nat.pow_eq]
  generalize (num * unitsPerOne / den).log2 - 52 = exponent at hlt hlead ⊢
  have hstep : 0 < den * 2 ^ exponent := Nat.mul_pos hden (Nat.two_pow_pos _)
  have hrest := Nat.mod_lt (num * unitsPerOne) hstep
  have hquotient := quotient_eq hden unitsPerOne_pos (Nat.two_pow_pos exponent)
    (Nat.div_add_mod (num * unitsPerOne) (den * 2 ^ exponent))
  have hround := roundDiv_toEven_eq (num * unitsPerOne) (den * 2 ^ exponent)
  generalize roundDiv .toEven (num * unitsPerOne) (den * 2 ^ exponent) = rounded at hround ⊢
  generalize num * unitsPerOne / (den * 2 ^ exponent) = whole at hlt hlead hquotient hround
  generalize num * unitsPerOne % (den * 2 ^ exponent) = rest at hrest hquotient hround
  rw [hquotient, Nat.cast_pow, Nat.cast_ofNat]
  -- The number is a part of a spacing above the word, and the rest tells which part.
  have hstep' : (0 : ℚ) < den * 2 ^ exponent := by exact_mod_cast hstep
  refine .of_rounded hlt hlead (by positivity) ?_ ?_
  · rw [div_lt_one hstep']
    exact_mod_cast hrest
  · rw [← mul_div_assoc, div_lt_one hstep', one_lt_div hstep',
      div_eq_one_iff_eq (ne_of_gt hstep')]
    exact_mod_cast hround

/-! ## Natural numbers -/

/-- Natural numbers up to `2 ^ 53` are doubles. -/
theorem exists_valueOf_natCast {n : Nat} (h : n ≤ 2 ^ 53) :
    ∃ word ≤ infinityWord, valueOf word = n := by
  have hfield : fieldWeight = 2 ^ 52 := by decide
  rcases Nat.eq_zero_or_pos n with rfl | hpos
  · exact ⟨0, Nat.zero_le _, by rw [valueOf_zero, Nat.cast_zero]⟩
  · -- Shifted to the left until its first bit is the leading one.
    have hlog : n.log2 ≤ 53 := by
      have hlt := Nat.pow_le_pow_right Nat.two_pos (Nat.le_refl 53)
      refine Nat.le_of_not_lt fun hgt => ?_
      have hself := Nat.log2_self_le (Nat.ne_of_gt hpos)
      have hpow := Nat.pow_lt_pow_right Nat.one_lt_two hgt
      omega
    have hle : n * 2 ^ (52 - n.log2) ≤ 2 * fieldWeight := by
      rw [hfield]
      rcases Nat.lt_or_ge 52 n.log2 with hlarge | hsmall
      · have hnone : 52 - n.log2 = 0 := by omega
        rw [hnone, Nat.pow_zero, Nat.mul_one]
        exact h
      · calc n * 2 ^ (52 - n.log2) ≤ 2 ^ (n.log2 + 1) * 2 ^ (52 - n.log2) :=
              Nat.mul_le_mul_right _ (Nat.le_of_lt Nat.lt_log2_self)
          _ = 2 ^ 53 := by
              rw [← Nat.pow_add]
              congr 1
              omega
    have hlead : fieldWeight ≤ n * 2 ^ (52 - n.log2) := by
      rw [hfield]
      calc 2 ^ 52 ≤ 2 ^ (n.log2 + (52 - n.log2)) := Nat.pow_le_pow_right Nat.two_pos (by omega)
        _ = 2 ^ n.log2 * 2 ^ (52 - n.log2) := Nat.pow_add ..
        _ ≤ n * 2 ^ (52 - n.log2) :=
            Nat.mul_le_mul_right _ (Nat.log2_self_le (Nat.ne_of_gt hpos))
    refine ⟨(unitPlaces - (52 - n.log2)) * fieldWeight + n * 2 ^ (52 - n.log2), ?_, ?_⟩
    · have hmul : (unitPlaces - (52 - n.log2)) * fieldWeight ≤ 1074 * fieldWeight :=
        Nat.mul_le_mul_right _ (Nat.sub_le _ _)
      unfold infinityWord
      omega
    · have hunits : unitsOf ((unitPlaces - (52 - n.log2)) * fieldWeight + n * 2 ^ (52 - n.log2)) =
          n * unitsPerOne := by
        rw [unitsOf_add hle (.inr hlead), Nat.mul_assoc, ← Nat.pow_add, Decimal.unitsPerOne_eq]
        congr 2
        unfold unitPlaces
        omega
      rw [valueOf, hunits, Nat.cast_mul, mul_div_cancel_right₀ _ (ne_of_gt unitsPerOne_cast_pos)]

/-- Of the natural numbers only one has a small one as its nearest double. -/
theorem IsNearest.eq_of_valueOf {m n word : Nat} (h : IsNearest m word) (hword : valueOf word = n)
    (hn : n < 2 ^ 53) : m = n := by
  rcases Nat.lt_trichotomy m n with hlt | heq | hgt
  · obtain ⟨w, hw, hvalue⟩ := exists_valueOf_natCast (show m ≤ 2 ^ 53 by omega)
    have hnearest := h.nearest w hw
    rw [hword, hvalue, sub_self, abs_zero, abs_nonpos_iff, sub_eq_zero] at hnearest
    exact_mod_cast hnearest.symm
  · exact heq
  · obtain ⟨w, hw, hvalue⟩ := exists_valueOf_natCast (Nat.succ_le_of_lt hn)
    have hnearest := h.nearest w hw
    have hle : ((n : ℚ) + 1) ≤ m := by exact_mod_cast hgt
    rw [hword, hvalue, Nat.cast_succ, abs_of_nonpos (by linarith), abs_of_nonpos (by linarith)]
      at hnearest
    linarith

end Binary64

/-! ## Decimals -/

namespace Decimal

open Binary64

/-- The magnitude of a decimal. -/
def value (d : Decimal) : ℚ := d.significand * 10 ^ d.exponent

theorem value_eq_div (d : Decimal) : d.value = (d.num : ℚ) / d.den := by
  obtain ⟨negative, significand, exponent⟩ := d
  simp only [value, num, den, Nat.pow_eq]
  cases exponent with
  | ofNat n =>
      have hnone : (-Int.ofNat n).toNat = 0 := Int.toNat_neg_natCast n
      rw [hnone]
      simp
  | negSucc n =>
      have hsome : (-Int.negSucc n).toNat = n + 1 := by omega
      have hnone : (Int.negSucc n).toNat = 0 := by omega
      rw [hsome, hnone, zpow_negSucc]
      simp [div_eq_mul_inv]

theorem ten_pow_le_significand {n : Nat} (hn : n ≠ 0) : 10 ^ (digitCount n - 1) ≤ n := by
  by_cases hone : digitCount n = 1
  · rw [hone, Nat.sub_self, Nat.pow_zero]
    omega
  · have hpos := digitCount_pos n
    refine Nat.le_of_not_lt fun hlt => ?_
    have hle := (digitCount_le_iff (by omega)).mpr hlt
    omega

/-- A number with digits lies between the powers of ten at the place of its first digit. -/
theorem value_bounds {d : Decimal} (hne : d.significand ≠ 0) :
    (10 : ℚ) ^ (d.exponent + digitCount d.significand - 1) ≤ d.value ∧
      d.value < 10 ^ (d.exponent + digitCount d.significand) := by
  have hpos := digitCount_pos d.significand
  have hpow : (0 : ℚ) < 10 ^ d.exponent := by positivity
  have hten : (10 : ℚ) ≠ 0 := by norm_num
  constructor
  · have hle : ((10 : ℚ) ^ (digitCount d.significand - 1)) ≤ d.significand := by
      exact_mod_cast ten_pow_le_significand hne
    have hplaces : d.exponent + digitCount d.significand - 1 =
        ((digitCount d.significand - 1 : Nat) : ℤ) + d.exponent := by omega
    rw [hplaces, zpow_add₀ hten, zpow_natCast, value]
    exact mul_le_mul_of_nonneg_right hle (le_of_lt hpow)
  · have hlt : (d.significand : ℚ) < 10 ^ digitCount d.significand := by
      exact_mod_cast lt_ten_pow_digitCount d.significand
    rw [Int.add_comm, zpow_add₀ hten, zpow_natCast, value]
    exact mul_lt_mul_of_pos_right hlt hpow

/-- From `10 ^ 309` on numbers exceed every double. -/
theorem valueOf_infinityWord_le : valueOf infinityWord ≤ 10 ^ (309 : ℤ) := by
  have hle : unitsOf infinityWord ≤ 10 ^ 309 * unitsPerOne := by decide +kernel
  have hcast : (unitsOf infinityWord : ℚ) ≤ 10 ^ 309 * unitsPerOne := by exact_mod_cast hle
  rw [valueOf, div_le_iff₀ unitsPerOne_cast_pos]
  exact_mod_cast hcast

/-- Below `10 ^ -324` numbers are less than half the smallest positive double. -/
theorem two_mul_lt_valueOf_one : 2 * (10 : ℚ) ^ (-324 : ℤ) < valueOf 1 := by
  have hlt : 2 * unitsPerOne < unitsOf 1 * 10 ^ 324 := by decide +kernel
  have hcast : (2 * unitsPerOne : ℚ) < unitsOf 1 * 10 ^ 324 := by exact_mod_cast hlt
  have hpow : (10 : ℚ) ^ (-324 : ℤ) = 1 / 10 ^ 324 := by rw [zpow_neg, one_div]; rfl
  rw [hpow, mul_one_div, valueOf, div_lt_div_iff₀ (by positivity) unitsPerOne_cast_pos]
  exact hcast

/-- A decimal is rounded to the nearest double. -/
theorem isNearest_word (d : Decimal) : IsNearest d.value d.word := by
  have hone : (0 : ℚ) < valueOf 1 := by
    rw [← valueOf_zero]
    exact valueOf_strictMono Nat.zero_lt_one
  have hzero : ∀ {q : ℚ}, 0 ≤ q → 2 * q < valueOf 1 → IsNearest q 0 := by
    intro q hlo hhalf
    refine .of_below (Nat.zero_le _) ?_ ?_ (.inl ?_)
    · rw [valueOf_zero]
      exact hlo
    · rw [Nat.zero_add]
      linarith
    · rw [valueOf_zero, Nat.zero_add, zero_add]
      exact hhalf
  by_cases hne : d.significand = 0
  · have hvalue : d.value = 0 := by rw [value, hne, Nat.cast_zero, zero_mul]
    rw [word, if_pos hne, hvalue]
    exact hzero (le_refl _) (by linarith)
  · obtain ⟨hlo, hhi⟩ := value_bounds hne
    have hten : (1 : ℚ) ≤ 10 := by norm_num
    simp only [word, hne, if_false]
    by_cases hlarge : overflowPlaces ≤ d.exponent + digitCount d.significand
    · rw [if_pos hlarge]
      refine .of_infinity ?_
      calc valueOf infinityWord ≤ 10 ^ (309 : ℤ) := valueOf_infinityWord_le
        _ ≤ 10 ^ (d.exponent + digitCount d.significand - 1) :=
            zpow_le_zpow_right₀ hten (by unfold overflowPlaces at hlarge; omega)
        _ ≤ d.value := hlo
    · rw [if_neg hlarge]
      by_cases hsmall : d.exponent + digitCount d.significand ≤ underflowPlaces
      · rw [if_pos hsmall]
        have hnonneg : 0 ≤ d.value := le_trans (by positivity) hlo
        refine hzero hnonneg ?_
        calc 2 * d.value < 2 * 10 ^ (d.exponent + digitCount d.significand) := by linarith
          _ ≤ 2 * 10 ^ (-324 : ℤ) := by
              have hle := zpow_le_zpow_right₀ hten hsmall
              rw [underflowPlaces] at hle
              linarith
          _ < valueOf 1 := two_mul_lt_valueOf_one
      · rw [if_neg hsmall, value_eq_div]
        exact isNearest_nearestWord d.num d.den_pos

end Decimal

end SheetFormula
