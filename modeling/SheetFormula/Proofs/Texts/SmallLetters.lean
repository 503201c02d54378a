/-
  SheetFormula.Proofs.Texts.SmallLetters

  A text in small letters stays as it is when it is put in small letters again
  (`lower_lower`).  The table maps no letter to one that has another small form,
  which is checked run against run (`misses_of_mem_lowerRuns`), and both small
  sigmas are small letters, wherever a capital sigma stands.
-/
import SheetFormula.Proofs.Texts.Ascii

namespace SheetFormula.Text

/-! ## The table -/

/-- The last character that a letter of the run maps to. -/
def CaseRun.lastTarget (run : CaseRun) : Nat := run.target + (run.last - run.first)

/-- Whether no letter of the first run maps to a letter of the second: what it maps to does not reach
    into the second run, or lies in the gaps of a run that leaves every other character out. -/
def CaseRun.misses (run other : CaseRun) : Bool :=
  !(other.first.ble run.lastTarget && run.target.ble other.last) ||
    (other.stride == 2 && (run.stride == 2 || run.first == run.last) &&
      (run.target + other.first) % 2 == 1)

theorem CaseRun.exists_of_image? {run : CaseRun} {n m : Nat} (h : run.image? n = some m) :
    ∃ k, m = run.target + k ∧ k ≤ run.last - run.first ∧ k % run.stride = 0 := by
  unfold image? at h
  split at h
  · next hrun =>
    cases h
    exact ⟨n - run.first, rfl, by omega, hrun.2.2⟩
  · cases h

theorem CaseRun.image?_eq_none_of_misses {run other : CaseRun} (h : run.misses other = true)
    {n m : Nat} (hm : run.image? n = some m) : other.image? m = none := by
  obtain ⟨k, rfl, hk, hstride⟩ := exists_of_image? hm
  rw [image?, if_neg]
  rintro ⟨hfirst, hlast, hgap⟩
  simp only [misses, lastTarget, Bool.or_eq_true, Bool.not_eq_true',
    Bool.and_eq_true, beq_iff_eq, ← Bool.not_eq_true, Nat.ble_eq] at h
  rcases h with hapart | ⟨⟨hother, hrun⟩, hodd⟩
  · omega
  · -- The image is an even distance behind a letter in a gap.
    rw [hother] at hgap
    have heven : k % 2 = 0 := by
      rcases hrun with hrun | hrun
      · rwa [hrun] at hstride
      · omega
    omega

theorem misses_of_mem_lowerRuns {run other : CaseRun} (hrun : run ∈ lowerRuns)
    (hother : other ∈ lowerRuns) : run.misses other = true := by
  have hall : (lowerRuns.all fun run => lowerRuns.all run.misses) = true := by decide +kernel
  exact List.all_eq_true.mp (List.all_eq_true.mp hall run hrun) other hother

/-- What a run maps to are characters, and the dotted capital I, which has a line of its own, is none
    of them. -/
theorem targets_of_mem_lowerRuns : ∀ run ∈ lowerRuns, run.lastTarget < 0x130 ∨
    0x130 < run.target ∧ run.lastTarget < 0xD800 ∨
    0xE000 ≤ run.target ∧ run.lastTarget < 0x110000 := by
  decide +kernel

/-! ## Single characters -/

/-- The character is its own small form. -/
def IsSmall (c : Char) : Prop := lowerChar c = [c]

instance (c : Char) : Decidable (IsSmall c) := inferInstanceAs (Decidable (lowerChar c = [c]))

/-- A capital sigma is not small, though the text decides what it becomes. -/
theorem IsSmall.ne_sigma {c : Char} (h : IsSmall c) : c ≠ 'Σ' := by
  rintro rfl
  exact absurd h (by decide +kernel)

theorem isSmall_ofNat {n : Nat} (hvalid : n.isValidChar) (hlookup : lowerExpansions.lookup n = none)
    (hruns : lowerRuns.findSome? (·.image? n) = none) : IsSmall (Char.ofNat n) := by
  have hn : (Char.ofNat n).toNat = n := by
    rw [Char.ofNat, dif_pos hvalid]
    rfl
  rw [IsSmall, lowerChar, hn, caseImage, hlookup, hruns]
  rfl

/-- What a run maps a letter to is small. -/
theorem isSmall_of_image? {run : CaseRun} (hrun : run ∈ lowerRuns) {n m : Nat}
    (h : run.image? n = some m) : IsSmall (Char.ofNat m) := by
  have hbounds := targets_of_mem_lowerRuns run hrun
  obtain ⟨k, hm, hk, -⟩ := CaseRun.exists_of_image? h
  unfold CaseRun.lastTarget at hbounds
  refine isSmall_ofNat ?_ (lookup_lowerExpansions (by omega)) ?_
  · unfold Nat.isValidChar
    omega
  · exact List.findSome?_eq_none_iff.mpr fun other hother =>
      CaseRun.image?_eq_none_of_misses (misses_of_mem_lowerRuns hrun hother) h

theorem isSmall_of_mem_lowerChar {c d : Char} (h : d ∈ lowerChar c) : IsSmall d := by
  unfold lowerChar caseImage at h
  split at h
  -- The dotted capital I becomes a small i and a dot.
  · next image himage =>
    obtain ⟨front, behind, htable, -⟩ := List.lookup_eq_some_iff.mp himage
    have hentry : (c.toNat, image) ∈ lowerExpansions := htable ▸ by simp
    rw [lowerExpansions, List.mem_singleton] at hentry
    obtain ⟨-, rfl⟩ := Prod.mk.inj hentry
    simp only [List.map_cons, List.map_nil, List.mem_cons, List.not_mem_nil, or_false] at h
    rcases h with rfl | rfl
    · decide +kernel
    · decide +kernel
  · next hlookup =>
    rw [List.map_singleton, List.mem_singleton] at h
    cases hruns : lowerRuns.findSome? (·.image? c.toNat) with
    | some m =>
        obtain ⟨run, hrun, himage⟩ := List.exists_of_findSome?_eq_some hruns
        rw [h, hruns]
        exact isSmall_of_image? hrun himage
    | none =>
        rw [hruns, Option.getD_none, Char.ofNat_toNat] at h
        rw [h, ← Char.ofNat_toNat c]
        exact isSmall_ofNat c.valid hlookup hruns

/-! ## Texts -/

theorem isSmall_of_mem_lowerAfter {before cs : List Char} :
    ∀ d ∈ lowerAfter before cs, IsSmall d := by
  induction cs generalizing before with
  | nil => simp [lowerAfter]
  | cons c cs ih =>
      intro d hd
      rw [lowerAfter, List.mem_append] at hd
      rcases hd with hd | hd
      · split at hd
        -- Both small sigmas are small letters.
        · rw [List.mem_singleton] at hd
          subst hd
          split
          · decide +kernel
          · decide +kernel
        · exact isSmall_of_mem_lowerChar hd
      · exact ih d hd

theorem lowerAfter_of_isSmall (before : List Char) {cs : List Char} (h : ∀ c ∈ cs, IsSmall c) :
    lowerAfter before cs = cs := by
  induction cs generalizing before with
  | nil => rfl
  | cons c cs ih =>
      obtain ⟨hc, hcs⟩ := List.forall_mem_cons.mp h
      rw [lowerAfter, if_neg hc.ne_sigma, show lowerChar c = [c] from hc, ih _ hcs]
      rfl

/-- A text that is in small letters stays as it is. -/
theorem lower_lower (s : String) : lower (lower s) = lower s := by
  have hsmall : lowerAfter [] (lowerAfter [] s.toList) = lowerAfter [] s.toList :=
    lowerAfter_of_isSmall [] isSmall_of_mem_lowerAfter
  rw [lower, lower, String.toList_ofList, hsmall]

/-- The dot of the capital I stays as a mark, and a sigma at the end of a word is the final one. -/
example : lower "İΣ ΟΔΟΣ" = "i̇ς οδος" ∧ lower "i̇ς οδος" = "i̇ς οδος" := by decide +kernel

end SheetFormula.Text
