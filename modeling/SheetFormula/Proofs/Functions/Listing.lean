/-
  SheetFormula.Proofs.Functions.Listing

  What a function table shows of itself.  Every change writes under a name in
  small letters, and small letters stay what they are, so each key finds its own
  function (`HasSmallKeys.find?_eq`), which has the key for its name.  Main
  statement: after any history the list of names, the size and the three ways to
  ask for a name tell what the table keeps (`showsItself_afterAll`).
-/
import Mathlib.Data.Set.Card
import SheetFormula.Proofs.Functions.Origins
import SheetFormula.Proofs.Texts.SmallLetters

namespace SheetFormula

variable {σ : Type}

/-! ## The order of the names -/

/-- The code points of a text. -/
def Text.codes (s : String) : List Nat := s.toList.map Char.toNat

theorem Text.codes_lt_of_compare {s s' : String} (h : compare s s' = .lt) : codes s < codes s' := by
  have hlt : s < s' := compareOfLessAndEq_eq_lt.mp h
  exact List.map_lt (fun _ _ hc => hc) (String.lt_iff.mp hlt)

/-! ## Keys -/

/-- Adding writes under the name in small letters. -/
theorem FunctionTable.mem_of_add {t t' : FunctionTable σ} {f : SheetFunction σ}
    (h : t.add f = .ok t') {key : String} (hkey : key ∈ t'.entries) :
    Text.lower f.name = key ∨ key ∈ t.entries := by
  unfold add at h
  split at h
  · cases h
  · cases h
    rwa [Std.TreeMap.mem_insert, Std.LawfulEqCmp.compare_eq_iff_eq] at hkey

theorem FunctionTable.mem_of_remove {t t' : FunctionTable σ} {name key : String} {found : Bool}
    (h : t.remove name = .ok (found, t')) (hkey : key ∈ t'.entries) : key ∈ t.entries := by
  unfold remove at h
  simp only at h
  split at h
  · cases h
    exact hkey
  · split at h
    · cases h
    · cases h
      exact Std.TreeMap.mem_of_mem_erase hkey

/-- A change writes under its name in small letters, and under no other key. -/
theorem Change.mem_of_apply {t t' : FunctionTable σ} {c : Change σ} (h : c.apply t = .ok t')
    {key : String} (hkey : key ∈ t'.entries) :
    Text.lower c.subject = key ∨ key ∈ t.entries := by
  cases c with
  | add f => exact FunctionTable.mem_of_add h hkey
  | addAlias name target =>
      rw [apply, FunctionTable.addAlias] at h
      split at h
      · exact FunctionTable.mem_of_add h hkey
      · cases h
  | remove name =>
      rw [apply] at h
      cases hremove : t.remove name with
      | error e => rw [hremove] at h; cases h
      | ok r =>
          rw [hremove] at h
          cases h
          exact .inr (FunctionTable.mem_of_remove hremove hkey)

namespace FunctionTable

/-- All keys are in small letters. -/
def HasSmallKeys (t : FunctionTable σ) : Prop := ∀ key ∈ t.entries, Text.lower key = key

theorem HasSmallKeys.apply {t t' : FunctionTable σ} {c : Change σ} (h : t.HasSmallKeys)
    (happly : c.apply t = .ok t') : t'.HasSmallKeys := by
  intro key hkey
  rcases Change.mem_of_apply happly hkey with rfl | hold
  · exact Text.lower_lower c.subject
  · exact h key hold

theorem HasSmallKeys.afterAll {t : FunctionTable σ} (h : t.HasSmallKeys) (cs : List (Change σ)) :
    (t.afterAll cs).HasSmallKeys :=
  afterAll_induction (fun _ _ _ _ ht happly => ht.apply happly) h

theorem IsShipped.hasSmallKeys {t : FunctionTable σ} (h : t.IsShipped) : t.HasSmallKeys :=
  fun _ hkey => h.lower_of_mem_keys (Std.TreeMap.mem_keys.mpr hkey)

/-! ## What a table keeps and what it shows -/

/-- The function is kept under the key. -/
def Keeps (t : FunctionTable σ) (key : String) (f : SheetFunction σ) : Prop :=
  t.entries[key]? = some f

/-- The key begins with two underscores. -/
def IsReservedKey (key : String) : Prop := "__".toList <+: key.toList

/-- The names, the size and the ways to ask for a name tell what the table keeps. -/
structure ShowsItself (t : FunctionTable σ) : Prop where
  name_eq : ∀ key f, t.Keeps key f → f.name = key
  increasing : t.names.Pairwise fun a b => Text.codes a < Text.codes b
  nodup : t.names.Nodup
  mem_names : ∀ key, key ∈ t.names ↔ (∃ f, t.Keeps key f) ∧ ¬ IsReservedKey key
  size_eq : t.size = t.names.length + {key | (∃ f, t.Keeps key f) ∧ IsReservedKey key}.ncard
  found : ∀ name ∈ t.names, (∃ f, t.find? name = some f) ∧
    (t.describe? name).map (·.name) = some name
  presence : ∀ name, (t.contains name = true ↔ ∃ f, t.find? name = some f) ∧
    (t.contains name = true ↔ ∃ info, t.describe? name = some info)

section

variable {t : FunctionTable σ}

theorem isReservedName_iff {key : String} : isReservedName key = true ↔ IsReservedKey key :=
  List.isPrefixOf_iff_prefix

theorem mem_keys_iff {key : String} : key ∈ t.entries.keys ↔ ∃ f, t.Keeps key f := by
  rw [Std.TreeMap.mem_keys, Std.TreeMap.mem_iff_isSome_getElem?, Option.isSome_iff_exists]
  rfl

/-- A key finds the function that is kept under it. -/
theorem HasSmallKeys.find?_eq (h : t.HasSmallKeys) {key : String} {f : SheetFunction σ}
    (hf : t.Keeps key f) : t.find? key = some f := by
  have hkey : key ∈ t.entries := Std.TreeMap.mem_keys.mp (mem_keys_iff.mpr ⟨f, hf⟩)
  rw [find?, h key hkey]
  exact hf

theorem increasing_names (t : FunctionTable σ) :
    t.names.Pairwise fun a b => Text.codes a < Text.codes b :=
  (Std.TreeMap.ordered_keys.imp Text.codes_lt_of_compare).filter _

theorem nodup_names (t : FunctionTable σ) : t.names.Nodup := Std.TreeMap.nodup_keys.filter _

theorem mem_names_iff {key : String} :
    key ∈ t.names ↔ (∃ f, t.Keeps key f) ∧ ¬ IsReservedKey key := by
  rw [names, List.mem_filter, mem_keys_iff, ← isReservedName_iff, Bool.not_eq_true',
    Bool.not_eq_true]

/-- What is not listed are the keys of operators. -/
theorem size_eq_length_names_add (t : FunctionTable σ) :
    t.size = t.names.length + {key | (∃ f, t.Keeps key f) ∧ IsReservedKey key}.ncard := by
  have hreserved : {key | (∃ f, t.Keeps key f) ∧ IsReservedKey key} =
      ((t.entries.keys.filter isReservedName).toFinset : Set String) := by
    ext key
    simp only [Set.mem_ofPred_eq, List.coe_toFinset, List.mem_filter, mem_keys_iff,
      isReservedName_iff]
  have hcard : {key | (∃ f, t.Keeps key f) ∧ IsReservedKey key}.ncard =
      (t.entries.keys.filter isReservedName).length := by
    rw [hreserved, Set.ncard_coe_finset, List.toFinset_card_of_nodup]
    exact Std.TreeMap.nodup_keys.filter _
  rw [hcard, size, names, ← Std.TreeMap.length_keys]
  have := List.length_eq_length_filter_add (l := t.entries.keys) isReservedName
  omega

end

/-- After any history a table shows what it keeps. -/
theorem showsItself_afterAll {first : FunctionTable σ} (hfirst : first.IsShipped)
    (cs : List (Change σ)) : (first.afterAll cs).ShowsItself := by
  have hsmall : (first.afterAll cs).HasSmallKeys := hfirst.hasSmallKeys.afterAll cs
  have hname : ∀ key f, (first.afterAll cs).Keeps key f → f.name = key := by
    intro key f hf
    have hkey : key ∈ (first.afterAll cs).entries :=
      Std.TreeMap.mem_keys.mp (mem_keys_iff.mpr ⟨f, hf⟩)
    rw [hfirst.namedByKeys.afterAll cs key f (hsmall.find?_eq hf), hsmall key hkey]
  refine {
    name_eq := hname
    increasing := increasing_names _
    nodup := nodup_names _
    mem_names := fun _ => mem_names_iff
    size_eq := size_eq_length_names_add _
    found := fun name hlisted => ?_
    presence := fun name => ?_ }
  · obtain ⟨⟨f, hf⟩, -⟩ := mem_names_iff.mp hlisted
    have hfind := hsmall.find?_eq hf
    refine ⟨⟨f, hfind⟩, ?_⟩
    rw [describe?, hfind]
    exact congrArg some (hname name f hf)
  · refine ⟨contains_eq_true_iff, ?_⟩
    rw [contains_eq_isSome_find?, ← Option.isSome_iff_exists, describe?, Option.isSome_map]

/-- A name whose capitals become small with a final sigma gets a second name with a dotted capital,
    takes the place of another function in its own spelling, and is removed in a third one. -/
def wordsRenamed : List (Change Unit) :=
  [.add { name := "ΟΔΟΣ", body := fun _ => pure .null }, .addAlias "İF" "οδος",
   .addAlias "__x" "Οδος", .add { name := "SUM", body := fun _ => pure .null },
   .remove "ΟδοΣ"]

theorem showsItself_afterAll_wordsRenamed :
    IsShipped (operators : FunctionTable Unit) ∧
      (operators.afterAll wordsRenamed : FunctionTable Unit).ShowsItself :=
  ⟨.operators, showsItself_afterAll .operators wordsRenamed⟩

/-- Two names beside those of the fourteen operators, one of them listed. -/
example : ((operators : FunctionTable Unit).afterAll
      [.addAlias "İF" "__ADD", .addAlias "__x" "İf"]).names = ["i̇f"] ∧
    ((operators : FunctionTable Unit).afterAll
      [.addAlias "İF" "__ADD", .addAlias "__x" "İf"]).size = 16 := by
  decide +kernel

end FunctionTable

end SheetFormula
