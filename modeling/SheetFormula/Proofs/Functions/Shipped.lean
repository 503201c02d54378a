/-
  SheetFormula.Proofs.Functions.Shipped

  What a table holds before any change.  A table that is made of a list finds
  the last function of the list with a name (`find?_ofList`).  The two tables
  that engines begin with are made of functions of the library, all of which
  are marked and have names in small letters.
-/
import SheetFormula.FunctionTable
import SheetFormula.Proofs.Texts.Ascii

namespace SheetFormula

variable {σ : Type}

namespace FunctionTable

/-! ## Tables made of lists -/

theorem getElem?_foldl_insert (fs : List (SheetFunction σ))
    (entries : Std.TreeMap String (SheetFunction σ)) (key : String) :
    (fs.foldl (fun entries f => entries.insert f.name f) entries)[key]? =
      (fs.reverse.find? (·.name == key)).or entries[key]? := by
  induction fs generalizing entries with
  | nil => rfl
  | cons f fs ih =>
      rw [List.foldl_cons, ih, List.reverse_cons, List.find?_append, Option.or_assoc]
      by_cases hname : f.name = key <;>
        simp [Std.TreeMap.getElem?_insert, Std.LawfulEqCmp.compare_eq_iff_eq, hname]

/-- The last function of the list with a name is found. -/
theorem find?_ofList (fs : List (SheetFunction σ)) (name : String) :
    (ofList fs).find? name = fs.reverse.find? (·.name == Text.lower name) := by
  rw [find?, ofList, getElem?_foldl_insert, Std.TreeMap.getElem?_emptyc, Option.or_none]

theorem mem_of_find?_ofList {fs : List (SheetFunction σ)} {name : String} {f : SheetFunction σ}
    (h : (ofList fs).find? name = some f) : f ∈ fs ∧ f.name = Text.lower name := by
  rw [find?_ofList] at h
  exact ⟨List.mem_reverse.mp (List.mem_of_find?_eq_some h), by simpa using List.find?_some h⟩

theorem contains_ofList {fs : List (SheetFunction σ)} {f : SheetFunction σ} {name : String}
    (h : f ∈ fs) (hname : f.name = Text.lower name) : (ofList fs).contains name = true := by
  rw [contains_eq_isSome_find?, find?_ofList, List.find?_isSome]
  exact ⟨f, List.mem_reverse.mpr h, by simp [hname]⟩

/-- A key is the name of one of the functions. -/
theorem exists_of_mem_keys_ofList {fs : List (SheetFunction σ)} {key : String}
    (h : key ∈ (ofList fs).entries.keys) : ∃ f ∈ fs, f.name = key := by
  rw [Std.TreeMap.mem_keys, Std.TreeMap.mem_iff_isSome_getElem?, ofList, getElem?_foldl_insert,
    Std.TreeMap.getElem?_emptyc, Option.or_none, List.find?_isSome] at h
  obtain ⟨f, hf, hname⟩ := h
  exact ⟨f, List.mem_reverse.mp hf, by simpa using hname⟩

end FunctionTable

/-! ## The library -/

namespace Library

/-- What the functions of the library say about themselves. -/
def catalogue : List FunctionInfo := (standard : List (SheetFunction Unit)).map SheetFunction.info

theorem info_mem_catalogue {f : SheetFunction σ} (h : f ∈ standard) : f.info ∈ catalogue := by
  -- No function says anything about the host.
  have hsame : (standard : List (SheetFunction σ)).map SheetFunction.info = catalogue := rfl
  rw [← hsame]
  exact List.mem_map_of_mem h

/-- Whether the character is no capital and no letter with a mark; as a Boolean it is tested on the
    characters of a name only. -/
def isPlainSmall (c : Char) : Bool := c.toNat < 128 && !c.isUpper

theorem marked_and_small :
    ∀ i ∈ catalogue, i.builtin = true ∧ i.name.toList.all isPlainSmall = true := by
  decide +kernel

theorem builtin_of_mem {f : SheetFunction σ} (h : f ∈ standard) : f.builtin = true :=
  (marked_and_small f.info (info_mem_catalogue h)).1

theorem lower_name_of_mem {f : SheetFunction σ} (h : f ∈ standard) :
    Text.lower f.name = f.name := by
  have hsmall := (marked_and_small f.info (info_mem_catalogue h)).2
  refine Text.lower_eq_self fun c hc => ?_
  simpa [isPlainSmall] using List.all_eq_true.mp hsmall c hc

/-- The library has a function of this name that answers all arguments with these values and never
    fails, whatever the host is. -/
def Computes (name : String) (f : List Value → Value) : Prop :=
  ∀ σ : Type, ∃ g : SheetFunction σ, g ∈ standard ∧ g.name = name ∧
    ∀ args state, (g.body args).runOn state = (.ok (f args), state)

theorem computes_of_mem {name : String} {minArgs : Nat} {maxArgs : Option Nat}
    {f : List Value → Value}
    (h : ∀ σ : Type, total name minArgs maxArgs f ∈ (standard : List (SheetFunction σ))) :
    Computes name f :=
  fun σ => ⟨_, h σ, rfl, fun _ _ => rfl⟩

theorem mem_standard_of_mem_operators {f : SheetFunction σ} (h : f ∈ operators) : f ∈ standard := by
  simp [standard, h]

end Library

/-! ## Tables before any change -/

namespace FunctionTable

/-- One of the tables that engines begin with. -/
inductive IsShipped : FunctionTable σ → Prop where
  | operators : IsShipped operators
  | standard : IsShipped standard

namespace IsShipped

variable {t : FunctionTable σ}

theorem exists_list (h : t.IsShipped) : ∃ fs, t = ofList fs ∧ ∀ f ∈ fs, f ∈ Library.standard := by
  cases h with
  | operators => exact ⟨_, rfl, fun _ => Library.mem_standard_of_mem_operators⟩
  | standard => exact ⟨_, rfl, fun _ hf => hf⟩

/-- What is found is a function of the library under its own name. -/
theorem mem_of_find? (h : t.IsShipped) {name : String} {f : SheetFunction σ}
    (hf : t.find? name = some f) : f ∈ Library.standard ∧ f.name = Text.lower name := by
  obtain ⟨fs, rfl, hfs⟩ := h.exists_list
  obtain ⟨hmem, hname⟩ := mem_of_find?_ofList hf
  exact ⟨hfs f hmem, hname⟩

theorem lower_of_mem_keys (h : t.IsShipped) {key : String} (hkey : key ∈ t.entries.keys) :
    Text.lower key = key := by
  obtain ⟨fs, rfl, hfs⟩ := h.exists_list
  obtain ⟨f, hf, rfl⟩ := exists_of_mem_keys_ofList hkey
  exact Library.lower_name_of_mem (hfs f hf)

end IsShipped

end FunctionTable

end SheetFormula
