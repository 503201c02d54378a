/-
  SheetFormula.Proofs.Functions.Origins

  What is known of all functions that a table can come to hold.  A change makes
  an entry out of the function that it adds or of one that is there, so what
  holds of these holds of the entry (`EveryEntry.apply`).  So each function has
  the name that it is kept by, and its body fails with no other errors than the
  bodies of the first table and those that have been added
  (`RaisesOnly.afterAll`).
-/
import SheetFormula.Proofs.Evaluation.Failures
import SheetFormula.Proofs.Functions.History
import SheetFormula.Proofs.Functions.Shipped

namespace SheetFormula

variable {σ : Type}

/-- The body fails with no other errors, whatever its arguments are. -/
def SheetFunction.RaisesOnly (p : Error → Prop) (f : SheetFunction σ) : Prop :=
  ∀ vs, (f.body vs).FailsOnlyWith p

/-- Every function that the change brings along fails with no other errors. -/
def Change.RaisesOnly (p : Error → Prop) : Change σ → Prop
  | add f => f.RaisesOnly p
  | addAlias _ _ => True
  | remove _ => True

namespace FunctionTable

/-! ## Entries -/

/-- Every function has the property, together with the name that it is kept by. -/
def EveryEntry (q : String → SheetFunction σ → Prop) (t : FunctionTable σ) : Prop :=
  ∀ name f, t.find? name = some f → q (Text.lower name) f

theorem EveryEntry.apply {q : String → SheetFunction σ → Prop} {t t' : FunctionTable σ}
    {c : Change σ} (h : t.EveryEntry q) (happly : c.apply t = .ok t')
    (hentry : ∀ g, c.entry t = some g → q (Text.lower c.subject) g) : t'.EveryEntry q := by
  intro name f hf
  rw [Change.find?_of_apply happly] at hf
  split at hf
  · next habout =>
    rw [← show Text.lower c.subject = Text.lower name from habout]
    exact hentry f hf
  · exact h name f hf

/-! ## Names -/

/-- Every function has the name that it is kept by. -/
def NamedByKeys (t : FunctionTable σ) : Prop := t.EveryEntry fun key f => f.name = key

theorem NamedByKeys.apply {t t' : FunctionTable σ} {c : Change σ} (h : t.NamedByKeys)
    (happly : c.apply t = .ok t') : t'.NamedByKeys := by
  refine EveryEntry.apply h happly fun g hg => ?_
  cases c with
  | add f =>
      cases hg
      rfl
  | addAlias name target =>
      obtain ⟨f, _, rfl⟩ := Option.map_eq_some_iff.mp hg
      rfl
  | remove name => cases hg

theorem NamedByKeys.afterAll {t : FunctionTable σ} (h : t.NamedByKeys) (cs : List (Change σ)) :
    (t.afterAll cs).NamedByKeys :=
  afterAll_induction (fun _ _ _ _ ht happly => ht.apply happly) h

theorem IsShipped.namedByKeys {t : FunctionTable σ} (h : t.IsShipped) : t.NamedByKeys :=
  fun _ _ hf => (h.mem_of_find? hf).2

/-! ## Bodies -/

/-- All bodies fail with no other errors. -/
def RaisesOnly (p : Error → Prop) (t : FunctionTable σ) : Prop :=
  t.EveryEntry fun _ f => f.RaisesOnly p

theorem RaisesOnly.apply {p : Error → Prop} {t t' : FunctionTable σ} {c : Change σ}
    (h : t.RaisesOnly p) (hc : c.RaisesOnly p) (happly : c.apply t = .ok t') :
    t'.RaisesOnly p := by
  refine EveryEntry.apply h happly fun g hg => ?_
  cases c with
  | add f =>
      cases hg
      exact hc
  | addAlias name target =>
      -- The second name has the body of its target.
      obtain ⟨f, hf, rfl⟩ := Option.map_eq_some_iff.mp hg
      exact h target f hf
  | remove name => cases hg

theorem RaisesOnly.afterAll {p : Error → Prop} {t : FunctionTable σ} (h : t.RaisesOnly p)
    {cs : List (Change σ)} (hcs : ∀ c ∈ cs, c.RaisesOnly p) : (t.afterAll cs).RaisesOnly p :=
  afterAll_induction (fun c hc _ _ ht happly => ht.apply (hcs c hc) happly) h

end FunctionTable

/-! ## The library -/

namespace Library

/-- A function of the library refuses an argument or succeeds. -/
def IsRefusal (e : Error) : Prop := ∃ reason, e = .invalidArgument reason

theorem raisesOnly_total (p : Error → Prop) (name : String) (minArgs : Nat) (maxArgs : Option Nat)
    (body : List Value → Value) :
    (total name minArgs maxArgs body : SheetFunction σ).RaisesOnly p := fun _ => .pure _

theorem isRefusal_of_count {function : String} {v : Option Value} {e : Error}
    (h : count function v = .error e) : IsRefusal e := by
  unfold count at h
  split at h
  · cases h
  · split at h
    · cases h
      exact ⟨_, rfl⟩
    · cases h

theorem raisesOnly_counted (name : String) (f : Value → Nat → String) :
    (counted name f : SheetFunction σ).RaisesOnly IsRefusal := by
  refine fun vs => .ofExcept fun e he => ?_
  cases hcount : count (Text.upper name) vs[1]? with
  | error e' =>
      simp only [hcount] at he
      cases he
      exact isRefusal_of_count hcount
  | ok n =>
      simp only [hcount] at he
      cases he

theorem raisesOnly_of_mem {f : SheetFunction σ} (h : f ∈ standard) : f.RaisesOnly IsRefusal := by
  have hoperators : ∀ f ∈ (operators : List (SheetFunction σ)), f.RaisesOnly IsRefusal := by
    intro f hf
    rcases List.mem_append.mp hf with hf | hf
    · obtain ⟨op, _, rfl⟩ := List.mem_map.mp hf
      exact raisesOnly_total _ _ _ _ _
    · obtain ⟨op, _, rfl⟩ := List.mem_map.mp hf
      exact raisesOnly_total _ _ _ _ _
  have hall : ∀ f ∈ (standard : List (SheetFunction σ)), f.RaisesOnly IsRefusal := by
    simp only [standard, List.forall_mem_append]
    refine ⟨⟨⟨hoperators, ?_⟩, ?_⟩, ?_⟩
    · simp [numberFunctions, variadic, unaryNumber, binaryNumber, unary, binary, raisesOnly_total]
    · simp [textFunctions, variadic, unary, binary, raisesOnly_total, raisesOnly_counted]
    · simp [truthFunctions, variadic, unary, raisesOnly_total]
  exact hall f h

end Library

theorem SheetFunction.RaisesOnly.mono {p q : Error → Prop} {f : SheetFunction σ}
    (h : f.RaisesOnly p) (hpq : ∀ e, p e → q e) : f.RaisesOnly q :=
  fun vs => (h vs).mono hpq

/-- Before any change bodies only refuse arguments. -/
theorem FunctionTable.IsShipped.raisesOnly {t : FunctionTable σ} (h : t.IsShipped)
    {p : Error → Prop} (hp : ∀ e, Library.IsRefusal e → p e) : t.RaisesOnly p :=
  fun _ _ hf => (Library.raisesOnly_of_mem (h.mem_of_find? hf).1).mono hp

end SheetFormula
