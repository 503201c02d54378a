/-
  SheetFormula.Proofs.Expressions.Parts

  The parts of expressions.  A path of argument positions leads from the root
  to a part, and a part can be replaced by another expression.  The variables
  that occur in an expression and the functions that it calls are those of its
  parts.
-/
import SheetFormula.Expr.Variables

namespace SheetFormula.Expr

/-- The part of an expression at a path. -/
def subexpr? : Expr → List Nat → Option Expr
  | e, [] => some e
  | call _ args, i :: path =>
    match args[i]? with
    | some arg => subexpr? arg path
    | none => none
  | _, _ :: _ => none

theorem subexpr?_nil (e : Expr) : e.subexpr? [] = some e := by rw [subexpr?]

theorem subexpr?_cons {f : String} {args : List Expr} {arg : Expr} {i : Nat}
    (harg : args[i]? = some arg) (path : List Nat) :
    (call f args).subexpr? (i :: path) = arg.subexpr? path := by
  rw [subexpr?, harg]

/-- A part below the root is a part of one of the arguments of a call. -/
theorem exists_of_subexpr?_cons {e part : Expr} {i : Nat} {path : List Nat}
    (h : e.subexpr? (i :: path) = some part) :
    ∃ f args arg, e = call f args ∧ args[i]? = some arg ∧ arg.subexpr? path = some part := by
  cases e with
  | call f args =>
      cases harg : args[i]? with
      | some arg => exact ⟨f, args, arg, rfl, harg, subexpr?_cons harg path ▸ h⟩
      | none => simp [subexpr?, harg] at h
  | number x => simp [subexpr?] at h
  | text s => simp [subexpr?] at h
  | bool b => simp [subexpr?] at h
  | var name => simp [subexpr?] at h

/-! ## Properties of all parts -/

/-- Every part has the property, the whole included. -/
def EveryPart (p : Expr → Prop) (e : Expr) : Prop := ∀ path part, e.subexpr? path = some part → p part

namespace EveryPart

variable {p : Expr → Prop}

/-- The whole is one of its parts. -/
theorem root {e : Expr} (h : EveryPart p e) : p e := h [] e (subexpr?_nil e)

theorem of_mem_args {f : String} {args : List Expr} (h : EveryPart p (call f args)) :
    ∀ arg ∈ args, EveryPart p arg := by
  intro arg hmem path part hpart
  obtain ⟨i, harg⟩ := List.mem_iff_getElem?.mp hmem
  exact h (i :: path) part (subexpr?_cons harg path ▸ hpart)

/-- An expression that is no call has no other part. -/
theorem leaf {e : Expr} (hleaf : ∀ f args, e ≠ call f args) (h : p e) : EveryPart p e := by
  intro path part hpart
  cases path with
  | nil =>
      rw [subexpr?_nil] at hpart
      cases hpart
      exact h
  | cons i path =>
      obtain ⟨f, args, _, rfl, _⟩ := exists_of_subexpr?_cons hpart
      exact absurd rfl (hleaf f args)

theorem call {f : String} {args : List Expr} (h : p (call f args))
    (hargs : ∀ arg ∈ args, EveryPart p arg) : EveryPart p (call f args) := by
  intro path part hpart
  cases path with
  | nil =>
      rw [subexpr?_nil] at hpart
      cases hpart
      exact h
  | cons i path =>
      obtain ⟨_, _, arg, hcall, harg, hpath⟩ := exists_of_subexpr?_cons hpart
      cases hcall
      exact hargs arg (List.mem_of_getElem? harg) path part hpath

end EveryPart

/-! ## Variables -/

theorem mem_occurrencesIn {x : String} {arg : Expr} (hx : x ∈ arg.occurrences) :
    {args : List Expr} → arg ∈ args → x ∈ occurrencesIn args
  | _ :: _, h => by
      rw [occurrencesIn, List.mem_append]
      rcases List.mem_cons.mp h with rfl | h
      · exact .inl hx
      · exact .inr (mem_occurrencesIn hx h)

/-- A part that is a variable is an occurrence of it. -/
theorem mem_occurrences_of_subexpr? {e : Expr} {path : List Nat} {x : String}
    (h : e.subexpr? path = some (var x)) : x ∈ e.occurrences := by
  induction path generalizing e with
  | nil =>
      rw [subexpr?_nil] at h
      cases h
      simp [occurrences]
  | cons i path ih =>
      obtain ⟨f, args, arg, rfl, harg, hpath⟩ := exists_of_subexpr?_cons h
      rw [occurrences]
      exact mem_occurrencesIn (ih hpath) (List.mem_of_getElem? harg)

/-! ## Names of called functions -/

/-- The expression calls the function; special forms are no functions. -/
def Calls (e : Expr) (f : String) : Prop :=
  ∃ path args, e.subexpr? path = some (call f args) ∧ f ≠ "if" ∧ f ≠ "iferr"

theorem not_calls_of_leaf {e : Expr} (hleaf : ∀ f args, e ≠ call f args) (f : String) :
    ¬ e.Calls f := by
  rintro ⟨path, args, hpart, -⟩
  cases path with
  | nil =>
      rw [subexpr?_nil] at hpart
      cases hpart
      exact hleaf f args rfl
  | cons i path =>
      obtain ⟨g, args', _, rfl, _⟩ := exists_of_subexpr?_cons hpart
      exact hleaf g args' rfl

/-- A call calls its own function and what its arguments call. -/
theorem calls_call_iff {f g : String} {args : List Expr} :
    (call f args).Calls g ↔
      g = f ∧ f ≠ "if" ∧ f ≠ "iferr" ∨ ∃ arg ∈ args, arg.Calls g := by
  constructor
  · rintro ⟨path, args', hpart, hg⟩
    cases path with
    | nil =>
        rw [subexpr?_nil] at hpart
        cases hpart
        exact .inl ⟨rfl, hg⟩
    | cons i path =>
        obtain ⟨_, _, arg, hcall, harg, hpath⟩ := exists_of_subexpr?_cons hpart
        cases hcall
        exact .inr ⟨arg, List.mem_of_getElem? harg, path, args', hpath, hg⟩
  · rintro (⟨rfl, hf⟩ | ⟨arg, hmem, path, args', hpart, hg⟩)
    · exact ⟨[], args, subexpr?_nil _, hf⟩
    · obtain ⟨i, harg⟩ := List.mem_iff_getElem?.mp hmem
      exact ⟨i :: path, args', (subexpr?_cons harg path).trans hpart, hg⟩

/-! ## Replacement -/

/-- The expression with another part at a path; a path that leads to no part changes nothing. -/
def replaceAt : Expr → List Nat → Expr → Expr
  | _, [], new => new
  | call f args, i :: path, new => call f (args.modify i fun arg => replaceAt arg path new)
  | e, _ :: _, _ => e

theorem replaceAt_cons (f : String) (args : List Expr) (i : Nat) (path : List Nat) (new : Expr) :
    (call f args).replaceAt (i :: path) new =
      call f (args.modify i fun arg => arg.replaceAt path new) := by
  rw [replaceAt]

/-- At the path of a part stands what has been put there. -/
theorem subexpr?_replaceAt {e old : Expr} {path : List Nat} (h : e.subexpr? path = some old)
    (new : Expr) : (e.replaceAt path new).subexpr? path = some new := by
  induction path generalizing e with
  | nil => simp [replaceAt, subexpr?]
  | cons i path ih =>
      obtain ⟨f, args, arg, rfl, harg, hpath⟩ := exists_of_subexpr?_cons h
      have hmodify : (args.modify i fun arg => arg.replaceAt path new)[i]? =
          some (arg.replaceAt path new) := by
        simp [harg]
      rw [replaceAt_cons, subexpr?_cons hmodify]
      exact ih hpath

end SheetFormula.Expr
