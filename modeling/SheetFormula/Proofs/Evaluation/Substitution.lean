/-
  SheetFormula.Proofs.Evaluation.Substitution

  A variable stands for its value.  To evaluate an expression with a local
  variable bound is to evaluate, without the binding, the expression in which a
  literal of the value stands for the variable; functions cannot tell the two
  apart, and the variable is no longer a dependency (`eval_bind_eq_substitute`).
  Null has no literal.

  The value of a variable is looked up where the variable stands, and what it is
  replaced by need only have that value there (`eval_substitute`).
-/
import SheetFormula.Proofs.Evaluation.Run

namespace SheetFormula

variable {σ : Type}

/-! ## Literals of values -/

/-- The expression that writes a value down; nothing writes null. -/
def Value.literal : (v : Value) → v ≠ .null → Expr
  | number x, _ => .number x
  | text s, _ => .text s
  | bool b, _ => .bool b
  | null, h => absurd rfl h

theorem Expr.eval_literal (env : Environment σ) {v : Value} (hv : v ≠ .null) :
    (v.literal hv).eval env = pure v := by
  cases v with
  | number x => rw [Value.literal, eval]
  | text s => rw [Value.literal, eval]
  | bool b => rw [Value.literal, eval]
  | null => exact absurd rfl hv

theorem Expr.occurrences_literal {v : Value} (hv : v ≠ .null) :
    (v.literal hv).occurrences = [] := by
  cases v with
  | number x => rw [Value.literal, occurrences]
  | text s => rw [Value.literal, occurrences]
  | bool b => rw [Value.literal, occurrences]
  | null => exact absurd rfl hv

/-! ## Local variables -/

/-- The environment with a local variable, in place of an older one. -/
def Environment.bind (env : Environment σ) (x : String) (v : Value) : Environment σ :=
  { env with scope := { env.scope with locals := env.scope.locals.insert x v } }

@[simp] theorem Environment.bind_checkArity (env : Environment σ) (x : String) (v : Value) :
    (env.bind x v).checkArity = env.checkArity := rfl

theorem Environment.journaled_bind (env : Environment σ) (x : String) (v : Value) :
    (env.bind x v).journaled = env.journaled.bind x v := rfl

theorem Scope.get?_insert_locals (s : Scope) (x name : String) (v : Value) :
    Scope.get? { s with locals := s.locals.insert x v } name =
      if x = name then some v else s.get? name := by
  rw [Scope.get?, Scope.get?, Bindings.get?_insert]
  split <;> rfl

theorem Environment.lookup_bind (env : Environment σ) (x name : String) (v : Value) :
    (env.bind x v).lookup name = if x = name then pure v else env.lookup name := by
  have hget : (env.bind x v).scope.get? name = if x = name then some v else env.scope.get? name :=
    Scope.get?_insert_locals env.scope x name v
  by_cases hx : x = name
  · rw [lookup, hget, if_pos hx, if_pos hx]
  · rw [lookup, hget, if_neg hx, if_neg hx, lookup]

namespace Expr

/-! ## Substitution -/

mutual

/-- The expression with another one in place of a variable. -/
def substitute (e : Expr) (x : String) (new : Expr) : Expr :=
  match e with
  | number n => number n
  | text s => text s
  | bool b => bool b
  | var name => if x = name then new else var name
  | call f args => call f (substituteIn args x new)

/-- The arguments of a call with another expression in place of a variable. -/
def substituteIn (args : List Expr) (x : String) (new : Expr) : List Expr :=
  match args with
  | [] => []
  | e :: es => e.substitute x new :: substituteIn es x new

end

@[simp] theorem length_substituteIn (es : List Expr) (x : String) (new : Expr) :
    (substituteIn es x new).length = es.length := by
  induction es with
  | nil => rfl
  | cons e es ih => rw [substituteIn, List.length_cons, List.length_cons, ih]

/-! ## Values -/

section Values

variable {env : Environment σ} {x : String} {new : Expr} {v : Value}

mutual

/-- What has the value of the variable may stand for it. -/
theorem eval_substitute (hnew : new.eval env = pure v) :
    (e : Expr) → (e.substitute x new).eval env = e.eval (env.bind x v)
  | number n => by rw [substitute, eval, eval]
  | text s => by rw [substitute, eval, eval]
  | bool b => by rw [substitute, eval, eval]
  | var name => by
      rw [substitute, eval, Environment.lookup_bind]
      split
      · exact hnew
      -- Another variable stays, and the new binding does not hide it.
      · rw [eval]
  | call f args => by
      have hat := evalAt_substituteIn hnew args
      have hall := evalAll_substituteIn hnew args
      rw [substitute, eval, eval]
      -- The forms count their arguments, and as many are there as before.
      simp only [hat, hall, length_substituteIn, Environment.bind_checkArity]
      rfl

theorem evalAll_substituteIn (hnew : new.eval env = pure v) :
    (es : List Expr) → evalAll env (substituteIn es x new) = evalAll (env.bind x v) es
  | [] => by rw [substituteIn, evalAll, evalAll]
  | e :: es => by
      rw [substituteIn, evalAll, evalAll, eval_substitute hnew e, evalAll_substituteIn hnew es]

theorem evalAt_substituteIn (hnew : new.eval env = pure v) :
    (es : List Expr) → (position : Nat) →
      evalAt env (substituteIn es x new) position = evalAt (env.bind x v) es position
  | [], _ => by rw [substituteIn, evalAt, evalAt]
  | e :: es, 0 => by rw [substituteIn, evalAt, evalAt, eval_substitute hnew e]
  | e :: es, position + 1 => by
      rw [substituteIn, evalAt, evalAt, evalAt_substituteIn hnew es position]

end

end Values

/-! ## Variables -/

section Variables

variable {x : String} {new : Expr}

mutual

theorem occurrences_substitute (hnew : new.occurrences = []) :
    (e : Expr) → (e.substitute x new).occurrences = e.occurrences.filter (· != x)
  | number n => rfl
  | text s => rfl
  | bool b => rfl
  | var name => by
      by_cases hx : x = name
      · simp [substitute, occurrences, hnew, hx]
      · simp [substitute, occurrences, hx, Ne.symm hx]
  | call f args => by
      rw [substitute, occurrences, occurrences, occurrencesIn_substituteIn hnew args]

theorem occurrencesIn_substituteIn (hnew : new.occurrences = []) :
    (es : List Expr) → occurrencesIn (substituteIn es x new) =
      (occurrencesIn es).filter (· != x)
  | [] => rfl
  | e :: es => by
      rw [substituteIn, occurrencesIn, occurrencesIn, List.filter_append,
        occurrences_substitute hnew e, occurrencesIn_substituteIn hnew es]

end

theorem variableNames_substitute (hnew : new.occurrences = []) (e : Expr) :
    (e.substitute x new).variableNames = e.variableNames.filter (· != x) := by
  rw [variableNames, variableNames, occurrences_substitute hnew, eraseDups_filter]

end Variables

/-! ## A variable stands for its value -/

/-- Binding a local variable comes to the same as writing its value in its places: the same result,
    the same calls in the same order and the same state of the host at the end.  All variables but
    this one remain, in their order. -/
theorem eval_bind_eq_substitute (env : Environment σ) (e : Expr) (x : String) {v : Value}
    (hv : v ≠ .null) (host : σ) :
    (e.eval (env.bind x v)).runOn host =
        ((e.substitute x (v.literal hv)).eval env).runOn host ∧
      e.run (env.bind x v) host = (e.substitute x (v.literal hv)).run env host ∧
      (e.substitute x (v.literal hv)).variableNames = e.variableNames.filter (· != x) := by
  refine ⟨?_, ?_, variableNames_substitute (occurrences_literal hv) e⟩
  · rw [eval_substitute (eval_literal env hv)]
  -- A literal has its value in any environment, also in the one that keeps the journal.
  · rw [run, run, Environment.journaled_bind, eval_substitute (eval_literal env.journaled hv)]

/-- The local text stands in the condition and in the first branch, where the global truth value is
    hidden; `y` remains. -/
theorem eval_bind_eq_substitute_text :
    Value.text "a" ≠ .null ∧
      ((eval (.bind ⟨⟨.empty, .ofList [("x", .bool true)]⟩, .standard, true⟩ "x" (.text "a"))
            (.call "if" [.var "x", .call "len" [.var "x"], .var "y"])).runOn 0 =
          (eval ⟨⟨.empty, .ofList [("x", .bool true)]⟩, .standard, true⟩
            (.call "if" [.text "a", .call "len" [.text "a"], .var "y"])).runOn (0 : Nat) ∧
        run (.bind ⟨⟨.empty, .ofList [("x", .bool true)]⟩, .standard, true⟩ "x" (.text "a"))
            (.call "if" [.var "x", .call "len" [.var "x"], .var "y"]) 0 =
          run ⟨⟨.empty, .ofList [("x", .bool true)]⟩, .standard, true⟩
            (.call "if" [.text "a", .call "len" [.text "a"], .var "y"]) (0 : Nat) ∧
        variableNames (.call "if" [.text "a", .call "len" [.text "a"], .var "y"]) =
          (variableNames (.call "if" [.var "x", .call "len" [.var "x"], .var "y"])).filter
            (· != "x")) := by
  have hv : Value.text "a" ≠ .null := by decide
  have hnew :
      substitute (.call "if" [.var "x", .call "len" [.var "x"], .var "y"]) "x"
          ((Value.text "a").literal hv) =
        .call "if" [.text "a", .call "len" [.text "a"], .var "y"] := by
    simp [substitute, substituteIn, Value.literal]
  refine ⟨hv, ?_⟩
  rw [← hnew]
  exact eval_bind_eq_substitute _ _ "x" hv 0

end Expr

end SheetFormula
