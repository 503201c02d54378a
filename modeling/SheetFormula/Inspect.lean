/-
  SheetFormula.Inspect

  Descriptions of functions and function tables for someone who looks into an
  engine: the fields of a function without its body, and the names of a table.
-/
import SheetFormula.FunctionTable
import SheetFormula.Text.Quoted

namespace SheetFormula

/-- An upper bound, or the word for none. -/
def boundText : Option Nat → String
  | some n => "Some(" ++ n.repr ++ ")"
  | none => "None"

/-- The fields of a function. -/
def FunctionInfo.inspect (f : FunctionInfo) : String :=
  "FunctionDef \x7b name: " ++ Text.quoted f.name ++ ", min_args: " ++ f.minArgs.repr
    ++ ", max_args: " ++ boundText f.maxArgs
    ++ ", builtin: " ++ (if f.builtin then "true" else "false") ++ ", .. \x7d"

/-- The names in a table. -/
def FunctionTable.inspect {σ : Type} (t : FunctionTable σ) : String :=
  "FunctionRegistry \x7b functions: [" ++ ", ".intercalate (t.names.map Text.quoted) ++ "] \x7d"

/-- The fields of the function with a name, or the names in the table if there is none. -/
def FunctionTable.inspectFunction {σ : Type} (t : FunctionTable σ) (name : String) : String :=
  match t.describe? name with
  | some f => f.inspect
  | none => t.inspect

end SheetFormula
