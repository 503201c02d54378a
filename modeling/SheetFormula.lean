import SheetFormula.Engine
import SheetFormula.Expr.Budget
import SheetFormula.Inspect
import SheetFormula.Proofs.Engines.Layering
import SheetFormula.Proofs.Engines.LetterCase
import SheetFormula.Proofs.Engines.Listings
import SheetFormula.Proofs.Engines.Operators
import SheetFormula.Proofs.Engines.Provenance
import SheetFormula.Proofs.Engines.UnnamedChanges
import SheetFormula.Proofs.Evaluation.Admission
import SheetFormula.Proofs.Evaluation.CallOrder
import SheetFormula.Proofs.Evaluation.CountChecks
import SheetFormula.Proofs.Evaluation.Dependencies
import SheetFormula.Proofs.Evaluation.Laziness
import SheetFormula.Proofs.Evaluation.NamedFunctions
import SheetFormula.Proofs.Evaluation.Rewriting
import SheetFormula.Proofs.Evaluation.Substitution
import SheetFormula.Proofs.Functions.LastChange
import SheetFormula.Proofs.Functions.Listing
import SheetFormula.Proofs.Functions.Marks
import SheetFormula.Proofs.Functions.Permanence
import SheetFormula.Proofs.Library.Concatenation
import SheetFormula.Proofs.Library.Cuts
import SheetFormula.Proofs.Library.Extremes
import SheetFormula.Proofs.Library.Relations
import SheetFormula.Proofs.Library.Remainders
import SheetFormula.Proofs.Library.Rounding
import SheetFormula.Proofs.Library.Sums
import SheetFormula.Proofs.Numbers.Display
import SheetFormula.Proofs.Parsing.Chains
import SheetFormula.Proofs.Parsing.Composition
import SheetFormula.Proofs.Parsing.CorrectPrefix
import SheetFormula.Proofs.Parsing.Derivation
import SheetFormula.Proofs.Parsing.Locality
import SheetFormula.Proofs.Parsing.Spacing
import SheetFormula.Proofs.Parsing.VariableWords
import SheetFormula.Proofs.Printing.Rendering
import SheetFormula.Proofs.Printing.RoundTrip
import SheetFormula.Proofs.Tokens.Refusals
import SheetFormula.Proofs.Tokens.Spans
