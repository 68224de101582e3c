import TypedScheme.Main
import TypedScheme.Proofs.Unification.Substitution
import TypedScheme.Proofs.Unification.BindingGraph
import TypedScheme.Proofs.Unification.Resolution
import TypedScheme.Proofs.Unification.OccursCheck
import TypedScheme.Proofs.Computation
import TypedScheme.Proofs.Unification.BindingSteps
import TypedScheme.Proofs.Unification.Evaluation
import TypedScheme.Proofs.Unification.Errors
import TypedScheme.Proofs.Unification.Growth
import TypedScheme.Proofs.Unification.Soundness
import TypedScheme.Proofs.Unification.Completeness
import TypedScheme.Proofs.Induction
import TypedScheme.Proofs.Inference.Moves
import TypedScheme.Proofs.Inference.Session
import TypedScheme.Proofs.Inference.Equalities
import TypedScheme.Proofs.Inference.Typing
import TypedScheme.Proofs.Inference.Soundness
import TypedScheme.Proofs.Inference.SolvedStates
import TypedScheme.Proofs.Inference.Completeness
import TypedScheme.Proofs.Inference.Rollback
import TypedScheme.Proofs.Inference.MostGeneral
import TypedScheme.Proofs.Datum.Spelling
import TypedScheme.Proofs.Printer.Documents
import TypedScheme.Proofs.Number.Rounding
import TypedScheme.Proofs.Number.RoundTrip
import TypedScheme.Proofs.Ty.Grammar
import TypedScheme.Proofs.Expr.Grammar
import TypedScheme.Proofs.Printer.Expressions
import TypedScheme.Proofs.Expr.Positions
import TypedScheme.Proofs.Printer.RoundTrip
import TypedScheme.Proofs.Unification.Termination
import TypedScheme.Proofs.Inference.HeldTypes
import TypedScheme.Proofs.Unification.Renaming
import TypedScheme.Proofs.Inference.LetAsApplication
import TypedScheme.Proofs.Inference.Reports
import TypedScheme.Proofs.Expr.Parts
import TypedScheme.Proofs.Inference.Safety
import TypedScheme.Proofs.Expr.Spans
import TypedScheme.Proofs.Diagnostic.Listing
import TypedScheme.Proofs.Diagnostic.Labels
import TypedScheme.Proofs.Inference.Permanence
import TypedScheme.Proofs.Inference.VariableNames
import TypedScheme.Proofs.Inference.Replay
import TypedScheme.Proofs.Unification.Occurrences
import TypedScheme.Proofs.Inference.OccursErrors
import TypedScheme.Proofs.Inference.FreeVariables
import TypedScheme.Proofs.Inference.Clashes
import TypedScheme.Proofs.Inference.EqualTypes
import TypedScheme.Proofs.Unification.Relocation
import TypedScheme.Proofs.Inference.Relocation
import TypedScheme.Proofs.Inference.Conversion
import TypedScheme.Proofs.Inference.RelocatedTyping
import TypedScheme.Proofs.Inference.IndependentFailures
import TypedScheme.Proofs.Datum.Reading
import TypedScheme.Proofs.Inference.Derivations
import TypedScheme.Proofs.Inference.Allocations
import TypedScheme.Proofs.Inference.PrintedTypes
import TypedScheme.Proofs.Unification.Frame
import TypedScheme.Proofs.Inference.Applications
import TypedScheme.Proofs.Token.Tiling
import TypedScheme.Proofs.Number.Grammar
import TypedScheme.Proofs.Token.Words
import TypedScheme.Proofs.Expr.Data
import TypedScheme.Proofs.Expr.Language
import TypedScheme.Proofs.Datum.Slices
import TypedScheme.Proofs.Expr.Slices
import TypedScheme.Proofs.Unification.Reachability
import TypedScheme.Proofs.Token.Strings
import TypedScheme.Proofs.Number.Overflow
