import TypedScheme.ParseError
import TypedScheme.SourceFile
import TypedScheme.TypeError

/-!
Diagnostics say what is wrong, point at source text and add notes. An error without position points
at a file of its own, which holds the printed expression.
-/

namespace TypedScheme

inductive Severity where
  | bug
  | error
deriving DecidableEq, Repr

/-- A byte range of a file and what is to be said about it. -/
structure Label where
  file : FileId
  start : Nat
  stop : Nat
  message : String
deriving DecidableEq, Repr

structure Diagnostic where
  severity : Severity
  message : String
  labels : List Label
  notes : List String
deriving DecidableEq, Repr

/-- Anything that goes wrong with a source. -/
inductive Failure where
  | parse (error : ParseError)
  | type (error : TypeError)
  /-- The source cannot be read. -/
  | input (message : String)
deriving Repr

def Label.ofSpan (span : Span) (message : String) : Label :=
  ⟨span.file, span.start, span.stop, message⟩

/-- The labels of a position; none if it is unknown. -/
def Label.ofPosition (pos : Position) (message : String) : List Label :=
  match pos with
  | some span => [Label.ofSpan span message]
  | none => []

/-- The name of the files that are made for errors without position. -/
def FileSet.generatedName : String := "<unknown> (generated)"

/-- A label at a position, or at a new file with the given text. -/
def FileSet.label (files : FileSet) (pos : Position) (text message : String) : Label × FileSet :=
  match pos with
  | some span => (Label.ofSpan span message, files)
  | none =>
      let (id, files) := files.add ⟨FileSet.generatedName, text⟩
      (⟨id, 0, text.utf8ByteSize, message⟩, files)

def ParseError.diagnostic (files : FileSet) (e : ParseError) : Diagnostic :=
  match e with
  | .unexpectedEnd file _ =>
      let source := (files.get? file).getD ⟨"", ""⟩
      ⟨.error, "unexpected end of file when parsing " ++ source.name,
        [⟨file, source.size, source.size, ""⟩], [e.message]⟩
  | .unexpectedToken span _ | .extraToken span | .unexpectedChar span | .invalidEscape span
  | .unterminatedString span => ⟨.error, e.message, [Label.ofSpan span ""], []⟩
  | .malformedExpr pos _ _ | .malformedType pos _ =>
      ⟨.error, e.message, Label.ofPosition pos "", []⟩

namespace TypeError

def expressionLabels (pos : Position) : List Label := Label.ofPosition pos "this expression"

mutual
/-- One diagnostic per node of the error tree, a node before its parts. -/
def diagnostics (e : TypeError) (files : FileSet) : List Diagnostic × FileSet :=
  match e with
  | .unboundIdentifier id pos =>
      let (label, files) := files.label pos id.name "this identifier is unbound"
      ([⟨.error, e.message, [label], []⟩], files)
  | .mismatch expected inferred pos =>
      ([⟨.error, e.message, expressionLabels pos,
        ["Expected an expression of type `" ++ expected.text ++ "`",
          "Found an expression of type `" ++ inferred.text ++ "`",
          "These types are not compatible"]⟩], files)
  | .arity expected inferred _ pos =>
      ([⟨.error, e.message, expressionLabels pos,
        ["The expected procedure takes " ++ toString expected
          ++ " argument(s), but the inferred one takes " ++ toString inferred]⟩], files)
  | .occurs var ty pos =>
      ([⟨.error, "occurs check failed", expressionLabels pos,
        ["The type variable `" ++ var.text ++ "` occurs in `" ++ ty.text ++ "`",
          "Binding the variable would create an infinite type"]⟩], files)
  | .unsupported construct reason context pos =>
      let (label, files) := files.label pos context "this expression can't be typed"
      ([⟨.error, "unsupported construct `" ++ construct ++ "`", [label], [reason]⟩], files)
  | .multiple context errors pos =>
      let (label, files) := files.label pos context ""
      let (rest, files) := diagnosticsOfAll errors files
      (⟨.error, toString errors.length ++ " errors while checking an expression", [label], []⟩
        :: rest, files)
  | .badType _ pos | .unallocated _ pos | .corrupt pos =>
      ([⟨.bug, e.message, expressionLabels pos,
        ["This error should not happen. This is likely a bug in the type inference engine."]⟩],
        files)

def diagnosticsOfAll : List TypeError → FileSet → List Diagnostic × FileSet
  | [], files => ([], files)
  | e :: es, files =>
      let (first, files) := e.diagnostics files
      let (rest, files) := diagnosticsOfAll es files
      (first ++ rest, files)
end

end TypeError

namespace Failure

def message : Failure → String
  | .parse e => e.message
  | .type e => e.message
  | .input message => message

/-- The diagnostics of a failure, and the files they point at. -/
def diagnostics (e : Failure) (files : FileSet) : List Diagnostic × FileSet :=
  match e with
  | .parse e => ([e.diagnostic files], files)
  | .type e => e.diagnostics files
  | .input message => ([⟨.error, message, [], []⟩], files)

end Failure

end TypedScheme
