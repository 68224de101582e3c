import TypedScheme.Expr.Parser
import TypedScheme.Inference.Rules
import TypedScheme.Report.Basic

/-!
Scripts: one named source text, which can be parsed, typed and reported on.
-/

namespace TypedScheme

/-- Bytes that are no UTF-8 text. -/
def invalidTextMessage : String := "stream did not contain valid UTF-8"

structure Script where
  source : SourceFile

namespace Script

/-- The number of the only file of a script. -/
def file : FileId := 1

def ofText (name text : String) : Script := ⟨⟨name, text⟩⟩

def ofBytes (name : String) (bytes : List UInt8) : Except Failure Script :=
  match String.fromUTF8? ⟨bytes.toArray⟩ with
  | some text => .ok (ofText name text)
  | none => .error (.input invalidTextMessage)

def files (s : Script) : FileSet := FileSet.ofFile s.source

def parse (s : Script) : Except Failure Expr :=
  match Expr.parse file s.source.text with
  | .ok e => .ok e
  | .error e => .error (.parse e)

/-- The type of the expression in the empty environment. -/
def infer (s : Script) : Except Failure Ty := do
  let e ← s.parse
  match e.infer with
  | .ok ty => .ok ty
  | .error e => .error (.type e)

def report (s : Script) (format : Report.Format) (colours : Bool) (e : Failure) : String :=
  e.report format colours s.files

end Script

/-- The printed type of a source text, or the message of its error. -/
def inferText (text : String) : Except String String :=
  match (Script.ofText "<infer>" text).infer with
  | .ok ty => .ok ty.text
  | .error e => .error e.message

end TypedScheme
