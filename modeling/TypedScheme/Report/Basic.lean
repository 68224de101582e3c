import TypedScheme.Report.Text
import TypedScheme.Report.Yaml

/-!
Reports of failures in the format that was asked for.
-/

namespace TypedScheme

inductive Report.Format where
  | text
  | json
  | yaml
deriving DecidableEq, Repr

namespace Report

def render (format : Format) (colours : Bool) (files : FileSet) (diagnostics : List Diagnostic)
    : String :=
  match format with
  | .text => text colours files diagnostics
  | .json => json diagnostics
  | .yaml => yaml diagnostics

end Report

/-- The report of a failure in sources of a file set. -/
def Failure.report (format : Report.Format) (colours : Bool) (files : FileSet) (e : Failure)
    : String :=
  let (diagnostics, files) := e.diagnostics files
  Report.render format colours files diagnostics

end TypedScheme
