import TypedScheme.Diagnostic

/-!
Reports as JSON on one line.
-/

namespace TypedScheme

namespace Json

def hexDigit (n : Nat) : Char := (Nat.toDigits 16 (n % 16)).headD '0'

/-- Only quotes, backslashes and the control characters below the space are escaped. -/
def escapeChar (c : Char) : List Char :=
  if c = '"' then ['\\', '"']
  else if c = '\\' then ['\\', '\\']
  else if c = '\n' then ['\\', 'n']
  else if c = '\r' then ['\\', 'r']
  else if c = '\t' then ['\\', 't']
  else if c = '\x08' then ['\\', 'b']
  else if c = '\x0c' then ['\\', 'f']
  else if c.toNat < 0x20 then ['\\', 'u', '0', '0', hexDigit (c.toNat / 16), hexDigit c.toNat]
  else [c]

def string (s : String) : String :=
  String.ofList ('"' :: (s.toList.flatMap escapeChar ++ ['"']))

def array (items : List String) : String := "[" ++ ",".intercalate items ++ "]"

/-- An object with its fields in the given order; the values are JSON already. -/
def object (fields : List (String × String)) : String :=
  "\x7b" ++ ",".intercalate (fields.map fun (key, value) => string key ++ ":" ++ value) ++ "\x7d"

end Json

namespace Report

/-- What a severity is called in data formats. -/
def severityName : Severity → String
  | .bug => "Bug"
  | .error => "Error"

def labelJson (l : Label) : String :=
  Json.object [("style", Json.string "Primary"), ("file_id", toString l.file),
    ("range", Json.object [("start", toString l.start), ("end", toString l.stop)]),
    ("message", Json.string l.message)]

def diagnosticJson (d : Diagnostic) : String :=
  Json.object [("severity", Json.string (severityName d.severity)), ("code", "null"),
    ("message", Json.string d.message), ("labels", Json.array (d.labels.map labelJson)),
    ("notes", Json.array (d.notes.map Json.string))]

def json (diagnostics : List Diagnostic) : String :=
  Json.object [("diagnostics", Json.array (diagnostics.map diagnosticJson))] ++ "\n"

end Report

end TypedScheme
