import TypedScheme.Span

/-!
What can be wrong with a source text before its type is inferred.
-/

namespace TypedScheme

inductive ParseError where
  /-- The file ends where one of the expected things should follow. -/
  | unexpectedEnd (file : FileId) (expected : List String)
  | unexpectedToken (span : Span) (expected : List String)
  /-- A token after the end of the expression. -/
  | extraToken (span : Span)
  | unexpectedChar (span : Span)
  | invalidEscape (span : Span)
  | unterminatedString (span : Span)
  /-- A special form that is not used as it should be. -/
  | malformedExpr (pos : Position) (form detail : String)
  | malformedType (pos : Position) (detail : String)
deriving DecidableEq, Repr

namespace ParseError

def alternatives (expected : List String) : String := " or ".intercalate expected

def message : ParseError → String
  | .unexpectedEnd _ [] => "unexpected end of file"
  | .unexpectedEnd _ expected => "unexpected end of file, expected " ++ alternatives expected
  | .unexpectedToken _ expected => "unexpected token, expected " ++ alternatives expected
  | .extraToken _ => "superfluous unexpected token"
  | .unexpectedChar _ => "unexpected character"
  | .invalidEscape _ => "invalid escape sequence"
  | .unterminatedString _ => "unterminated string literal"
  | .malformedExpr _ form detail => "malformed " ++ form ++ ": " ++ detail
  | .malformedType _ detail => "malformed type: " ++ detail

end ParseError

end TypedScheme
