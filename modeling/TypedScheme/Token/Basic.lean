import TypedScheme.Number.Basic

/-!
Tokens of the language and lexemes, which are tokens or lexical errors with their byte ranges.
-/

namespace TypedScheme

inductive Token where
  | openParen
  | closeParen
  | quote
  | boolean (value : Bool)
  | string (value : String)
  | number (value : Number)
  | symbol (name : String)
deriving DecidableEq, Repr

/-- How a token is called in messages. -/
def Token.describe : Token → String
  | .openParen => "`(`"
  | .closeParen => "`)`"
  | .quote => "`'`"
  | .boolean true => "`#t`"
  | .boolean false => "`#f`"
  | .string _ => "string literal"
  | .number _ => "number literal"
  | .symbol name => "`" ++ name ++ "`"

inductive LexicalError where
  /-- A character that starts no token. -/
  | unexpectedChar
  /-- A string literal with a backslash before a character that it does not escape. -/
  | invalidEscape
  /-- A string literal without its closing quote. -/
  | unterminatedString
deriving DecidableEq, Repr

/-- A piece of the source text, from byte `start` up to byte `stop`. -/
structure Lexeme where
  start : Nat
  stop : Nat
  content : Except LexicalError Token

end TypedScheme
