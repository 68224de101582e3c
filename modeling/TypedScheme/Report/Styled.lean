/-!
Text with colours, to be shown with them or without.
-/

namespace TypedScheme

inductive Style where
  /-- The word that says how bad a problem is. -/
  | severity
  /-- The message behind it. -/
  | message
  /-- Borders, line numbers and bullets. -/
  | border
  /-- The source text that a label points at, and the label. -/
  | label
deriving DecidableEq, Repr

/-- The escape sequences that select a style. -/
def Style.codes : Style → String
  | .severity => "\x1b[0m\x1b[1m\x1b[38;5;9m"
  | .message => "\x1b[0m\x1b[1m"
  | .border => "\x1b[0m\x1b[34m"
  | .label => "\x1b[0m\x1b[31m"

/-- Text, and changes of its style. -/
inductive Styled where
  | text (s : String)
  | set (style : Style)
  | reset
deriving DecidableEq, Repr

namespace Styled

/-- Text in a style of its own. -/
def span (style : Style) (s : String) : List Styled := [.set style, .text s, .reset]

def output (colours : Bool) : Styled → String
  | .text s => s
  | .set style => if colours then style.codes else ""
  | .reset => if colours then "\x1b[0m" else ""

/-- The text of a document, with escape sequences if it is to have colours. -/
def render (colours : Bool) (pieces : List Styled) : String :=
  String.join (pieces.map (Styled.output colours))

end Styled

end TypedScheme
