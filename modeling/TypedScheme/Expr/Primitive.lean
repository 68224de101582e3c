/-!
The primitive operators, which are known by their symbols.
-/

namespace TypedScheme

inductive Primitive where
  | add
  | sub
  | mul
  | div
  | less
  | greater
  | numberEq
  | and
  | or
  | not
  | isNumber
  | isBoolean
  | isString
  | isSymbol
  | isList
  | isPair
  | eq
  | equal
  | stringEq
  | display
  | newline
deriving DecidableEq, Repr

namespace Primitive

def all : List Primitive :=
  [.add, .sub, .mul, .div, .less, .greater, .numberEq, .and, .or, .not, .isNumber, .isBoolean,
    .isString, .isSymbol, .isList, .isPair, .eq, .equal, .stringEq, .display, .newline]

def symbol : Primitive → String
  | .add => "+"
  | .sub => "-"
  | .mul => "*"
  | .div => "/"
  | .less => "<"
  | .greater => ">"
  | .numberEq => "="
  | .and => "and"
  | .or => "or"
  | .not => "not"
  | .isNumber => "number?"
  | .isBoolean => "boolean?"
  | .isString => "string?"
  | .isSymbol => "symbol?"
  | .isList => "list?"
  | .isPair => "pair?"
  | .eq => "eq?"
  | .equal => "equal?"
  | .stringEq => "string=?"
  | .display => "display"
  | .newline => "newline"

def ofSymbol? (s : String) : Option Primitive := all.find? (·.symbol = s)

end Primitive

end TypedScheme
