import TypedScheme.Number.Numeral
import TypedScheme.Token.Basic

/-!
The lexer reads a text one character at a time. Its mode says what the last characters began, so
that lexing a text in two parts is lexing the first part and going on with the second.
-/

namespace TypedScheme

namespace Text

/-- Space, tab, carriage return, line feed and form feed separate tokens. -/
def isBlank (c : Char) : Bool :=
  c = ' ' || c = '\t' || c = '\r' || c = '\n' || c = '\x0c'

/-- Characters that end a word. -/
def isDelimiter (c : Char) : Bool :=
  isBlank c || c = '(' || c = ')' || c = '\'' || c = '"' || c = ';'

/-- What a backslash and the character stand for together in a string literal. -/
def unescapeChar? : Char → Option Char
  | '"' => some '"'
  | '\\' => some '\\'
  | 'n' => some '\n'
  | 'r' => some '\r'
  | 't' => some '\t'
  | _ => none

/-- The text that the inside of a string literal stands for. -/
def unescape? : List Char → Option (List Char)
  | [] => some []
  | '\\' :: c :: rest =>
      match unescapeChar? c with
      | some d => (unescape? rest).map (d :: ·)
      | none => none
  | '\\' :: [] => none
  | c :: rest => (unescape? rest).map (c :: ·)

end Text

/-- A word is a number if all of it is a numeral, and a symbol otherwise. -/
def Token.ofWord (word : List Char) : Token :=
  match Numeral.ofChars? word with
  | some numeral => .number numeral.value
  | none => .symbol (String.ofList word)

namespace Lexer

/-- Characters of an unfinished token are held last first. -/
inductive Mode where
  /-- Between tokens. -/
  | gap
  /-- In a comment, which ends with its line. -/
  | comment
  /-- After a hash sign at byte `start`. -/
  | hash (start : Nat)
  | word (start : Nat) (chars : List Char)
  /-- Inside a string literal that began at byte `start`. -/
  | string (start : Nat) (chars : List Char)
  /-- Inside a string literal, after a backslash. -/
  | escape (start : Nat) (chars : List Char)
  /-- In a string literal that nothing can close any more. -/
  | unclosed (start : Nat)
deriving DecidableEq, Repr

/-- The lexemes found so far, last first, the mode, and the byte offset reached. -/
structure State where
  found : List Lexeme
  mode : Mode
  offset : Nat

def start : State := ⟨[], .gap, 0⟩

/-- The lexemes and the mode that a character gives rise to between tokens. -/
def enter (offset : Nat) (c : Char) : List Lexeme × Mode :=
  if Text.isBlank c then ([], .gap)
  else if c = ';' then ([], .comment)
  else if c = '(' then ([⟨offset, offset + 1, .ok .openParen⟩], .gap)
  else if c = ')' then ([⟨offset, offset + 1, .ok .closeParen⟩], .gap)
  else if c = '\'' then ([⟨offset, offset + 1, .ok .quote⟩], .gap)
  else if c = '"' then ([], .string offset [])
  else if c = '#' then ([], .hash offset)
  else ([], .word offset [c])

def wordLexeme (start stop : Nat) (chars : List Char) : Lexeme :=
  ⟨start, stop, .ok (Token.ofWord chars.reverse)⟩

def hashLexeme (start : Nat) : Lexeme :=
  ⟨start, start + 1, .error .unexpectedChar⟩

def stringLexeme (start stop : Nat) (chars : List Char) : Lexeme :=
  match Text.unescape? chars.reverse with
  | some decoded => ⟨start, stop, .ok (.string (String.ofList decoded))⟩
  | none => ⟨start, stop, .error .invalidEscape⟩

/-- What a character at byte `offset` does to a mode. New lexemes come last first. -/
def Mode.next (mode : Mode) (offset : Nat) (c : Char) : List Lexeme × Mode :=
  match mode with
  | .gap => enter offset c
  | .comment => ([], if c = '\n' then .gap else .comment)
  | .hash start =>
      if c = 't' then ([⟨start, offset + 1, .ok (.boolean true)⟩], .gap)
      else if c = 'f' then ([⟨start, offset + 1, .ok (.boolean false)⟩], .gap)
      else ((enter offset c).1 ++ [hashLexeme start], (enter offset c).2)
  | .word start chars =>
      if Text.isDelimiter c then
        ((enter offset c).1 ++ [wordLexeme start offset chars], (enter offset c).2)
      else ([], .word start (c :: chars))
  | .string start chars =>
      if c = '"' then ([stringLexeme start (offset + 1) chars], .gap)
      else if c = '\\' then ([], .escape start chars)
      else ([], .string start (c :: chars))
  | .escape start chars =>
      -- A line break is the one character that cannot follow a backslash.
      if c = '\n' then ([], .unclosed start) else ([], .string start (c :: '\\' :: chars))
  | .unclosed start => ([], .unclosed start)

def State.step (s : State) (c : Char) : State :=
  ⟨(s.mode.next s.offset c).1 ++ s.found, (s.mode.next s.offset c).2, s.offset + c.utf8Size⟩

/-- The lexeme that is still open when the text ends at byte `offset`. -/
def Mode.finish (mode : Mode) (offset : Nat) : List Lexeme :=
  match mode with
  | .gap | .comment => []
  | .hash start => [hashLexeme start]
  | .word start chars => [wordLexeme start offset chars]
  | .string start _ | .escape start _ | .unclosed start =>
      [⟨start, offset, .error .unterminatedString⟩]

def State.finish (s : State) : List Lexeme :=
  (s.mode.finish s.offset ++ s.found).reverse

end Lexer

/-- All lexemes of a text, in order. -/
def Lexer.lex (text : List Char) : List Lexeme :=
  (text.foldl Lexer.State.step Lexer.start).finish

end TypedScheme
