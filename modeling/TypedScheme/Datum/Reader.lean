import TypedScheme.Datum.Basic
import TypedScheme.ParseError
import TypedScheme.Token.Lexer

/-!
The reader puts lexemes together to one datum. It keeps the lists and quotations that are still
open on a stack and takes the lexemes one by one, so that it stops at the first one that cannot
belong to the datum.
-/

namespace TypedScheme

def ParseError.ofLexical (span : Span) : LexicalError → ParseError
  | .unexpectedChar => .unexpectedChar span
  | .invalidEscape => .invalidEscape span
  | .unterminatedString => .unterminatedString span

namespace Reader

/-- A list or a quotation that waits for more. -/
inductive Frame where
  /-- The items read so far, last first, of a list that began at byte `start`. -/
  | list (start : Nat) (items : List Datum)
  | quote (pos : Position)

inductive State where
  /-- The open frames, innermost first. -/
  | reading (frames : List Frame)
  | done (datum : Datum)
  | failed (error : ParseError)

/-- `'d` stands for the list of the symbol `quote` and `d`. -/
def quotation (pos : Position) (d : Datum) : Datum :=
  .list (Position.fuse pos d.pos) [.symbol pos "quote", d]

/-- Hands a datum to the innermost open frame. -/
def complete : List Frame → Datum → State
  | [], d => .done d
  | .list start items :: frames, d => .reading (.list start (d :: items) :: frames)
  | .quote pos :: frames, d => complete frames (quotation pos d)

def token (file : FileId) (frames : List Frame) (start stop : Nat) : Token → State
  | .openParen => .reading (.list start [] :: frames)
  | .closeParen =>
      match frames with
      | .list first items :: frames =>
          complete frames (.list (some (Span.ofRange file first stop)) items.reverse)
      | _ => .failed (.unexpectedToken (Span.ofRange file start stop) ["expression"])
  | .quote => .reading (.quote (some (Span.ofRange file start stop)) :: frames)
  | .boolean value => complete frames (.boolean (some (Span.ofRange file start stop)) value)
  | .string value => complete frames (.string (some (Span.ofRange file start stop)) value)
  | .number value => complete frames (.number (some (Span.ofRange file start stop)) value)
  | .symbol name => complete frames (.symbol (some (Span.ofRange file start stop)) name)

def step (file : FileId) (s : State) (lexeme : Lexeme) : State :=
  match s, lexeme.content with
  | .failed error, _ => .failed error
  | _, .error error => .failed (.ofLexical (Span.ofRange file lexeme.start lexeme.stop) error)
  | .done _, .ok _ => .failed (.extraToken (Span.ofRange file lexeme.start lexeme.stop))
  | .reading frames, .ok t => token file frames lexeme.start lexeme.stop t

/-- What is expected at the end of the input. -/
def expectedAtEnd : List Frame → List String
  | .list _ _ :: _ => ["expression", "`)`"]
  | _ => ["expression"]

def finish (file : FileId) : State → Except ParseError Datum
  | .reading frames => .error (.unexpectedEnd file (expectedAtEnd frames))
  | .done d => .ok d
  | .failed error => .error error

end Reader

/-- The one datum that the lexemes spell. -/
def Datum.ofLexemes (file : FileId) (lexemes : List Lexeme) : Except ParseError Datum :=
  Reader.finish file (lexemes.foldl (Reader.step file) (.reading []))

/-- Reads a text that holds one datum besides blanks and comments. -/
def Datum.read (file : FileId) (text : String) : Except ParseError Datum :=
  Datum.ofLexemes file (Lexer.lex text.toList)

end TypedScheme
