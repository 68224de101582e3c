import TypedScheme.Text.Width

/-!
Documents that choose their line breaks. A group is laid out on one line if it fits there together
with what follows it on that line; otherwise its own breaks start new lines, and the groups inside
it are decided one by one.
-/

namespace TypedScheme

inductive Doc where
  | text (s : String)
  /-- A space, or a new line where the enclosing group is broken. -/
  | line
  | cat (first second : Doc)
  /-- Indents the new lines of a document further. -/
  | nest (indent : Nat) (doc : Doc)
  | group (doc : Doc)
deriving Repr

namespace Doc

/-- Documents with a break between each two of them. -/
def lines : List Doc → Doc
  | [] => .text ""
  | [d] => d
  | d :: ds => .cat d (.cat .line (lines ds))

/-- Documents with a space between each two of them. -/
def words : List Doc → Doc
  | [] => .text ""
  | [d] => d
  | d :: ds => .cat d (.cat (.text " ") (words ds))

def parens (d : Doc) : Doc := .cat (.text "(") (.cat d (.text ")"))

/-- A parenthesised list, on one line or with one item a line. -/
def form (items : List Doc) : Doc := parens (.group (.nest 2 (lines items)))

/-- How far a document gets on the rest of a line. -/
inductive Reach where
  /-- It goes past the end of the line. -/
  | beyond
  /-- It starts a new line before. -/
  | broken
  /-- It leaves so many columns. -/
  | room (columns : Nat)
deriving DecidableEq, Repr

/-- How far a document gets when all its breaks are spaces (`flat`) or new lines. -/
def reach (flat : Bool) : Doc → Nat → Reach
  | .text s, columns =>
      if Text.width s ≤ columns then .room (columns - Text.width s) else .beyond
  | .line, columns =>
      if flat then if 1 ≤ columns then .room (columns - 1) else .beyond else .broken
  | .cat a b, columns =>
      match reach flat a columns with
      | .room columns => reach flat b columns
      | stopped => stopped
  | .nest _ d, columns => reach flat d columns
  | .group d, columns => reach flat d columns

/-- Do the documents that follow leave the line in time? Their breaks may start new lines. -/
def restFits : List Doc → Nat → Bool
  | [], _ => true
  | d :: ds, columns =>
      match reach false d columns with
      | .beyond => false
      | .broken => true
      | .room columns => restFits ds columns

/-- Does a document fit on one line, together with what follows it up to the next break? -/
def fits (d : Doc) (rest : List Doc) (columns : Nat) : Bool :=
  match reach true d columns with
  | .beyond => false
  | .broken => true
  | .room columns => restFits rest columns

/-- What a laid out document consists of. -/
inductive Piece where
  | text (s : String)
  | space
  | newline (indent : Nat)
deriving DecidableEq, Repr

def Piece.chars : Piece → List Char
  | .text s => s.toList
  | .space => [' ']
  | .newline indent => '\n' :: List.replicate indent ' '

/-- Does a document show nothing? -/
def isEmpty : Doc → Bool
  | .text s => s.isEmpty
  | .line => false
  | .cat a b => a.isEmpty && b.isEmpty
  | .nest _ d => d.isEmpty
  | .group d => d.isEmpty

/-- A document with the indentation of its new lines. -/
structure Indented where
  indent : Nat
  doc : Doc

/-- The indentation of a new line: that of the next document that shows something. -/
def nextIndent (indent : Nat) (rest : List Indented) : Nat :=
  match rest.find? fun next => !next.doc.isEmpty with
  | some next => next.indent
  | none => indent

/-- The pieces of a document from a column on, and the column after it. `rest` are the documents
that follow it. -/
def layout (width : Nat) (flat : Bool) (indent : Nat) (rest : List Indented)
    : Doc → Nat → List Piece × Nat
  | .text s, column => ([.text s], column + Text.width s)
  | .line, column =>
      if flat then ([.space], column + 1)
      else ([.newline (nextIndent indent rest)], nextIndent indent rest)
  | .cat a b, column =>
      let (first, column) := layout width flat indent (⟨indent, b⟩ :: rest) a column
      let (second, column) := layout width flat indent rest b column
      (first ++ second, column)
  | .nest more d, column => layout width flat (indent + more) rest d column
  | .group d, column =>
      let fitting := column ≤ width && fits d (rest.map (·.doc)) (width - column)
      layout width (flat || fitting) indent rest d column

/-- The text of a document, with lines of at most `width` columns where that is possible. -/
def render (width : Nat) (d : Doc) : String :=
  String.ofList ((layout width false 0 [] d 0).1.flatMap Piece.chars)

end Doc

/-- Lines of printed expressions have 80 columns. -/
def Layout.width : Nat := 80

end TypedScheme
