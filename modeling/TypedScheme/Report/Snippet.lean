import TypedScheme.Diagnostic
import TypedScheme.Report.Styled
import TypedScheme.Text.Blank
import TypedScheme.Text.Width

/-!
Source text with a label. A label within one line is marked by carets below it; one that goes over
several lines by a bar at the left, and only its first and last lines are shown.
-/

namespace TypedScheme

namespace Snippet

/-- A character of a line as it is shown: its first byte in the line, its length in bytes and the
columns that it takes. -/
structure Column where
  offset : Nat
  bytes : Nat
  width : Nat
  char : Char
deriving DecidableEq, Repr

/-- Columns between tab stops. -/
def tabWidth : Nat := 4

/-- Control characters take no column. -/
def shownWidth (column : Nat) (c : Char) : Nat :=
  if c = '\t' then tabWidth - column % tabWidth
  else if Text.isControl c then 0
  else Text.charWidth c

def columnsFrom (offset column : Nat) : List Char → List Column
  | [] => []
  | c :: rest =>
      let width := shownWidth column c
      ⟨offset, c.utf8Size, width, c⟩ :: columnsFrom (offset + c.utf8Size) (column + width) rest

/-- A line without line breaks and null characters at its end. -/
def shownChars (line : SourceLine) : List Char :=
  (line.chars.reverse.dropWhile fun c => c = '\n' || c = '\r' || c = '\x00').reverse

def columns (line : SourceLine) : List Column := columnsFrom 0 0 (shownChars line)

/-- The position behind the last character counts as one column. -/
def endColumn (line : SourceLine) : Column :=
  ⟨(shownChars line).foldl (fun n c => n + c.utf8Size) 0, 1, 1, ' '⟩

def Column.shown (c : Column) : String :=
  if c.char = '\t' then String.ofList (List.replicate c.width ' ') else c.char.toString

/-- Does a column overlap a range of bytes? -/
def Column.overlaps (c : Column) (start stop : Nat) : Bool :=
  max start c.offset < min stop (c.offset + c.bytes)

/-- Texts one after the other, with the marked ones in the style of labels. -/
def markedRuns (inside : Bool) : List (Bool × String) → List Styled
  | [] => if inside then [.reset] else []
  | (marked, s) :: rest =>
      (if marked && !inside then [Styled.set .label]
        else if !marked && inside then [Styled.reset] else [])
      ++ .text s :: markedRuns marked rest

def spaces (n : Nat) : String := String.ofList (List.replicate n ' ')

def newline : Styled := .text "\n"

/-- The left margin without a line number, up to the border. -/
def margin (padding : Nat) : List Styled := .text (spaces padding ++ " ") :: Styled.span .border "│"

def numberMargin (padding number : Nat) : List Styled :=
  let digits := toString number
  Styled.span .border (spaces (padding - digits.length) ++ digits)
    ++ .text " " :: Styled.span .border "│"

/-- A line of source text; `marked` tells which columns belong to the label. -/
def sourceText (line : SourceLine) (marked : Column → Bool) : List Styled :=
  .text " " :: (markedRuns false ((columns line).map fun c => (marked c, c.shown)) ++ [newline])

/-- The carets of a label from byte `start` to byte `stop` of a line, and its message. -/
def caretLine (padding : Nat) (line : SourceLine) (start stop : Nat) (message : String)
    : List Styled :=
  let carets := (columns line ++ [endColumn line]).filterMap fun c =>
    if c.overlaps start stop then some (true, String.ofList (List.replicate c.width '^'))
    else if c.offset < stop then some (false, spaces c.width)
    else none
  margin padding ++ .text " " :: markedRuns false carets
    ++ (if message.isEmpty then [] else .text " " :: Styled.span .label message)
    ++ [newline]

/-- A label within one line. An empty one is marked by one caret. -/
def single (padding number : Nat) (line : SourceLine) (label : Label) : List Styled :=
  let start := label.start - line.start
  let stop := max (label.stop - line.start) (start + 1)
  numberMargin padding number ++ sourceText line (fun c => c.overlaps start stop)
    ++ caretLine padding line start stop label.message

/-- A bar to the left of a line. -/
def bar (s : String) : List Styled := .text " " :: Styled.span .label s

/-- `─` below the columns that start before byte `stop`, and a caret. -/
def underline (line : SourceLine) (stop : Nat) (message : String) : List Styled :=
  let before := (columns line).filter fun c => c.offset < stop
  let width := before.foldl (fun n c => n + c.width) 0
  Styled.span .label (String.ofList (List.replicate width '─') ++ "^"
    ++ (if message.isEmpty then "" else " " ++ message)) ++ [newline]

/-- The first line of a label over several lines. The bar starts beside the line if only white space
precedes the label there, and below it otherwise. -/
def firstLine (padding number : Nat) (line : SourceLine) (label : Label) : List Styled :=
  let start := label.start - line.start
  let blank := ((shownChars line).takeWhile Text.isWhiteSpace).foldl (fun n c => n + c.utf8Size) 0
  let source := sourceText line fun c => start ≤ c.offset
  if start ≤ blank then numberMargin padding number ++ bar "╭" ++ source
  else
    numberMargin padding number ++ .text "  " :: source
      ++ margin padding ++ bar "╭" ++ underline line (start + 1) ""

def middleLine (padding number : Nat) (line : SourceLine) : List Styled :=
  numberMargin padding number ++ bar "│" ++ sourceText line fun _ => true

def lastLine (padding number : Nat) (line : SourceLine) (label : Label) : List Styled :=
  let stop := label.stop - line.start
  numberMargin padding number ++ bar "│" ++ sourceText line (fun c => c.offset + c.bytes ≤ stop)
    ++ margin padding ++ bar "╰" ++ underline line stop label.message

/-- In place of the lines that are left out. -/
def gap (padding : Nat) : List Styled :=
  .text (spaces padding ++ " ") :: Styled.span .border "·" ++ bar "│" ++ [newline]

/-- Lines shown after the first one and before the last one. -/
def leadingLines : Nat := 3

def trailingLines : Nat := 1

/-- The lines strictly between the first and the last one. More than one line is left out at a
time. -/
def middleLines (padding first last : Nat) (lines : List SourceLine) : List Styled :=
  let between := (lines.zipIdx.drop (first + 1)).take (last - first - 1)
  let shown (p : SourceLine × Nat) : List Styled := middleLine padding (p.2 + 1) p.1
  if between.length ≤ leadingLines + trailingLines + 1 then between.flatMap shown
  else
    (between.take leadingLines).flatMap shown ++ gap padding
      ++ (between.drop (between.length - trailingLines)).flatMap shown

/-- What stands between the end of a label and its start, if it ends on an earlier line. A line
alone is shown, without the bar. -/
def linesOutside (padding first last : Nat) (lines : List SourceLine) : List Styled :=
  if first = last + 1 then []
  else if first = last + 2 then
    numberMargin padding (last + 2)
      ++ .text "  " :: sourceText (lines[last + 1]?.getD ⟨0, []⟩) fun _ => false
  else gap padding

/-- A label over several lines. Lines are shown in their order, also if the label ends on an earlier
line than it starts. -/
def multi (padding first last : Nat) (lines : List SourceLine) (label : Label) : List Styled :=
  let line (i : Nat) : SourceLine := lines[i]?.getD ⟨0, []⟩
  let start := firstLine padding (first + 1) (line first) label
  let stop := lastLine padding (last + 1) (line last) label
  if first < last then start ++ middleLines padding first last lines ++ stop
  else stop ++ linesOutside padding first last lines ++ start

/-- The column of a byte in a line, from one: the characters that end up to it. -/
def columnNumber (line : SourceLine) (offset : Nat) : Nat :=
  let ends := (columnsFrom 0 0 line.chars).filter fun c => line.start + c.offset + c.bytes ≤ offset
  ends.length + 1

/-- The digits of the largest line number of a label. -/
def padding (file : SourceFile) (label : Label) : Nat :=
  max (toString (file.lineAt label.start + 1)).length (toString (file.lineAt label.stop + 1)).length

/-- The place of a label and the source text around it; `notes` tells whether notes follow. -/
def render (file : SourceFile) (label : Label) (notes : Bool) : List Styled :=
  let lines := file.lines
  let first := file.lineAt label.start
  let last := file.lineAt label.stop
  let padding := padding file label
  let firstLine := lines[first]?.getD ⟨0, []⟩
  let empty := margin padding ++ (if first = last then [] else [.text "  "]) ++ [newline]
  let place := file.name ++ ":" ++ toString (first + 1) ++ ":"
    ++ toString (columnNumber firstLine label.start)
  .text (spaces padding ++ " ") :: Styled.span .border "┌─" ++ .text (" " ++ place) :: newline
    :: (empty
      ++ (if first = last then single padding (first + 1) firstLine label
        else multi padding first last lines label)
      ++ if notes then empty else [])

end Snippet

end TypedScheme
