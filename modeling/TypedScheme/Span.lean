/-!
Byte ranges of source files, and positions that may be unknown.
Offsets count UTF-8 bytes from the start of a file; a range holds its start and not its end.
-/

namespace TypedScheme

/-- Files are numbered from one, in the order in which they were added to a `FileSet`. -/
abbrev FileId := Nat

structure Span where
  file : FileId
  start : Nat
  stop : Nat
deriving DecidableEq, Repr

namespace Span

/-- The largest offset a span can hold. -/
def maxOffset : Nat := 0xffffffff

/-- Offsets beyond `maxOffset` are cut down to it. -/
def ofRange (file : FileId) (start stop : Nat) : Span :=
  ⟨file, min start maxOffset, min stop maxOffset⟩

/-- The smallest span around two spans of one file. -/
def fuse (a b : Span) : Option Span :=
  if a.file = b.file then some ⟨a.file, min a.start b.start, max a.stop b.stop⟩ else none

end Span

/-- Where a piece of syntax comes from; `none` for syntax that was not read from a file. -/
abbrev Position := Option Span

namespace Position

/-- Spans of two files have no common span; an unknown position adds nothing. -/
def fuse : Position → Position → Position
  | some a, some b => a.fuse b
  | none, p => p
  | p, none => p

/-- The first of two positions that is known. -/
def orElse : Position → Position → Position
  | some a, _ => some a
  | none, p => p

end Position

end TypedScheme
