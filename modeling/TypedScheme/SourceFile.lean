import TypedScheme.Span

/-!
Source files and the set of files that positions refer to.
-/

namespace TypedScheme

structure SourceFile where
  name : String
  text : String
deriving DecidableEq, Repr

/-- One line of a file, with its line break. `start` is its first byte. -/
structure SourceLine where
  start : Nat
  chars : List Char
deriving DecidableEq, Repr

namespace SourceFile

/-- The length in bytes. -/
def size (f : SourceFile) : Nat := f.text.utf8ByteSize

/-- Lines end after a line feed. The last one may be empty. -/
def splitLines (start : Nat) (current : List Char) (offset : Nat) : List Char → List SourceLine
  | [] => [⟨start, current.reverse⟩]
  | c :: rest =>
      if c = '\n' then
        ⟨start, (c :: current).reverse⟩ :: splitLines (offset + 1) [] (offset + 1) rest
      else splitLines start (c :: current) (offset + c.utf8Size) rest

def lines (f : SourceFile) : List SourceLine := splitLines 0 [] 0 f.text.toList

/-- The number of the line that holds a byte, from zero. A byte beyond the end is on the last
line. -/
def lineAt (f : SourceFile) (offset : Nat) : Nat :=
  (f.lines.filter fun line => line.start ≤ offset).length - 1

end SourceFile

/-- Files by number; the first one has number one. -/
structure FileSet where
  files : List SourceFile
deriving DecidableEq, Repr

namespace FileSet

def ofFile (f : SourceFile) : FileSet := ⟨[f]⟩

def get? (s : FileSet) (id : FileId) : Option SourceFile :=
  if id = 0 then none else s.files[id - 1]?

/-- Adds a file under the next number. -/
def add (s : FileSet) (f : SourceFile) : FileId × FileSet :=
  (s.files.length + 1, ⟨s.files ++ [f]⟩)

end FileSet

end TypedScheme
