import TypedScheme.Number.Numeral
import TypedScheme.Report.Json

/-!
Reports as YAML in block style. A string is written as it is where YAML reads it back as that
string; otherwise it is quoted, or written as a literal block if it has several lines.
-/

namespace TypedScheme

namespace Yaml

inductive Style where
  | plain
  | singleQuoted
  | doubleQuoted
  | literal
deriving DecidableEq, Repr

def isBreak (c : Char) : Bool :=
  c = '\r' || c = '\n' || c = '\x85' || c = '\u2028' || c = '\u2029'

def isBlank (c : Char) : Bool := c = ' ' || c = '\t' || isBreak c || c = '\x00'

/-- Characters that stand for themselves in every style. -/
def isPrintable (c : Char) : Bool :=
  let n := c.toNat
  n = 0x0a || (0x20 ≤ n && n ≤ 0x7e) || (0xa0 ≤ n && n ≠ 0xfeff && n ≠ 0xfffe && n ≠ 0xffff)

/-- Does the text hold two neighbours, the first with one property and the second with another? -/
def hasPair (first second : Char → Bool) : List Char → Bool
  | a :: b :: rest => (first a && second b) || hasPair first second (b :: rest)
  | _ => false

/-- What is true of the character after the first one; the end counts as a blank. -/
def blankNext (rest : List Char) : Bool := rest.head?.all isBlank

/-- Characters that start something else than a string. -/
def startsIndicator : List Char → Bool
  | [] => false
  | c :: rest =>
      "#,[]\x7b\x7d&*!|>'\"%@`".toList.contains c
        || ((c = '?' || c = ':' || c = '-') && blankNext rest)
        || (c :: rest).take 3 = ['-', '-', '-'] || (c :: rest).take 3 = ['.', '.', '.']

/-- A colon before a blank or the end, or a hash sign after a blank, behind the first character. -/
def hasIndicator (cs : List Char) : Bool :=
  hasPair isBlank (· = '#') cs
    || hasPair (· = ':') isBlank (cs.drop 1)
    || (1 < cs.length && cs.getLast? = some ':')

def startsWith (p : Char → Bool) (cs : List Char) : Bool := cs.head?.any p

def endsWith (p : Char → Bool) (cs : List Char) : Bool := cs.getLast?.any p

/-- A string that fits in no style but the double quoted one. -/
def needsEscapes (cs : List Char) : Bool :=
  cs.any (!isPrintable ·) || hasPair (· = ' ') isBreak cs

def plainAllowed (cs : List Char) : Bool :=
  !(startsIndicator cs || hasIndicator cs || cs.any isBreak || startsWith (· = ' ') cs
    || endsWith (· = ' ') cs || needsEscapes cs)

def singleQuotedAllowed (cs : List Char) : Bool :=
  !(needsEscapes cs || hasPair isBreak (· = ' ') cs)

def literalAllowed (cs : List Char) : Bool := !(needsEscapes cs || endsWith (· = ' ') cs)

/-- Words that are read as a boolean, as null or as a number without digits. -/
def words : List String :=
  ["true", "True", "TRUE", "false", "False", "FALSE", "null", "Null", "NULL", "~",
    ".inf", ".Inf", ".INF", "+.inf", "+.Inf", "+.INF", "-.inf", "-.Inf", "-.INF",
    ".nan", ".NaN", ".NAN"]

def isDigitOf (base : Nat) (c : Char) : Bool :=
  let n := c.toNat
  let value :=
    if '0'.toNat ≤ n ∧ n ≤ '9'.toNat then n - '0'.toNat
    else if 'a'.toNat ≤ n ∧ n ≤ 'f'.toNat then n - 'a'.toNat + 10
    else if 'A'.toNat ≤ n ∧ n ≤ 'F'.toNat then n - 'A'.toNat + 10
    else 16
  value < base

/-- The value of digits in a base. -/
def digitsValue (base : Nat) (cs : List Char) : Nat :=
  cs.foldl (fun n c =>
    let d := c.toNat
    base * n + (if d ≤ '9'.toNat then d - '0'.toNat else (d % 32) + 9)) 0

/-- A prefixed integer of at most 128 bits, such as `0x1f`. One with a minus sign is a signed
integer of that size. -/
def isPrefixed (cs : List Char) : Bool :=
  let (negative, unsigned) := Numeral.splitSign cs
  let check (base : Nat) (digits : List Char) : Bool :=
    !digits.isEmpty && digits.all (isDigitOf base)
      && digitsValue base digits < (if negative then (1 <<< 127) + 1 else 1 <<< 128)
  match unsigned with
  | '0' :: 'x' :: digits => check 16 digits
  | '0' :: 'o' :: digits => check 8 digits
  | '0' :: 'b' :: digits => check 2 digits
  | _ => false

/-- A text that reads as a finite number, or that is all digits. -/
def isNumeric (cs : List Char) : Bool :=
  let digits := (Numeral.splitSign cs).2
  isPrefixed cs || (1 < digits.length && digits.all Char.isDigit && digits.head? = some '0')
    || match Numeral.ofChars? cs with
      | some numeral => numeral.value.isFinite
      | none => false

/-- A string that would be read as something else if it were plain. -/
def isAmbiguous (s : String) : Bool := s.isEmpty || words.contains s || isNumeric s.toList

/-- The style of a string: the first of plain, single quoted and double quoted that suits it, and a
literal block if it has a line feed. -/
def style (s : String) : Style :=
  let cs := s.toList
  if cs.contains '\n' then if literalAllowed cs then .literal else .doubleQuoted
  else if !isAmbiguous s && plainAllowed cs then .plain
  else if singleQuotedAllowed cs then .singleQuoted
  else .doubleQuoted

/-- So many hexadecimal digits of a number, in upper case. -/
def hex (digits n : Nat) : List Char :=
  (List.range digits).reverse.map fun i => (Json.hexDigit (n >>> (4 * i))).toUpper

def escapeChar (c : Char) : List Char :=
  let n := c.toNat
  if isPrintable c && !isBreak c && c ≠ '"' && c ≠ '\\' then [c]
  else
    '\\' ::
      match n with
      | 0x00 => ['0']
      | 0x07 => ['a']
      | 0x08 => ['b']
      | 0x09 => ['t']
      | 0x0a => ['n']
      | 0x0b => ['v']
      | 0x0c => ['f']
      | 0x0d => ['r']
      | 0x1b => ['e']
      | 0x22 => ['"']
      | 0x5c => ['\\']
      | 0x85 => ['N']
      | 0x2028 => ['L']
      | 0x2029 => ['P']
      | _ =>
          if n ≤ 0xff then 'x' :: hex 2 n
          else if n ≤ 0xffff then 'u' :: hex 4 n
          else 'U' :: hex 8 n

/-- Says how the line breaks at the end of a literal block are to be read. -/
def chomping (cs : List Char) : String :=
  match cs.reverse with
  | [] => "-"
  | c :: rest => if !isBreak c then "-" else if rest.head?.all isBreak then "+" else ""

/-- A text with its line breaks kept and each line that is not empty indented. The first line is
indented only if it is a `fresh` one. -/
def indented (indent : Nat) (fresh : Bool) : List Char → List Char
  | [] => []
  | c :: rest =>
      if isBreak c then c :: indented indent true rest
      else (if fresh then List.replicate indent ' ' else []) ++ c :: indented indent false rest

/-- The inside of a single quoted string and the quote that closes it. -/
def singleQuotedChars (cs : List Char) : List Char :=
  cs.flatMap (fun c => if c = '\'' then ['\'', '\''] else [c]) ++ ['\'']

/-- A string and the end of its line. Its further lines are indented by `indent`. -/
def scalar (indent : Nat) (s : String) : String :=
  let cs := s.toList
  match style s with
  | .plain => s ++ "\n"
  | .singleQuoted => "'" ++ String.ofList (indented indent false (singleQuotedChars cs)) ++ "\n"
  | .doubleQuoted => "\"" ++ String.ofList (cs.flatMap escapeChar) ++ "\"\n"
  | .literal =>
      let hint := if startsWith (fun c => c = ' ' || isBreak c) cs then "2" else ""
      "|" ++ hint ++ chomping cs ++ "\n" ++ String.ofList (indented indent true cs)
        ++ (if endsWith isBreak cs then "" else "\n")

end Yaml

namespace Report

def labelYaml (l : Label) : String :=
  "  - style: Primary\n    file_id: " ++ toString l.file
    ++ "\n    range:\n      start: " ++ toString l.start ++ "\n      end: " ++ toString l.stop
    ++ "\n    message: " ++ Yaml.scalar 6 l.message

/-- A list under a key, which is written on one line if it is empty. -/
def listYaml (key : String) (items : List String) : String :=
  if items.isEmpty then "  " ++ key ++ ": []\n" else "  " ++ key ++ ":\n" ++ String.join items

def diagnosticYaml (d : Diagnostic) : String :=
  "- severity: " ++ severityName d.severity ++ "\n  code: null\n  message: "
    ++ Yaml.scalar 4 d.message
    ++ listYaml "labels" (d.labels.map labelYaml)
    ++ listYaml "notes" (d.notes.map fun note => "  - " ++ Yaml.scalar 4 note)

def yaml (diagnostics : List Diagnostic) : String :=
  "diagnostics:\n" ++ String.join (diagnostics.map diagnosticYaml)

end Report

end TypedScheme
