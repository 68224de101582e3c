import TypedScheme.CommandLine.Arguments
import TypedScheme.Script

/-!
What the commands do with their input: what they write to the two output streams, and the exit code.
Output does not go to a terminal, so it has colours only if they are always wanted.
-/

namespace TypedScheme

namespace CommandLine

structure Outcome where
  code : Nat
  stdout : String
  stderr : String
deriving DecidableEq, Repr

def versionText : String := "tinfer-cli tinfer 0.1.0\n"

/-- The name of a source that is read from standard input. -/
def stdinName : String := "<stdin>"

/-- The file that a command reads; `none` for standard input. -/
def Command.file : Command → Option String
  | .infer file | .print file => file
  | .repl _ | .completions _ => none

def Colours.wanted (c : Colours) : Bool := c = .always

/-- Success with some output, or the report of a failure. -/
def outcome (colours : Colours) (format : Report.Format) (s : Script)
    : Except Failure String → Outcome
  | .ok text => ⟨0, text ++ "\n", ""⟩
  | .error e => ⟨1, "", s.report format colours.wanted e⟩

/-- Runs a command on a script made of the bytes that were read. A message tells why there are
none. -/
def withScript (file : Option String) (input : Except String (List UInt8))
    (f : Script → Outcome) : Outcome :=
  match input with
  | .error message => ⟨1, "", message ++ "\n"⟩
  | .ok bytes =>
      match Script.ofBytes (file.getD stdinName) bytes with
      | .error e => ⟨1, "", e.message ++ "\n"⟩
      | .ok script => f script

/-- Lines of bytes, each with its line feed. -/
def splitLines (current : List UInt8) : List UInt8 → List (List UInt8)
  | [] => if current.isEmpty then [] else [current.reverse]
  | b :: rest =>
      if b = 10 then (b :: current).reverse :: splitLines [] rest
      else splitLines (b :: current) rest

/-- A line without its line feed and the carriage return before it. -/
def dropBreak (line : String) : String :=
  match line.toList.reverse with
  | '\n' :: '\r' :: rest => String.ofList rest.reverse
  | '\n' :: rest => String.ofList rest.reverse
  | _ => line

def quitCommands : List String := [":q", ":quit", ":exit"]

/-- A session on the lines of the input, which are numbered from `number`. Each line is a script of
its own, and a failure does not end the session. -/
def session (colours : Colours) (format : Report.Format) (number : Nat)
    (stdout stderr : String) : List (List UInt8) → Outcome
  | [] => ⟨0, stdout, stderr⟩
  | bytes :: rest =>
      match String.fromUTF8? ⟨bytes.toArray⟩ with
      | none => ⟨1, stdout, stderr ++ "Readline error: " ++ invalidTextMessage ++ "\n"⟩
      | some line =>
          let line := dropBreak line
          let word := Text.trim line
          if word.isEmpty then session colours format (number + 1) stdout stderr rest
          else if quitCommands.contains word then ⟨0, stdout, stderr⟩
          else
            let script := Script.ofText ("<repl-input-" ++ toString number ++ ">") line
            let result := outcome colours format script (script.infer.map Ty.text)
            session colours format (number + 1) (stdout ++ result.stdout)
              (stderr ++ result.stderr) rest

/-- Runs an invocation on its input: the bytes of the command's file, or of standard input. -/
def Invocation.perform (input : Except String (List UInt8)) : Invocation → Outcome
  | .version => ⟨0, versionText, ""⟩
  | .help => ⟨0, "", ""⟩
  | .run colours format (.infer file) =>
      withScript file input fun s => outcome colours format s (s.infer.map Ty.text)
  | .run colours format (.print file) =>
      withScript file input fun s => outcome colours format s (s.parse.map Expr.text)
  | .run colours format (.repl _) =>
      match input with
      | .error message => ⟨1, "", "Readline error: " ++ message ++ "\n"⟩
      | .ok bytes => session colours format 0 "" "" (splitLines [] bytes)
  | .run _ _ (.completions _) => ⟨0, "", ""⟩

end CommandLine

end TypedScheme
