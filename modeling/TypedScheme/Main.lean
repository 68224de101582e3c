import TypedScheme.CommandLine.Run

/-!
The program itself: it reads its input, runs the command and writes what came out.
-/

open TypedScheme

/-- Why a file cannot be read. -/
def readErrorMessage : IO.Error → String
  | .noFileOrDirectory _ _ _ | .noSuchThing _ _ _ => "No such file or directory (os error 2)"
  | .permissionDenied _ _ _ => "Permission denied (os error 13)"
  | .inappropriateType _ _ _ => "Is a directory (os error 21)"
  | e => toString e

/-- All bytes of the file, or of standard input. -/
def readInput (file : Option String) : IO (Except String (List UInt8)) := do
  try
    let bytes ←
      match file with
      | some path => IO.FS.readBinFile path
      | none => (← IO.getStdin).readBinToEnd
    return .ok bytes.toList
  catch e => return .error (readErrorMessage e)

def main (args : List String) : IO UInt32 := do
  match CommandLine.read args with
  | .error _ =>
      IO.eprintln "error: unexpected arguments"
      return 2
  | .ok invocation =>
      let input ←
        match invocation with
        | .run _ _ command => readInput command.file
        | _ => pure (.ok [])
      let outcome := invocation.perform input
      IO.print outcome.stdout
      IO.eprint outcome.stderr
      return UInt32.ofNat outcome.code
