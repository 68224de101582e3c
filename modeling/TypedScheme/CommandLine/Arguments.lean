import TypedScheme.Report.Basic

/-!
The command line: options that every command takes, and the commands with their own arguments.
-/

namespace TypedScheme

namespace CommandLine

inductive Colours where
  | auto
  | always
  | never
deriving DecidableEq, Repr

inductive Shell where
  | bash
  | elvish
  | fish
  | powershell
  | zsh
deriving DecidableEq, Repr

/-- What the program is asked to do. Sources come from a file or from standard input. -/
inductive Command where
  | infer (file : Option String)
  | print (file : Option String)
  | repl (prompt : String)
  | completions (shell : Shell)
deriving DecidableEq, Repr

inductive Invocation where
  | run (colours : Colours) (format : Report.Format) (command : Command)
  | version
  | help
deriving DecidableEq, Repr

/-- Arguments that make no sense. -/
inductive UsageError where
  | usage
deriving DecidableEq, Repr

def Colours.ofName? : String → Option Colours
  | "auto" => some .auto
  | "always" => some .always
  | "never" => some .never
  | _ => none

def formatOfName? : String → Option Report.Format
  | "text" => some .text
  | "json" => some .json
  | "yaml" => some .yaml
  | _ => none

def Shell.ofName? : String → Option Shell
  | "bash" => some .bash
  | "elvish" => some .elvish
  | "fish" => some .fish
  | "powershell" => some .powershell
  | "zsh" => some .zsh
  | _ => none

/-- The names of commands. -/
inductive Verb where
  | infer
  | print
  | repl
  | completions
deriving DecidableEq, Repr

def Verb.ofName? : String → Option Verb
  | "infer" => some .infer
  | "pprint-ast" => some .print
  | "repl" => some .repl
  | "gen-completions" => some .completions
  | _ => none

/-- An argument by its form. -/
inductive Argument where
  /-- `--name`, or `--name=value`. -/
  | long (name : String) (value : Option String)
  /-- `-abc`. -/
  | short (letters : List Char)
  /-- `--`, after which all arguments are operands. -/
  | separator
  | operand (text : String)
deriving DecidableEq, Repr

def splitValue (cs : List Char) : String × Option String :=
  let name := cs.takeWhile (· ≠ '=')
  let value := cs.dropWhile (· ≠ '=')
  (String.ofList name, if value.isEmpty then none else some (String.ofList (value.drop 1)))

def Argument.ofText (s : String) : Argument :=
  match s.toList with
  | ['-', '-'] => .separator
  | '-' :: '-' :: cs => .long (splitValue cs).1 (splitValue cs).2
  | '-' :: c :: cs => .short (c :: cs)
  | _ => .operand s

/-- The options given at one level of the command line: before the command, or after it. An option
is given at most once at a level. -/
structure Level where
  colours : Option Colours
  format : Option Report.Format
  prompt : Option String
  operands : List String
deriving DecidableEq, Repr

def Level.empty : Level := ⟨none, none, none, []⟩

def setOnce {α : Type} (old : Option α) (new : Option α) : Except UsageError (Option α) :=
  match old, new with
  | none, some a => .ok (some a)
  | _, _ => .error .usage

/-- Gives an option its value. Only the command `repl` has a prompt. -/
def Level.set (level : Level) (verb : Option Verb) (name value : String)
    : Except UsageError Level :=
  match name with
  | "color" => do
      let colours ← setOnce level.colours (Colours.ofName? value)
      pure { level with colours := colours }
  | "error-format" => do
      let format ← setOnce level.format (formatOfName? value)
      pure { level with format := format }
  | "prompt" =>
      if verb = some .repl then do
        let prompt ← setOnce level.prompt (some value)
        pure { level with prompt := prompt }
      else .error .usage
  | _ => .error .usage

/-- How many operands a command takes at most. -/
def Verb.maxOperands : Verb → Nat
  | .infer | .print | .completions => 1
  | .repl => 0

def Level.addOperand (level : Level) (verb : Verb) (s : String) : Except UsageError Level :=
  if level.operands.length < verb.maxOperands then
    match verb with
    | .completions =>
        if (Shell.ofName? s).isSome then .ok { level with operands := level.operands ++ [s] }
        else .error .usage
    | _ =>
        if s.isEmpty then .error .usage
        else .ok { level with operands := level.operands ++ [s] }
  else .error .usage

/-- Flags that end the reading of arguments. The version is known before the command only. -/
def flag? (verb : Option Verb) : Argument → Option Invocation
  | .long "help" none => some .help
  | .long "version" none => if verb.isNone then some .version else none
  | .short ('h' :: _) => some .help
  | .short ('V' :: _) => if verb.isNone then some .version else none
  | _ => none

/-- Where the reading of a level leads: to a flag, to the end, or to a command and its arguments. -/
inductive LevelResult where
  | flag (invocation : Invocation)
  | finished (level : Level)
  | command (level : Level) (verb : Verb) (rest : List String)

/-- Takes the remaining arguments as operands. -/
def operandsOnly (verb : Option Verb) (level : Level) : List String → Except UsageError LevelResult
  | [] => .ok (.finished level)
  | s :: rest =>
      match verb with
      | none => .error .usage
      | some v => do
          let level ← level.addOperand v s
          operandsOnly verb level rest

/-- Reads the arguments of a level. `pending` is an option that waits for its value. -/
def readLevel (verb : Option Verb) (level : Level) (pending : Option String)
    : List String → Except UsageError LevelResult
  | [] => if pending.isSome then .error .usage else .ok (.finished level)
  | s :: rest =>
      match pending, Argument.ofText s with
      | some name, .operand value => do
          let level ← level.set verb name value
          readLevel verb level none rest
      | some _, _ => .error .usage
      | none, argument =>
          match flag? verb argument, argument with
          | some invocation, _ => .ok (.flag invocation)
          | none, .long name (some value) => do
              let level ← level.set verb name value
              readLevel verb level none rest
          | none, .long name none => readLevel verb level (some name) rest
          | none, .short _ => .error .usage
          | none, .separator => operandsOnly verb level rest
          | none, .operand s =>
              match verb with
              | some v => do
                  let level ← level.addOperand v s
                  readLevel verb level none rest
              | none =>
                  if s = "help" then .ok (.flag .help)
                  else
                    match Verb.ofName? s with
                    | some v => .ok (.command level v rest)
                    | none => .error .usage

def defaultPrompt : String := "tinfer> "

/-- The command of a verb; a shell for completions must be named. -/
def Verb.command (verb : Verb) (level : Level) : Except UsageError Command :=
  match verb with
  | .infer => .ok (.infer level.operands.head?)
  | .print => .ok (.print level.operands.head?)
  | .repl => .ok (.repl (level.prompt.getD defaultPrompt))
  | .completions =>
      match level.operands.head?.bind Shell.ofName? with
      | some shell => .ok (.completions shell)
      | none => .error .usage

/-- Reads the whole command line. Options after the command come before those in front of it. -/
def read (args : List String) : Except UsageError Invocation := do
  match ← readLevel none .empty none args with
  | .flag invocation => pure invocation
  | .finished _ => .error .usage
  | .command outer verb rest =>
      match ← readLevel (some verb) .empty none rest with
      | .flag invocation => pure invocation
      | .command _ _ _ => .error .usage
      | .finished inner => do
          let command ← verb.command inner
          pure (.run ((inner.colours.or outer.colours).getD .auto)
            ((inner.format.or outer.format).getD .text) command)

end CommandLine

end TypedScheme
