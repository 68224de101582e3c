import TypedScheme.Report.Snippet

/-!
Reports for people: a headline, the source text that a diagnostic points at, and its notes.
-/

namespace TypedScheme

namespace Report

def severityText : Severity → String
  | .bug => "bug"
  | .error => "error"

def headline (d : Diagnostic) : List Styled :=
  [.set .severity, .text (severityText d.severity), .set .message, .text (": " ++ d.message),
    .reset, Snippet.newline]

/-- The lines of a text, without line breaks. A line break at the end starts no new line. -/
def noteLines (s : String) : List String :=
  let lines := (SourceFile.splitLines 0 [] 0 s.toList).map (·.chars)
  let kept := lines.filter (!·.isEmpty)
  kept.map fun line =>
    if line.getLast? = some '\n' then
      let line := line.dropLast
      String.ofList (if line.getLast? = some '\r' then line.dropLast else line)
    else String.ofList line

def note (padding : Nat) (s : String) : List Styled :=
  (noteLines s).zipIdx.flatMap fun (line, i) =>
    .text (Snippet.spaces padding ++ " ")
      :: (if i = 0 then Styled.span .border "=" else [.text " "])
      ++ [.text (" " ++ line), Snippet.newline]

/-- A diagnostic with its source text. -/
def styled (files : FileSet) (d : Diagnostic) : List Styled :=
  let place : Option (SourceFile × Label) :=
    d.labels.head?.bind fun label => (files.get? label.file).map (·, label)
  match place with
  | some (file, label) =>
      headline d ++ Snippet.render file label (!d.notes.isEmpty)
        ++ d.notes.flatMap (note (Snippet.padding file label)) ++ [Snippet.newline]
  | none => headline d ++ d.notes.flatMap (note 0) ++ [Snippet.newline]

/-- The report of diagnostics for a terminal. -/
def text (colours : Bool) (files : FileSet) (diagnostics : List Diagnostic) : String :=
  String.join (diagnostics.map fun d => Styled.render colours (styled files d))

end Report

end TypedScheme
