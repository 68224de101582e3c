import TypedScheme.Diagnostic

/-! The diagnostics of an error, one for each error in it.
An error without a place may need a file of its own to point at, and later errors are shown when
that file is already there. Main statement: the diagnostics list the errors in an error, an error
before its parts, and each file that is made belongs to the error that points at it.
-/

namespace TypedScheme

namespace TypeError

-----------------------------------------------------------------------------------------
-- The errors in an error
-----------------------------------------------------------------------------------------

mutual
/-- The error and all errors in it, an error before its parts. -/
def nodes : TypeError → List TypeError
  | .multiple context errors pos => .multiple context errors pos :: nodesOfAll errors
  | .unboundIdentifier id pos => [.unboundIdentifier id pos]
  | .mismatch expected inferred pos => [.mismatch expected inferred pos]
  | .arity expected inferred types pos => [.arity expected inferred types pos]
  | .occurs var ty pos => [.occurs var ty pos]
  | .unsupported construct reason context pos => [.unsupported construct reason context pos]
  | .badType ty pos => [.badType ty pos]
  | .unallocated var pos => [.unallocated var pos]
  | .corrupt pos => [.corrupt pos]

def nodesOfAll : List TypeError → List TypeError
  | [] => []
  | e :: es => e.nodes ++ nodesOfAll es
end

/-- An error is at least one of its own nodes. -/
theorem nodes_ne_nil (e : TypeError) : e.nodes ≠ [] := by
  cases e <;> simp [nodes]

/-- The nodes of several errors are those of each of them, by induction on the errors. -/
theorem mem_nodesOfAll {node : TypeError} {errors : List TypeError}
    : node ∈ nodesOfAll errors ↔ ∃ error ∈ errors, node ∈ error.nodes := by
  induction errors with
  | nil => simp [nodesOfAll]
  | cons e es ih => simp [nodesOfAll, ih]

/-- Does the error only gather others? -/
def isMultiple : TypeError → Bool
  | .multiple _ _ _ => true
  | _ => false

mutual
/-- The single failures are the errors that gather no others. -/
theorem leaves_eq_filter (e : TypeError)
    : e.leaves = e.nodes.filter fun node => !node.isMultiple := by
  cases e with
  | multiple context errors pos =>
      simp [leaves, nodes, isMultiple, leavesOfAll_eq_filter errors]
  | unboundIdentifier | mismatch | arity | occurs | unsupported | badType | unallocated | corrupt =>
      simp [leaves, nodes, isMultiple]

/-- The leaves are the nodes that are not made up of others. -/
theorem leavesOfAll_eq_filter (errors : List TypeError)
    : leavesOfAll errors = (nodesOfAll errors).filter fun node => !node.isMultiple := by
  cases errors with
  | nil => rfl
  | cons e es =>
      rw [leavesOfAll, nodesOfAll, List.filter_append, leaves_eq_filter e, leavesOfAll_eq_filter es]
end

-----------------------------------------------------------------------------------------
-- Files for errors without a place
-----------------------------------------------------------------------------------------

/-- The text of the file that an error points at because its place is not known. Errors about types
point at nothing then.
-/
def snippet? : TypeError → Option String
  | .unboundIdentifier id pos => if pos = none then some id.name else none
  | .unsupported _ _ context pos | .multiple context _ pos =>
      if pos = none then some context else none
  | .mismatch _ _ _ | .arity _ _ _ _ | .occurs _ _ _ | .badType _ _ | .unallocated _ _
  | .corrupt _ => none

end TypeError

/-- The files, and behind them a new one for each of the errors that needs one, in their order. -/
def FileSet.withSnippets (files : FileSet) (errors : List TypeError) : FileSet :=
  ⟨files.files ++ (errors.filterMap TypeError.snippet?).map (SourceFile.mk generatedName)⟩

namespace FileSet

/-- No error adds no file. -/
@[simp]
theorem withSnippets_nil (files : FileSet) : files.withSnippets [] = files := by
  simp [withSnippets]

/-- The snippets of errors put one after the other are added one after the other. -/
theorem withSnippets_append (files : FileSet) (errors more : List TypeError)
    : files.withSnippets (errors ++ more) = (files.withSnippets errors).withSnippets more := by
  simp [withSnippets]

/-- Errors without a snippet add no file. -/
theorem withSnippets_of_none {errors : List TypeError} (none : ∀ e ∈ errors, e.snippet? = none)
    (files : FileSet)
    : files.withSnippets errors = files := by
  simp [withSnippets, List.filterMap_eq_nil_iff.mpr none]

/-- Adding files changes none of those that are there. -/
theorem get?_withSnippets {files : FileSet} {id : FileId} {file : SourceFile}
    (known : files.get? id = some file) (errors : List TypeError)
    : (files.withSnippets errors).get? id = some file := by
  rw [get?] at known ⊢
  split at known
  · cases known
  · next nonzero =>
      have inside := (List.getElem?_eq_some_iff.mp known).1
      rw [if_neg nonzero, withSnippets, List.getElem?_append_left inside, known]

/-- The file that is made for an error comes right behind those for the errors before it. -/
theorem get?_withSnippets_new {node : TypeError} {text : String}
    (needed : node.snippet? = some text) (files : FileSet) (before after : List TypeError)
    : (files.withSnippets (before ++ node :: after)).get?
        ((files.withSnippets before).files.length + 1)
      = some ⟨generatedName, text⟩ := by
  rw [withSnippets_append]
  generalize files.withSnippets before = known
  simp [withSnippets, get?, needed]

end FileSet

-----------------------------------------------------------------------------------------
-- One diagnostic for each error
-----------------------------------------------------------------------------------------

namespace TypeError

/-- What the diagnostic of the error itself says. -/
def headline (e : TypeError) : String :=
  match e with
  | .occurs _ _ _ => "occurs check failed"
  | .unsupported construct _ _ _ => "unsupported construct `" ++ construct ++ "`"
  | .multiple _ errors _ => toString errors.length ++ " errors while checking an expression"
  | e => e.message

/-- The diagnostic is that of the error itself, if these files are there when it is made. It points
at the place of the error, or at all of the file that comes next, or at nothing.
-/
structure ShownIn (files : FileSet) (e : TypeError) (diagnostic : Diagnostic) : Prop where
  message_eq : diagnostic.message = e.headline
  placed
    : ∀ span, e.pos = some span → ∃ message, diagnostic.labels = [Label.ofSpan span message]
  generated
    : ∀ text,
        e.snippet? = some text
        → ∃ message,
            diagnostic.labels = [⟨files.files.length + 1, 0, text.utf8ByteSize, message⟩]
  unlabelled : e.pos = none → e.snippet? = none → diagnostic.labels = []

/-- The diagnostics are those of the errors, one after the other. Each is made when there are files
for the errors before it.
-/
inductive ListedIn : FileSet → List TypeError → List Diagnostic → Prop
  | nil (files : FileSet) : ListedIn files [] []
  | cons {files : FileSet} {e : TypeError} {errors : List TypeError} {diagnostic : Diagnostic}
    {diagnostics : List Diagnostic} (first : e.ShownIn files diagnostic)
    (others : ListedIn (files.withSnippets [e]) errors diagnostics)
    : ListedIn files (e :: errors) (diagnostic :: diagnostics)

/-- Listings are put one after the other if the second starts with the files of the first, by
induction on the first.
-/
theorem ListedIn.append {files : FileSet} {errors more : List TypeError}
    {diagnostics others : List Diagnostic} (listed : ListedIn files errors diagnostics)
    (behind : ListedIn (files.withSnippets errors) more others)
    : ListedIn files (errors ++ more) (diagnostics ++ others) := by
  induction listed with
  | nil files => simpa using behind
  | @cons files e errors _ _ first _ ih =>
      refine .cons first (ih ?_)
      rwa [← FileSet.withSnippets_append]

/-- Every error gets one diagnostic, by induction on the list. -/
theorem ListedIn.length_eq {files : FileSet} {errors : List TypeError}
    {diagnostics : List Diagnostic} (listed : ListedIn files errors diagnostics)
    : diagnostics.length = errors.length := by
  induction listed with
  | nil => rfl
  | cons _ _ ih => rw [List.length_cons, List.length_cons, ih]

/-- The diagnostic of an error stands where the error stands. -/
theorem ListedIn.exists_shown {files : FileSet} {before after : List TypeError} {node : TypeError}
    {diagnostics : List Diagnostic} (listed : ListedIn files (before ++ node :: after) diagnostics)
    : ∃ front diagnostic back,
        diagnostics = front ++ diagnostic :: back
        ∧ front.length = before.length
        ∧ node.ShownIn (files.withSnippets before) diagnostic := by
  induction before generalizing files diagnostics with
  | nil =>
      cases listed with
      | @cons _ _ _ diagnostic others first =>
          exact ⟨[], diagnostic, others, rfl, rfl, by simpa using first⟩
  | cons e before ih =>
      cases listed with
      | @cons _ _ _ diagnostic _ first others =>
          obtain ⟨front, shown, back, rfl, length, here⟩ := ih others
          refine ⟨diagnostic :: front, shown, back, rfl, by simp [length], ?_⟩
          rwa [← List.singleton_append, FileSet.withSnippets_append]

/-- The diagnostic of an error that needs a file if its place is not known. -/
theorem shownIn_of_label {e : TypeError} {text : String}
    (needs : e.snippet? = if e.pos = none then some text else none) (files : FileSet)
    (label : String) (notes : List String)
    : e.ShownIn files ⟨.error, e.headline, [(files.label e.pos text label).1], notes⟩
      ∧ (files.label e.pos text label).2 = files.withSnippets [e] := by
  cases place : e.pos with
  | some span =>
      have noFile : e.snippet? = none := by simp [needs, place]
      refine ⟨⟨rfl, ?_, by simp [noFile], by simp [place]⟩, ?_⟩
      · intro span' same
        cases place.symm.trans same
        exact ⟨label, rfl⟩
      · exact (FileSet.withSnippets_of_none (by simpa using noFile) files).symm
  | none =>
      have file : e.snippet? = some text := by simp [needs, place]
      refine ⟨⟨rfl, by simp [place], ?_, by simp [file]⟩, ?_⟩
      · intro text' same
        cases file.symm.trans same
        exact ⟨label, rfl⟩
      · simp [FileSet.withSnippets, FileSet.label, FileSet.add, file]

/-- The diagnostic of an error about types, which never needs a file. -/
theorem shownIn_of_expressionLabels {e : TypeError} (noFile : e.snippet? = none) (files : FileSet)
    (severity : Severity) (notes : List String)
    : e.ShownIn files ⟨severity, e.headline, expressionLabels e.pos, notes⟩ := by
  refine ⟨rfl, ?_, by simp [noFile], ?_⟩
  · intro span place
    rw [place]
    exact ⟨_, rfl⟩
  · intro place _
    rw [place]
    rfl

mutual
/-- The diagnostics of an error list its nodes, by induction on the error. The file for an error
that gathers others is made before theirs.
-/
theorem diagnostics_listed (e : TypeError) (files : FileSet)
    : ListedIn files e.nodes (e.diagnostics files).1
      ∧ (e.diagnostics files).2 = files.withSnippets e.nodes := by
  cases e with
  | multiple context errors pos =>
      obtain ⟨shown, added⟩ := shownIn_of_label (e := .multiple context errors pos) rfl files "" []
      obtain ⟨listed, addedMore⟩ := diagnosticsOfAll_listed errors (files.label pos context "").2
      rw [nodes, diagnostics]
      refine ⟨.cons shown (added ▸ listed), ?_⟩
      rw [← List.singleton_append, FileSet.withSnippets_append, ← added]
      exact addedMore
  | unboundIdentifier id pos =>
      obtain ⟨shown, added⟩ :=
        shownIn_of_label (e := .unboundIdentifier id pos) rfl files "this identifier is unbound" []
      exact ⟨.cons shown (.nil _), added⟩
  | unsupported construct reason context pos =>
      obtain ⟨shown, added⟩ :=
        shownIn_of_label (e := .unsupported construct reason context pos) rfl files
          "this expression can't be typed" [reason]
      exact ⟨.cons shown (.nil _), added⟩
  | mismatch | arity | occurs | badType | unallocated | corrupt =>
      rw [nodes, diagnostics]
      refine ⟨.cons (shownIn_of_expressionLabels rfl files _ _) (.nil _), ?_⟩
      exact (FileSet.withSnippets_of_none (by simp [snippet?]) files).symm

/-- The diagnostics of several errors list their nodes, and the files they end with have the
snippets of these.
-/
theorem diagnosticsOfAll_listed (errors : List TypeError) (files : FileSet)
    : ListedIn files (nodesOfAll errors) (diagnosticsOfAll errors files).1
      ∧ (diagnosticsOfAll errors files).2 = files.withSnippets (nodesOfAll errors) := by
  cases errors with
  | nil => exact ⟨.nil files, by simp [diagnosticsOfAll, nodesOfAll]⟩
  | cons e es =>
      obtain ⟨listed, added⟩ := diagnostics_listed e files
      obtain ⟨listed', added'⟩ := diagnosticsOfAll_listed es (files.withSnippets e.nodes)
      rw [diagnosticsOfAll, nodesOfAll]
      dsimp only
      rw [added, added', FileSet.withSnippets_append]
      exact ⟨listed.append listed', rfl⟩
end

/-- The diagnostics of an error are as many as there are errors in it, and they come in the same
order: the diagnostic of an error before those of its parts. Without those of the errors that only
gather others, they are the diagnostics of the single failures. The files are kept. Behind them
comes one for each error that has no place but a text to show, in the same order again, and the
label of such an error marks all of its own file.
-/
theorem diagnostics_list_errors (e : TypeError) (files : FileSet)
    : (e.diagnostics files).1.length = e.nodes.length
      ∧ ((e.nodes.zip (e.diagnostics files).1).filter fun shown => !shown.1.isMultiple).map Prod.fst
        = e.leaves
      ∧ (e.diagnostics files).2.files
        = files.files ++ (e.nodes.filterMap snippet?).map (SourceFile.mk FileSet.generatedName)
      ∧ (∀ id file, files.get? id = some file → (e.diagnostics files).2.get? id = some file)
      ∧ ∀ before node after,
          e.nodes = before ++ node :: after
          → ∃ front diagnostic back,
              (e.diagnostics files).1 = front ++ diagnostic :: back
              ∧ front.length = before.length
              ∧ node.ShownIn (files.withSnippets before) diagnostic
              ∧ ∀ text,
                  node.snippet? = some text
                  → (e.diagnostics files).2.get? ((files.withSnippets before).files.length + 1)
                    = some ⟨FileSet.generatedName, text⟩ := by
  obtain ⟨listed, added⟩ := e.diagnostics_listed files
  refine ⟨listed.length_eq, ?_, by rw [added]; rfl, ?_, ?_⟩
  · have firsts : (e.nodes.zip (e.diagnostics files).1).map Prod.fst = e.nodes :=
      List.map_fst_zip (Nat.le_of_eq listed.length_eq.symm)
    rw [leaves_eq_filter, ← firsts, List.filter_map, firsts]
    rfl
  · intro id file known
    rw [added]
    exact FileSet.get?_withSnippets known e.nodes
  · intro before node after splits
    rw [splits] at listed
    obtain ⟨front, diagnostic, back, here, length, shown⟩ := listed.exists_shown
    refine ⟨front, diagnostic, back, here, length, shown, ?_⟩
    intro text needed
    rw [added, splits]
    exact FileSet.get?_withSnippets_new needed files before after

/-- A mismatch, and two failures in a part of the expression. Only the part has a place. -/
def nested : TypeError :=
  .multiple "(f 1 (g x))"
    [.mismatch (.atomic .number) (.atomic .string) none,
      .multiple "(g x)"
        [.unboundIdentifier ⟨"x", none⟩ none, .unsupported "set!" "no type" "(set! é 1)" none]
        (some ⟨1, 5, 10⟩)]
    none

/-- Three files are added to the one that is there. The file of the outer error comes first, and the
mismatch, which points at nothing, has none.
-/
theorem diagnostics_list_errors_nested
    : (nested.diagnostics (.ofFile ⟨"source", "(f 1 (g x))"⟩)).1.map Diagnostic.labels
        = [[⟨2, 0, 11, ""⟩], [], [⟨1, 5, 10, ""⟩], [⟨3, 0, 1, "this identifier is unbound"⟩],
          [⟨4, 0, 11, "this expression can't be typed"⟩]]
      ∧ (nested.diagnostics (.ofFile ⟨"source", "(f 1 (g x))"⟩)).1.length = nested.nodes.length
      ∧ (nested.diagnostics (.ofFile ⟨"source", "(f 1 (g x))"⟩)).2.files
        = [⟨"source", "(f 1 (g x))"⟩, ⟨FileSet.generatedName, "(f 1 (g x))"⟩,
          ⟨FileSet.generatedName, "x"⟩, ⟨FileSet.generatedName, "(set! é 1)"⟩] := by
  obtain ⟨length, _, files, _⟩ :=
    diagnostics_list_errors nested (.ofFile ⟨"source", "(f 1 (g x))"⟩)
  exact ⟨by decide +kernel, length, files⟩

end TypeError

end TypedScheme
