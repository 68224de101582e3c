import TypedScheme.Proofs.Diagnostic.Listing
import TypedScheme.Proofs.Expr.Spans
import TypedScheme.Proofs.Inference.Reports
import TypedScheme.Script

/-! Where diagnostics point.
Each error in an error of inference is placed at the expression or at a part of it. Main statement:
whatever goes wrong with a script, each diagnostic has one label, which marks a piece of the source.
-/

namespace TypedScheme

-----------------------------------------------------------------------------------------
-- Errors whose places are known
-----------------------------------------------------------------------------------------

namespace TypeError

/-- The diagnostic has one label, which marks the place of the error. -/
def ShownBy (e : TypeError) (diagnostic : Diagnostic) : Prop :=
  ∃ span message, e.pos = some span ∧ diagnostic.labels = [Label.ofSpan span message]

/-- No snippet is shown for an error whose place is known. -/
theorem snippet?_of_placed {e : TypeError} {span : Span} (place : e.pos = some span)
    : e.snippet? = none := by
  cases e <;> simp_all [pos, snippet?]

/-- Errors at known places are shown one by one, by induction on the list. -/
theorem ListedIn.shownBy {files : FileSet} {errors : List TypeError} {diagnostics : List Diagnostic}
    (listed : ListedIn files errors diagnostics)
    (known : ∀ e ∈ errors, ∃ span, e.pos = some span)
    : List.Forall₂ ShownBy errors diagnostics := by
  induction listed with
  | nil => exact .nil
  | cons first _ ih =>
      obtain ⟨⟨span, place⟩, others⟩ := List.forall_mem_cons.mp known
      obtain ⟨message, labels⟩ := first.placed span place
      exact .cons ⟨span, message, place, labels⟩ (ih others)

/-- Errors whose places are known are shown one by one, and no file is added for them. -/
theorem diagnostics_of_known (e : TypeError) (files : FileSet)
    (known : ∀ node ∈ e.nodes, ∃ span, node.pos = some span)
    : (e.diagnostics files).2 = files
      ∧ List.Forall₂ ShownBy e.nodes (e.diagnostics files).1 := by
  obtain ⟨listed, added⟩ := e.diagnostics_listed files
  have noFiles : ∀ node ∈ e.nodes, node.snippet? = none := by
    intro node member
    obtain ⟨span, place⟩ := known node member
    exact snippet?_of_placed place
  exact ⟨added.trans (FileSet.withSnippets_of_none noFiles files), listed.shownBy known⟩

/-- Every diagnostic shows one of the errors, by induction on the pairs. -/
theorem exists_node_of_shown {nodes : List TypeError} {diagnostics : List Diagnostic}
    (shown : List.Forall₂ ShownBy nodes diagnostics) {diagnostic : Diagnostic}
    (member : diagnostic ∈ diagnostics)
    : ∃ node ∈ nodes, node.ShownBy diagnostic := by
  induction shown with
  | nil => cases member
  | cons here _ ih =>
      rcases List.mem_cons.mp member with rfl | later
      · exact ⟨_, .head _, here⟩
      · obtain ⟨node, isNode, there⟩ := ih later
        exact ⟨node, .tail _ isNode, there⟩

end TypeError

-----------------------------------------------------------------------------------------
-- The places of the errors of an inference
-----------------------------------------------------------------------------------------

/-- All errors that a failed unification is explained by stand where its context stands, by
induction on what it is about.
-/
theorem UnifyError.pos_of_mem_nodes {P : OpenTy → Prop} {error : UnifyError}
    (about : error.About P) (t : Table) (context : Expr)
    : ∀ node ∈ (error.toTypeError t context).nodes, node.pos = context.pos := by
  induction about with
  | mismatch | arity | occurs | badType =>
      rw [toTypeError]
      intro node member
      cases List.mem_singleton.mp (TypeError.nodes.eq_def _ ▸ member)
      rfl
  | multiple _ ih =>
      rw [toTypeError, toTypeErrors_eq_map]
      intro node member
      rw [TypeError.nodes] at member
      rcases List.mem_cons.mp member with rfl | inside
      · rfl
      · obtain ⟨error, isError, among⟩ := TypeError.mem_nodesOfAll.mp inside
        obtain ⟨unified, isUnified, rfl⟩ := List.mem_map.mp isError
        exact ih unified isUnified node among

namespace Expr

/-- Each error is placed at the expression or at a part of it, by induction on the report. -/
theorem Reports.exists_part {e : Expr} {s : State} {error : TypeError} (reports : e.Reports s error)
    {d : Datum} (written : RootWritten d e)
    : ∀ node ∈ error.nodes, ∃ part, e.Contains part ∧ node.pos = part.pos := by
  induction reports generalizing d with
  | unboundIdentifier pos id =>
      intro node member
      cases List.mem_singleton.mp (TypeError.nodes.eq_def _ ▸ member)
      refine ⟨.var pos id, .refl, ?_⟩
      -- A variable that was read has the position of its identifier.
      cases written with
      | expr written =>
          cases written with
          | var => cases pos <;> rfl
  | @clash e _ _ _ clashed =>
      rw [clashed.explain_eq]
      exact fun node member =>
        ⟨e, .refl, UnifyError.pos_of_mem_nodes clashed.about _ _ node member⟩
  | @unsupported e | @emptyBody e =>
      intro node member
      cases List.mem_singleton.mp (TypeError.nodes.eq_def _ ▸ member)
      exact ⟨e, .refl, rfl⟩
  | @several e _ _ _ _ _ ih =>
      intro node member
      rw [TypeError.nodes] at member
      rcases List.mem_cons.mp member with rfl | inside
      · exact ⟨e, .refl, rfl⟩
      · obtain ⟨error, isError, among⟩ := TypeError.mem_nodesOfAll.mp inside
        exact ih error isError written node among
  | inPart isPart _ ih =>
      obtain ⟨d', _, written'⟩ := written.exists_datum isPart
      intro node member
      obtain ⟨part, contains, same⟩ := ih written' node member
      exact ⟨part, .head isPart contains, same⟩

/-- The inference of a closed expression fails with an error of the expression. -/
theorem reports_of_infer {e : Expr} {error : TypeError} (failed : e.infer = .error error)
    : ∃ s, e.Reports s error := by
  have gives := e.typeOf_gives State.empty .empty State.empty_wellFormed (State.holdsEnv_empty _)
  rw [infer] at failed
  cases run : e.inferIn .empty .empty with
  | ok ty s =>
      rw [run] at failed
      cases failed
  | error error' s =>
      rw [run] at failed
      cases failed
      exact ⟨s, (inferIn_gives gives).error run⟩

end Expr

-----------------------------------------------------------------------------------------
-- Scripts
-----------------------------------------------------------------------------------------

/-- The label marks a piece of the source of the script, from one character boundary to another. -/
structure Label.Marks (s : Script) (label : Label) : Prop where
  file_eq : label.file = Script.file
  le : label.start ≤ label.stop
  stop_le : label.stop ≤ s.source.size
  startsAt : Text.Boundary s.source.text label.start
  stopsAt : Text.Boundary s.source.text label.stop

/-- A label made for a span that cuts a script marks that script. -/
theorem Label.marks_ofSpan {s : Script} {span : Span}
    (cuts : span.Cuts (Text.Boundary s.source.text) Script.file) (message : String)
    : (Label.ofSpan span message).Marks s :=
  ⟨cuts.file_eq, Nat.le_of_lt cuts.nonempty, cuts.stopsAt.le, cuts.startsAt, cuts.stopsAt⟩

/-- A placed parse error gets one label, which marks the script. -/
theorem ParseError.Placed.marks {s : Script} {error : ParseError}
    (placed : error.Placed (Text.Boundary s.source.text) Script.file)
    : ∃ label, (error.diagnostic s.files).labels = [label] ∧ label.Marks s := by
  cases error with
  | unexpectedEnd file expected =>
      cases placed
      have atEnd : Text.Boundary s.source.text s.source.size :=
        Text.boundary_iff.mpr ⟨s.source.text, "", by simp, rfl⟩
      exact ⟨_, rfl, rfl, Nat.le_refl _, Nat.le_refl _, atEnd, atEnd⟩
  | unexpectedToken span | extraToken span | unexpectedChar span | invalidEscape span
  | unterminatedString span => exact ⟨_, rfl, Label.marks_ofSpan placed ""⟩
  | malformedExpr pos | malformedType pos =>
      obtain ⟨span, rfl, cuts⟩ := placed
      exact ⟨_, rfl, Label.marks_ofSpan cuts ""⟩

namespace Script

/-- A script that has no type cannot be parsed or has an error that inference reports. -/
theorem failure_of_infer {s : Script} {failure : Failure} (failed : s.infer = .error failure)
    : (∃ error, failure = .parse error ∧ Expr.parse file s.source.text = .error error)
      ∨ ∃ e error,
          failure = .type error
          ∧ Expr.parse file s.source.text = .ok e
          ∧ ∃ s', e.Reports s' error := by
  rw [infer, parse] at failed
  cases parsed : Expr.parse file s.source.text with
  | error error =>
      rw [parsed] at failed
      cases failed
      exact .inl ⟨error, rfl, rfl⟩
  | ok e =>
      simp only [parsed, ok_bind] at failed
      cases inferred : e.infer with
      | ok ty =>
          rw [inferred] at failed
          cases failed
      | error error =>
          rw [inferred] at failed
          cases failed
          exact .inr ⟨e, error, rfl, rfl, Expr.reports_of_infer inferred⟩

/-- Each error of the inference of a source is placed at the expression or at a part of it. -/
theorem exists_part_of_reports {s : Script} {e : Expr} {error : TypeError}
    (fits : s.source.size ≤ Span.maxOffset) (parsed : Expr.parse file s.source.text = .ok e)
    (reports : ∃ s', e.Reports s' error)
    : ∃ outer,
        e.pos = some outer
        ∧ ∀ node ∈ error.nodes, ∃ part inner,
            e.Contains part
            ∧ part.pos = some inner
            ∧ node.pos = some inner
            ∧ inner.Cuts (Text.Boundary s.source.text) file
            ∧ outer.Includes inner := by
  obtain ⟨d, read, written⟩ := Expr.parse_eq_ok_iff.mp parsed
  obtain ⟨_, reported⟩ := reports
  have placed := Datum.placed_of_read fits read
  obtain ⟨outer, known, _⟩ := placed.exists_span
  refine ⟨outer, written.pos_eq.trans known, ?_⟩
  intro node member
  obtain ⟨part, contains, same⟩ := reported.exists_part written node member
  obtain ⟨outer', inner, known', knownPart, cuts, includes⟩ := written.includes placed contains
  cases (written.pos_eq.trans known).symm.trans known'
  exact ⟨part, inner, contains, knownPart, same.trans knownPart, cuts, includes⟩

/-- What a failure has to say is about pieces of the source of the script. -/
structure Locates (s : Script) (failure : Failure) : Prop where
  /-- There is a diagnostic. -/
  shown : (failure.diagnostics s.files).1 ≠ []
  /-- No file is made up for the diagnostics. -/
  files_eq : (failure.diagnostics s.files).2 = s.files
  /-- Each diagnostic has one label, which marks a piece of the source. -/
  marked
    : ∀ diagnostic ∈ (failure.diagnostics s.files).1,
        ∃ label, diagnostic.labels = [label] ∧ label.Marks s
  /-- Each error in an error of inference is placed at the expression or at a part in it, and so
  inside the expression. -/
  placed
    : ∀ error,
        failure = .type error
        → ∃ e outer,
            s.parse = .ok e
            ∧ e.pos = some outer
            ∧ ∀ node ∈ error.nodes, ∃ part inner,
                e.Contains part
                ∧ part.pos = some inner
                ∧ node.pos = some inner
                ∧ outer.Includes inner

/-- The failure of a parser is located in its script. -/
theorem locates_of_unparsed {s : Script} {error : ParseError}
    (fits : s.source.size ≤ Span.maxOffset)
    (unparsed : Expr.parse file s.source.text = .error error)
    : s.Locates (.parse error) where
  shown := by simp [Failure.diagnostics]
  files_eq := rfl
  marked := by
    intro diagnostic member
    cases List.mem_singleton.mp member
    exact (Expr.parse_failsInside fits error unparsed).marks
  placed := nofun

/-- The failure of an inference is located in its script. -/
theorem locates_of_reports {s : Script} {e : Expr} {error : TypeError}
    (fits : s.source.size ≤ Span.maxOffset) (parsed : Expr.parse file s.source.text = .ok e)
    (reports : ∃ s', e.Reports s' error)
    : s.Locates (.type error) := by
  obtain ⟨outer, known, each⟩ := exists_part_of_reports fits parsed reports
  have places node (member : node ∈ error.nodes) : ∃ span, node.pos = some span := by
    obtain ⟨_, inner, _, _, here, _⟩ := each node member
    exact ⟨inner, here⟩
  obtain ⟨same, shown⟩ := error.diagnostics_of_known s.files places
  refine ⟨?_, same, ?_, ?_⟩
  · intro none
    rw [show (error.diagnostics s.files).1 = [] from none] at shown
    exact error.nodes_ne_nil (List.forall₂_nil_right_iff.mp shown)
  · intro diagnostic member
    obtain ⟨node, isNode, span, message, here, labels⟩ :=
      TypeError.exists_node_of_shown shown member
    obtain ⟨_, inner, _, _, place, cuts, _⟩ := each node isNode
    cases here.symm.trans place
    exact ⟨_, labels, Label.marks_ofSpan cuts message⟩
  · intro _ same
    cases same
    refine ⟨e, outer, by rw [parse, parsed], known, ?_⟩
    intro node member
    obtain ⟨part, inner, contains, knownPart, here, _, includes⟩ := each node member
    exact ⟨part, inner, contains, knownPart, here, includes⟩

/-- Whatever goes wrong with a script whose offsets fit into spans is located in its source. -/
theorem failure_located {s : Script} (fits : s.source.size ≤ Span.maxOffset) {failure : Failure}
    (failed : s.infer = .error failure)
    : s.Locates failure := by
  rcases failure_of_infer failed with ⟨error, rfl, unparsed⟩ | ⟨e, error, rfl, parsed, reports⟩
  · exact locates_of_unparsed fits unparsed
  · exact locates_of_reports fits parsed reports

/-- The extents of all labels, if the script has no type. -/
def extents? (s : Script) : Option (List (Nat × Nat)) :=
  match s.infer with
  | .ok _ => none
  | .error failure =>
      let labels := (failure.diagnostics s.files).1.flatMap Diagnostic.labels
      some (labels.map fun label => (label.start, label.stop))

/-- Two of three values have no type. Some letters take two bytes. -/
def accented : Script :=
  .ofText "accented" "(let ((é (ü 1)) (ß #t) (o (if \"ö\" 1 2))) é) ; naïve"

/-- The whole expression, the identifier `ü` and the conditional are marked. -/
theorem failure_located_accented
    : accented.source.size ≤ Span.maxOffset
      ∧ accented.extents? = some [(0, 48), (11, 13), (29, 42)]
      ∧ ∃ failure, accented.infer = .error failure ∧ accented.Locates failure := by
  have fits : accented.source.size ≤ Span.maxOffset := by decide +kernel
  have marked : accented.extents? = some [(0, 48), (11, 13), (29, 42)] := by decide +kernel
  refine ⟨fits, marked, ?_⟩
  cases failed : accented.infer with
  | ok ty =>
      rw [extents?, failed] at marked
      cases marked
  | error failure => exact ⟨failure, rfl, failure_located fits failed⟩

end Script

end TypedScheme
