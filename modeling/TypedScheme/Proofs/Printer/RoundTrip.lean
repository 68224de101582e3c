import TypedScheme.Proofs.Expr.Positions
import TypedScheme.Proofs.Printer.Expressions

/-! Printed expressions are read back.
Main statement: what is printed of a parsed source is read as the same datum as the source, and
parsed as the same expression.
-/

namespace TypedScheme

-----------------------------------------------------------------------------------------
-- The numbers of an expression
-----------------------------------------------------------------------------------------

namespace Expr

mutual
/-- The number literals of an expression, also those in quoted data. -/
def numbers : Expr → List Number
  | .number _ value => [value]
  | .boolean _ _ | .string _ _ | .primitive _ _ | .var _ _ => []
  | .conditional _ test yes no => test.numbers ++ (yes.numbers ++ no.numbers)
  | .lambda _ _ _ body => numbersOfAll body
  | .application _ operator operands => operator.numbers ++ numbersOfAll operands
  | .letIn _ bindings body | .letrec _ bindings body =>
      numbersOfBindings bindings ++ numbersOfAll body
  | .define _ _ value | .assign _ _ value => value.numbers
  | .program _ exprs => numbersOfAll exprs
  | .quote _ datum => datum.numbers

def numbersOfAll : List Expr → List Number
  | [] => []
  | e :: es => e.numbers ++ numbersOfAll es

def numbersOfBindings : List (Declaration × Expr) → List Number
  | [] => []
  | (_, value) :: rest => value.numbers ++ numbersOfBindings rest
end

end Expr

/-- There are no numbers in a written signature if there are none in its types, by induction on two
items at a time.
-/
theorem TypeExpr.numbers_of_signature {items : List Datum}
    (each : ∀ d ∈ items, ∀ t, Written d t → d.numbers = []) {params : List TypeExpr}
    {result : TypeExpr} (written : SignatureWritten items params result)
    : Datum.numbersOfAll items = [] := by
  induction items using List.twoStepInduction generalizing params with
  | nil | singleton => cases written
  | cons_cons p separator rest ih _ =>
      cases written with
      | last arrowPos inParam inResult =>
          simp [Datum.numbersOfAll, Datum.numbers, each _ (by simp) _ inParam,
            each _ (by simp) _ inResult]
      | more starPos inParam others =>
          have none := ih (fun d member => each d (by simp [member])) others
          simp [Datum.numbersOfAll, Datum.numbers, each _ (by simp) _ inParam, none]

/-- There are no numbers in a written type, by induction on the parts of its datum. -/
theorem TypeExpr.numbers_of_written {d : Datum} {t : TypeExpr} (written : Written d t)
    : d.numbers = [] := by
  induction d using Datum.partsInduction generalizing t with
  | number => cases written
  | boolean | string | symbol => rw [Datum.numbers]
  | list pos items ih =>
      rw [Datum.numbers]
      cases written with
      | thunk _ emptyPos arrowPos inResult =>
          simp [Datum.numbersOfAll, Datum.numbers, ih _ (by simp) inResult]
      | procedure _ inside =>
          exact numbers_of_signature (fun d member t => ih d member) inside

/-- There are no numbers in a written declaration. -/
theorem Declaration.numbers_of_written {d : Datum} {declaration : Declaration}
    (written : Written d declaration)
    : d.numbers = [] := by
  cases written with
  | plain => rw [Datum.numbers]
  | typed pos idPos colonPos free inType =>
      simp [Datum.numbersOfAll, Datum.numbers, TypeExpr.numbers_of_written inType]

/-- There are no numbers in written declarations, by induction on the pairs. -/
theorem Declaration.numbers_of_allWritten {ds : List Datum} {declarations : List Declaration}
    (written : List.Forall₂ Written ds declarations)
    : Datum.numbersOfAll ds = [] := by
  induction written with
  | nil => rw [Datum.numbersOfAll]
  | cons first others ih => simp [Datum.numbersOfAll, numbers_of_written first, ih]

namespace Expr

/-- The numbers of written expressions are those of their data if this holds of each, by induction
on the data.
-/
theorem numbers_of_allWritten {ds : List Datum}
    (each : ∀ d ∈ ds, ∀ e, Written d e → d.numbers = e.numbers) {es : List Expr}
    (written : AllWritten ds es)
    : Datum.numbersOfAll ds = numbersOfAll es := by
  induction ds generalizing es with
  | nil =>
      cases written
      rw [Datum.numbersOfAll, numbersOfAll]
  | cons d ds ih =>
      cases written with
      | cons first others =>
          rw [Datum.numbersOfAll, numbersOfAll, each d (by simp) _ first,
            ih (fun d member => each d (by simp [member])) others]

/-- The numbers of written bindings are those of their data, by induction on the data. -/
theorem numbers_of_bindingsWritten {ds : List Datum}
    (each
      : ∀ pos items, .list pos items ∈ ds
        → ∀ d ∈ items, ∀ e, Written d e → d.numbers = e.numbers)
    {bindings : List (Declaration × Expr)} (written : BindingsWritten ds bindings)
    : Datum.numbersOfAll ds = numbersOfBindings bindings := by
  induction ds generalizing bindings with
  | nil =>
      cases written
      rw [Datum.numbersOfAll, numbersOfBindings]
  | cons d ds ih =>
      cases written with
      | @cons pos d₁ d₂ _ declaration value others inDeclaration inValue inOthers =>
          have first := Declaration.numbers_of_written inDeclaration
          have second := each pos [d₁, d₂] (by simp) d₂ (by simp) value inValue
          have rest := ih (fun pos items member => each pos items (by simp [member])) inOthers
          simp [Datum.numbersOfAll, Datum.numbers, numbersOfBindings, first, second, rest]

/-- An expression has the numbers of the datum that writes it, by induction over the datum. -/
theorem numbers_of_written {d : Datum} {e : Expr} (written : Written d e)
    : d.numbers = e.numbers := by
  induction d using Datum.formsInduction generalizing e with
  | number | boolean | string =>
      cases written
      rw [Datum.numbers, numbers]
  | symbol pos name =>
      cases written with
      | primitive | var => rw [Datum.numbers, numbers]
  | list pos items ih ihBindings =>
      have each d (member : d ∈ items) e (written : Written d e) := ih d member written
      have inBindings bindingsPos bindings (member : .list bindingsPos bindings ∈ items) bindingPos
          parts (inside : .list bindingPos parts ∈ bindings) d (part : d ∈ parts) e
          (written : Written d e) :=
        ihBindings bindingsPos bindings member bindingPos parts inside d part written
      cases written with
      | conditional _ headPos inTest inYes inNo =>
          simp [Datum.numbers, Datum.numbersOfAll, numbers, each _ (by simp) _ inTest,
            each _ (by simp) _ inYes, each _ (by simp) _ inNo]
      | lambda _ headPos paramsPos inParams inBody =>
          have params := Declaration.numbers_of_allWritten inParams
          have body := numbers_of_allWritten (fun d member => each d (by simp [member])) inBody
          simp [Datum.numbers, Datum.numbersOfAll, numbers, params, body]
      | typedLambda _ headPos paramsPos colonPos inParams inResult inBody =>
          have params := Declaration.numbers_of_allWritten inParams
          have result := TypeExpr.numbers_of_written inResult
          have body := numbers_of_allWritten (fun d member => each d (by simp [member])) inBody
          simp [Datum.numbers, Datum.numbersOfAll, numbers, params, result, body]
      | application _ inOperator inOperands =>
          have operands :=
            numbers_of_allWritten (fun d member => each d (by simp [member])) inOperands
          simp [Datum.numbers, Datum.numbersOfAll, numbers, each _ (by simp) _ inOperator, operands]
      | @letIn _ headPos bindingsPos ds _ _ _ writtenBindings inBody
      | @letrec _ headPos bindingsPos ds _ _ _ writtenBindings inBody =>
          have bindings :=
            numbers_of_bindingsWritten (inBindings bindingsPos ds (by simp)) writtenBindings
          have body := numbers_of_allWritten (fun d member => each d (by simp [member])) inBody
          simp [Datum.numbers, Datum.numbersOfAll, numbers, bindings, body]
      | define _ headPos inDeclaration inValue =>
          have declaration := Declaration.numbers_of_written inDeclaration
          simp [Datum.numbers, Datum.numbersOfAll, numbers, declaration, each _ (by simp) _ inValue]
      | quote _ headPos d => simp [Datum.numbers, Datum.numbersOfAll, numbers]
      | assign _ headPos idPos name inValue =>
          simp [Datum.numbers, Datum.numbersOfAll, numbers, each _ (by simp) _ inValue]

/-- The numbers of a source are those of its datum. -/
theorem numbers_of_rootWritten {d : Datum} {e : Expr} (written : RootWritten d e)
    : d.numbers = e.numbers := by
  cases written with
  | expr written => exact numbers_of_written written
  | program pos headPos inside =>
      have each := numbers_of_allWritten (fun d _ e => numbers_of_written) inside
      simp [Datum.numbers, Datum.numbersOfAll, numbers, each]

/-- The document of a source writes what the source was written as. -/
theorem doc_writes_of_rootWritten {d : Datum} {e : Expr} (written : RootWritten d e)
    (printable : d.Printable)
    : e.doc.Writes [d] := by
  cases written with
  | expr written => exact doc_writes written printable
  | program pos headPos inside =>
      have each := docs_writeEach (fun d _ e => doc_writes)
        (fun d member => printable.item (by simp [member])) inside
      rw [doc]
      exact Doc.WriteEach.form (.cons printable.head_writes each) pos

end Expr

-----------------------------------------------------------------------------------------
-- Reading back
-----------------------------------------------------------------------------------------

/-- Every layout of a document that writes a datum is read as that datum. -/
theorem Doc.Writes.read {doc : Doc} {d : Datum} (writes : doc.Writes [d]) {text : String}
    (lays : doc.Lays text.toList) (file : FileId)
    : ∃ d', Datum.read file text = .ok d' ∧ d.Alike d' := by
  obtain ⟨ts, spells, spelt⟩ := writes
  cases spelt with
  | @cons _ _ us vs first others =>
      cases others
      rw [List.append_nil] at spells
      have contents : (Lexer.lex text.toList).map Lexeme.content = us.map .ok := by
        rw [Lexer.contents_lex]
        simpa using spells text.toList lays [] Text.bounded_nil
      exact Datum.ofLexemes_of_speltBy first contents file

namespace Expr

/-- What is printed of a parsed source, with any choice of line breaks, is read as the datum of the
source and parsed as the expression of the source, if its numbers are finite.
-/
theorem parse_of_printed {file : FileId} {source : String} {e : Expr}
    (parsed : parse file source = .ok e) (finite : ∀ n ∈ e.numbers, n.isFinite = true)
    : ∃ d,
        Datum.read file source = .ok d
        ∧ e.doc.Lays e.text.toList
        ∧ ∀ printed file', e.doc.Lays printed.toList
          → ∃ d' e',
              Datum.read file' printed = .ok d'
              ∧ d.Alike d'
              ∧ d.same d' = true
              ∧ parse file' printed = .ok e'
              ∧ e.same e' = true := by
  obtain ⟨d, read, written⟩ := parse_eq_ok_iff.mp parsed
  have finiteData : d.Finite := by
    rw [Datum.Finite, numbers_of_rootWritten written]
    exact finite
  have printable : d.Printable := ⟨fun name => Datum.isSymbol_of_read read, finiteData⟩
  refine ⟨d, read, Doc.render_lays Layout.width e.doc, ?_⟩
  intro printed file' lays
  obtain ⟨d', readBack, alike⟩ := (doc_writes_of_rootWritten written printable).read lays file'
  obtain ⟨e', written', sameExpr⟩ := rootWritten_of_alike written finiteData.defined alike
  exact ⟨d', e', readBack, alike, Datum.same_of_alike finiteData.defined alike,
    parse_eq_ok_iff.mpr ⟨d', readBack, written'⟩, sameExpr⟩

/-- A source with a comment, annotations, quotations and a number that is printed otherwise. -/
def annotatedLet : String :=
  "(let (((f : (number -> T)) g)) ; a call\n (f -01.50 '(a \"tab\\t\" 'b) (lambda (x) : T :)))"

def annotatedLetPrinted : String :=
  "(let\n  (((f : (number -> T)) g))\n  (f -1.5 '(a \"tab\\t\" (quote b)) (lambda (x) : T :)))"

/-- The source is printed in another way than it was written, and is read back. -/
theorem parse_of_printed_annotatedLet
    : ∃ e d,
        parse 1 annotatedLet = .ok e
        ∧ (∀ n ∈ e.numbers, n.isFinite = true)
        ∧ Datum.read 1 annotatedLet = .ok d
        ∧ e.text = annotatedLetPrinted
        ∧ ∃ d' e',
            Datum.read 2 e.text = .ok d'
            ∧ d.Alike d'
            ∧ d.same d' = true
            ∧ parse 2 e.text = .ok e'
            ∧ e.same e' = true := by
  have runs
      : (parse 1 annotatedLet).toOption.any (fun e =>
          e.numbers.all Number.isFinite && e.text = annotatedLetPrinted)
        = true := by
    decide +kernel
  cases parsed : parse 1 annotatedLet with
  | error error =>
      rw [parsed] at runs
      cases runs
  | ok e =>
      rw [parsed] at runs
      simp only [Except.toOption, Option.any_some, Bool.and_eq_true, List.all_eq_true,
        decide_eq_true_eq] at runs
      obtain ⟨finite, text⟩ := runs
      obtain ⟨d, read, lays, back⟩ := parse_of_printed parsed finite
      exact ⟨e, d, rfl, finite, read, text, back e.text 2 lays⟩

end Expr

end TypedScheme
