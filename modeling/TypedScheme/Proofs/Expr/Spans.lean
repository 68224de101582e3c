import Mathlib.Data.List.Induction
import TypedScheme.Proofs.Expr.Parts

/-! Where what is wrong with a source lies, and where the parts of an expression lie.
Main statements: the error of a source that cannot be parsed points at a piece of the source, and in
the expression of a source that can be parsed each part has a known span inside that of the whole.
-/

namespace TypedScheme

variable {B : Nat → Prop} {file : FileId}

/-- If this fails, then with an error that lies in the file. -/
def FailsInside {α : Type} (B : Nat → Prop) (file : FileId) (x : Except ParseError α) : Prop :=
  ∀ error, x = .error error → error.Placed B file

/-- A success is no failure elsewhere. -/
theorem failsInside_ok {α : Type} (a : α) : FailsInside B file (.ok a) := nofun

/-- A placed error fails inside the text. -/
theorem failsInside_error {α : Type} {error : ParseError} (placed : error.Placed B file)
    : FailsInside B file (.error error : Except ParseError α) := by
  intro _ same
  cases same
  exact placed

/-- A sequence fails inside the text if both of its parts do. -/
theorem FailsInside.bind {α β : Type} {x : Except ParseError α} {f : α → Except ParseError β}
    (first : FailsInside B file x) (rest : ∀ a, FailsInside B file (f a))
    : FailsInside B file (x >>= f) := by
  intro error failed
  cases x with
  | error error' =>
      cases failed
      exact first error rfl
  | ok a => exact rest a error failed

/-- The items of a placed list are placed. -/
theorem Datum.Placed.items {pos : Position} {items : List Datum}
    (placed : (Datum.list pos items).Placed B file)
    : ∀ d ∈ items, d.Placed B file :=
  fun _ member => placed.item member

-----------------------------------------------------------------------------------------
-- Types and declarations
-----------------------------------------------------------------------------------------

namespace TypeExpr

/-- Reading a signature fails inside the text if reading its types does, by induction on pairs of
items.
-/
theorem signature_failsInside {items : List Datum} (placed : ∀ d ∈ items, d.Placed B file)
    (each : ∀ d ∈ items, FailsInside B file (ofDatum d)) (leading : Bool)
    : FailsInside B file (signature leading items) := by
  induction items using List.twoStepInduction generalizing leading with
  | nil => exact failsInside_ok _
  | singleton d => exact failsInside_ok _
  | cons_cons p separator rest ih _ =>
      by_cases last : ∃ d, rest = [d]
      · obtain ⟨d, rfl⟩ := last
        rw [signature]
        split
        · exact (each d (by simp)).bind fun _ => failsInside_ok _
        · exact (each p (by simp)).bind fun _ => (each d (by simp)).bind fun _ => failsInside_ok _
      · rw [signature]
        · refine (each p (by simp)).bind fun param => ?_
          split
          · refine FailsInside.bind ?_ fun _ => failsInside_ok _
            exact ih (fun d member => placed d (by simp [member]))
              (fun d member => each d (by simp [member])) false
          · exact failsInside_error (placed separator (by simp)).exists_span
        · rintro d rfl
          exact last ⟨d, rfl⟩

/-- Reading a type fails inside the text, by induction on the parts of the datum. -/
theorem ofDatum_failsInside {d : Datum} (placed : d.Placed B file)
    : FailsInside B file (ofDatum d) := by
  induction d using Datum.partsInduction with
  | number | boolean | string => exact failsInside_error placed.exists_span
  | symbol pos name =>
      rw [ofDatum]
      split
      · exact failsInside_ok _
      · split
        · exact failsInside_error placed.exists_span
        · exact failsInside_ok _
  | list pos items ih =>
      rw [ofDatum]
      split
      · exact failsInside_error placed.exists_span
      · refine FailsInside.bind ?_ fun _ => failsInside_ok _
        exact signature_failsInside placed.items (fun d member => ih d member (placed.item member))
          true

end TypeExpr

namespace Declaration

/-- Reading an identifier fails inside the text. -/
theorem idOfDatum_failsInside {d : Datum} (placed : d.Placed B file) (form : String)
    : FailsInside B file (idOfDatum form d) := by
  cases d with
  | number | boolean | string | list => exact failsInside_error placed.exists_span
  | symbol pos name =>
      rw [idOfDatum]
      split
      · exact failsInside_error placed.exists_span
      · exact failsInside_ok _

/-- Reading a declaration fails inside the text. -/
theorem ofDatum_failsInside {d : Datum} (placed : d.Placed B file) (form : String)
    : FailsInside B file (ofDatum form d) := by
  rw [ofDatum.eq_def]
  split
  · exact (idOfDatum_failsInside placed form).bind fun _ => failsInside_ok _
  · next pos id colon type =>
      split
      · refine (idOfDatum_failsInside (placed.item (by simp [Datum.items])) form).bind fun _ => ?_
        exact (TypeExpr.ofDatum_failsInside (placed.item (by simp [Datum.items]))).bind
          fun _ => failsInside_ok _
      · exact failsInside_error placed.exists_span
  · exact failsInside_error placed.exists_span

/-- Reading declarations fails inside the text, by induction on the data. -/
theorem ofData_failsInside {ds : List Datum} (placed : ∀ d ∈ ds, d.Placed B file) (form : String)
    : FailsInside B file (ofData form ds) := by
  induction ds with
  | nil => exact failsInside_ok _
  | cons d ds ih =>
      refine (ofDatum_failsInside (placed d (by simp)) form).bind fun _ => ?_
      exact (ih fun d member => placed d (by simp [member])).bind fun _ => failsInside_ok _

/-- Reading parameters fails inside the text. -/
theorem paramsOfDatum_failsInside {d : Datum} (placed : d.Placed B file)
    : FailsInside B file (paramsOfDatum d) := by
  cases d with
  | number | boolean | string | symbol => exact failsInside_error placed.exists_span
  | list pos items => exact ofData_failsInside placed.items "lambda"

end Declaration

-----------------------------------------------------------------------------------------
-- Expressions
-----------------------------------------------------------------------------------------

namespace Expr

/-- Reading a result type fails inside the text. -/
theorem resultOfData_failsInside {ds : List Datum} (placed : ∀ d ∈ ds, d.Placed B file)
    : FailsInside B file (resultOfData ds) := by
  rcases ds with _ | ⟨colon, _ | ⟨type, rest⟩⟩
  · exact failsInside_ok _
  · rw [resultOfData]
    split
    · exact failsInside_error (placed colon (by simp)).exists_span
    · exact failsInside_ok _
  · rw [resultOfData]
    split
    · exact TypeExpr.ofDatum_failsInside (placed type (by simp))
    · exact failsInside_ok _

/-- A missing body is reported inside the text, at its form. -/
theorem requireBody_failsInside {pos : Position}
    (known : ∃ span, pos = some span ∧ span.Cuts B file) (form : String) (body : List Datum)
    : FailsInside B file (requireBody pos form body) := by
  rw [requireBody]
  split
  · exact failsInside_error known
  · exact failsInside_ok _

/-- Reading expressions fails inside the text if reading each of them does, by induction on the
data.
-/
theorem ofData_failsInside {ds : List Datum} (each : ∀ d ∈ ds, FailsInside B file (ofDatum d))
    : FailsInside B file (ofData ds) := by
  induction ds with
  | nil => exact failsInside_ok _
  | cons d ds ih =>
      refine (each d (by simp)).bind fun _ => ?_
      exact (ih fun d member => each d (by simp [member])).bind fun _ => failsInside_ok _

/-- So does reading the body behind a result type. -/
theorem ofDataAfterResult_failsInside {ds : List Datum}
    (each : ∀ d ∈ ds, FailsInside B file (ofDatum d))
    : FailsInside B file (ofDataAfterResult ds) := by
  cases ds with
  | nil => exact failsInside_ok _
  | cons first rest =>
      rw [ofDataAfterResult]
      split
      · cases rest with
        | nil => exact failsInside_ok _
        | cons type rest => exact ofData_failsInside fun d member => each d (by simp [member])
      · exact ofData_failsInside each

/-- Reading bindings fails inside the text if reading their values does, by induction on the data.
-/
theorem bindingList_failsInside {form : String} {ds : List Datum}
    (placed : ∀ d ∈ ds, d.Placed B file)
    (each : ∀ pos parts, .list pos parts ∈ ds → ∀ d ∈ parts, FailsInside B file (ofDatum d))
    : FailsInside B file (bindingList form ds) := by
  induction ds with
  | nil => exact failsInside_ok _
  | cons d ds ih =>
      have here := placed d (by simp)
      have rest : FailsInside B file (bindingList form ds) :=
        ih (fun d member => placed d (by simp [member]))
          (fun pos parts member => each pos parts (by simp [member]))
      rw [bindingList.eq_def]
      split
      · next nil => cases nil
      · next pos declaration value rest' same =>
          cases same
          refine (Declaration.ofDatum_failsInside (here.item (by simp [Datum.items])) form).bind
            fun _ => ?_
          refine (each pos [declaration, value] (by simp) value (by simp)).bind fun _ => ?_
          exact rest.bind fun _ => failsInside_ok _
      · next same =>
          cases same
          exact failsInside_error here.exists_span

/-- Reading a form with bindings fails inside the text if reading its expressions does. -/
theorem bindingForm_failsInside {pos : Position}
    (known : ∃ span, pos = some span ∧ span.Cuts B file) (form : String) {ds : List Datum}
    (placed : ∀ d ∈ ds, d.Placed B file) (each : ∀ d ∈ ds, FailsInside B file (ofDatum d))
    (inBindings
      : ∀ bindingsPos bindings, .list bindingsPos bindings ∈ ds
        → ∀ bindingPos parts, .list bindingPos parts ∈ bindings
        → ∀ d ∈ parts, FailsInside B file (ofDatum d))
    : FailsInside B file (bindingForm pos form ds) := by
  cases ds with
  | nil => exact failsInside_error known
  | cons d rest =>
      cases d with
      | number | boolean | string | symbol =>
          exact failsInside_error (placed _ (by simp)).exists_span
      | list bindingsPos items =>
          have placedItems := (placed (.list bindingsPos items) (by simp)).items
          refine (bindingList_failsInside placedItems
            (inBindings bindingsPos items (by simp))).bind fun _ => ?_
          refine (requireBody_failsInside known form rest).bind fun _ => ?_
          exact (ofData_failsInside fun d member => each d (by simp [member])).bind
            fun _ => failsInside_ok _

/-- A list, where the errors of its parts and of the values of its bindings lie in the file. -/
theorem ofDatum_list_failsInside {pos : Position} {items : List Datum}
    (placed : (Datum.list pos items).Placed B file)
    (each : ∀ d ∈ items, FailsInside B file (ofDatum d))
    (inBindings
      : ∀ bindingsPos bindings, .list bindingsPos bindings ∈ items
        → ∀ bindingPos parts, .list bindingPos parts ∈ bindings
        → ∀ d ∈ parts, FailsInside B file (ofDatum d))
    : FailsInside B file (ofDatum (.list pos items)) := by
  have known : ∃ span, pos = some span ∧ span.Cuts B file := placed.exists_span
  cases items with
  | nil => exact failsInside_error known
  | cons head rest =>
      have placedRest d (member : d ∈ rest) := placed.items d (List.mem_cons_of_mem head member)
      have eachRest d (member : d ∈ rest) := each d (List.mem_cons_of_mem head member)
      have inBindingsRest bindingsPos bindings (member : .list bindingsPos bindings ∈ rest) :=
        inBindings bindingsPos bindings (List.mem_cons_of_mem head member)
      rw [ofDatum.eq_def]
      dsimp only
      split
      · split
        · next test yes no =>
            refine (eachRest test (by simp)).bind fun _ => ?_
            refine (eachRest yes (by simp)).bind fun _ => ?_
            exact (eachRest no (by simp)).bind fun _ => failsInside_ok _
        · exact failsInside_error known
      · split
        · exact failsInside_error known
        · next params more =>
            refine (Declaration.paramsOfDatum_failsInside (placedRest params (by simp))).bind
              fun _ => ?_
            have placedMore d (member : d ∈ more) := placedRest d (List.mem_cons_of_mem _ member)
            refine (resultOfData_failsInside placedMore).bind fun _ => ?_
            refine (requireBody_failsInside known "lambda" (afterResult more)).bind fun _ => ?_
            exact (ofDataAfterResult_failsInside fun d member => eachRest d (by simp [member])).bind
              fun _ => failsInside_ok _
      · exact (bindingForm_failsInside known "let" placedRest eachRest inBindingsRest).bind
          fun _ => failsInside_ok _
      · exact (bindingForm_failsInside known "letrec" placedRest eachRest inBindingsRest).bind
          fun _ => failsInside_ok _
      · split
        · next declaration value =>
            refine (Declaration.ofDatum_failsInside (placedRest declaration (by simp)) "define").bind
              fun _ => ?_
            exact (eachRest value (by simp)).bind fun _ => failsInside_ok _
        · exact failsInside_error known
      · split
        · exact failsInside_ok _
        · exact failsInside_error known
      · split
        · next value => exact (eachRest value (by simp)).bind fun _ => failsInside_ok _
        · exact failsInside_error (placedRest _ (by simp)).exists_span
        · exact failsInside_error known
      · exact failsInside_error known
      · refine (each head (by simp)).bind fun _ => ?_
        exact (ofData_failsInside eachRest).bind fun _ => failsInside_ok _

/-- Reading an expression fails inside the text, by induction on the datum. -/
theorem ofDatum_failsInside {d : Datum} (placed : d.Placed B file)
    : FailsInside B file (ofDatum d) := by
  induction d using Datum.formsInduction with
  | number | boolean | string => exact failsInside_ok _
  | symbol pos name =>
      rw [ofDatum]
      split
      · exact failsInside_ok _
      · exact failsInside_ok _
  | list pos items ih ihBindings =>
      apply ofDatum_list_failsInside placed
      · exact fun d member => ih d member (placed.item member)
      · intro bindingsPos bindings member bindingPos parts inside d part
        apply ihBindings _ _ member _ _ inside d part
        exact ((placed.item member).item inside).item part

/-- Reading a source fails inside the text. -/
theorem ofRootDatum_failsInside {d : Datum} (placed : d.Placed B file)
    : FailsInside B file (ofRootDatum d) := by
  rw [ofRootDatum.eq_def]
  split
  · next pos head rest =>
      split
      · split
        · exact failsInside_error placed.exists_span
        · refine FailsInside.bind ?_ fun _ => failsInside_ok _
          exact ofData_failsInside fun d member =>
            ofDatum_failsInside (placed.items d (List.mem_cons_of_mem head member))
      · exact ofDatum_failsInside placed
  · exact ofDatum_failsInside placed

/-- Parsing a text fails inside it. -/
theorem parse_failsInside {text : String} (fits : text.utf8ByteSize ≤ Span.maxOffset)
    : FailsInside (Text.Boundary text) file (parse file text) := by
  intro error failed
  cases read : Datum.read file text with
  | error error' =>
      rw [parse, read] at failed
      cases failed
      exact Datum.placed_of_read_error fits read
  | ok d =>
      rw [parse, read] at failed
      exact ofRootDatum_failsInside (Datum.placed_of_read fits read) error failed

-----------------------------------------------------------------------------------------
-- Parts
-----------------------------------------------------------------------------------------

/-- The second expression is the first one or a part in it. -/
abbrev Contains : Expr → Expr → Prop := Relation.ReflTransGen fun e part => part ∈ e.parts

/-- Every part of a source is written as a part of its datum, by induction on the way to the part.
-/
theorem RootWritten.exists_datum_of_contains {d : Datum} {e part : Expr} (written : RootWritten d e)
    (contains : e.Contains part)
    : ∃ d', d.Within d' ∧ RootWritten d' part := by
  induction contains with
  | refl => exact ⟨d, .refl, written⟩
  | tail _ member ih =>
      obtain ⟨d', inside, written'⟩ := ih
      obtain ⟨d'', further, written''⟩ := written'.exists_datum member
      exact ⟨d'', inside.trans further, written''⟩

/-- A part of a source stands inside it. -/
theorem RootWritten.includes {d : Datum} {e part : Expr} (written : RootWritten d e)
    (placed : d.Placed B file) (contains : e.Contains part)
    : ∃ outer inner,
        e.pos = some outer
        ∧ part.pos = some inner
        ∧ inner.Cuts B file
        ∧ outer.Includes inner := by
  obtain ⟨d', inside, written'⟩ := written.exists_datum_of_contains contains
  obtain ⟨outer, inner, known, knownPart, includes⟩ := placed.includes inside
  obtain ⟨span, knownSpan, cuts⟩ := (placed.within inside).exists_span
  cases knownSpan.symm.trans knownPart
  exact ⟨outer, _, written.pos_eq.trans known, written'.pos_eq.trans knownPart, cuts, includes⟩

end Expr

end TypedScheme
