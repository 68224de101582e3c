import TypedScheme.Proofs.Expr.Grammar
import TypedScheme.Proofs.Number.RoundTrip
import TypedScheme.Proofs.Printer.Documents

/-! What the printer makes of an expression writes the datum from which it was read.
-/

namespace TypedScheme

open Doc

/-- All symbols of the datum can be read back. -/
def Datum.SymbolsRead (d : Datum) : Prop := ∀ name ∈ d.symbols, Text.IsSymbol name

/-- The symbols of an item are symbols of its list. -/
theorem Datum.SymbolsRead.item {pos : Position} {items : List Datum}
    (symbols : (Datum.list pos items).SymbolsRead) {item : Datum} (member : item ∈ items)
    : item.SymbolsRead :=
  fun name inside => symbols name (mem_symbols_list.mpr ⟨item, member, inside⟩)

/-- All symbols and numbers of the datum can be read back. -/
structure Datum.Printable (d : Datum) : Prop where
  symbols : d.SymbolsRead
  finite : d.Finite

/-- The symbols and numbers of an item are those of its list. -/
theorem Datum.Printable.item {pos : Position} {items : List Datum}
    (printable : (Datum.list pos items).Printable) {item : Datum} (member : item ∈ items)
    : item.Printable :=
  ⟨printable.symbols.item member, printable.finite.item member⟩

/-- A printable symbol can be read back. -/
theorem Datum.Printable.isSymbol {pos : Position} {name : String}
    (printable : (Datum.symbol pos name).Printable)
    : Text.IsSymbol name :=
  printable.symbols name (by simp)

/-- The word with which a form begins. -/
theorem Datum.Printable.head_writes {pos headPos : Position} {word : String} {items : List Datum}
    (printable : (Datum.list pos (.symbol headPos word :: items)).Printable)
    : Writes (.text word) [.symbol headPos word] :=
  writes_symbol (printable.item List.mem_cons_self).isSymbol headPos

namespace Doc

/-- A finite number is written by its text: it is a word and is read as the number. -/
theorem writes_number {n : Number} (finite : n.isFinite = true) (pos : Position)
    : Writes (.text n.text) [.number pos n] := by
  obtain ⟨k, numeral, value⟩ := Number.value_toChars finite
  have isWord := Numeral.isWord_of_ofChars? numeral
  have spells : Spells (.text n.text) [.number n] := by
    refine spells_text fun rest bounded => ?_
    rw [Number.text, String.toList_ofList, Lexer.scan_gap_word isWord bounded,
      Token.ofWord_number finite]
    rfl
  exact writes_of_spells spells (.number pos n)

end Doc

-----------------------------------------------------------------------------------------
-- Data
-----------------------------------------------------------------------------------------

namespace Datum

/-- Data get their documents one by one, by induction on the data. -/
theorem docs_eq_map (ds : List Datum) : docs ds = ds.map doc := by
  induction ds with
  | nil => simp [docs]
  | cons d ds ih => simp [docs, ih]

/-- The document of a printable datum writes it, by induction on its parts. -/
theorem doc_writes {d : Datum} (printable : d.Printable) : d.doc.Writes [d] := by
  induction d using partsInduction with
  | number pos value =>
      rw [doc]
      exact writes_number (printable.finite value (by simp)) pos
  | boolean pos value =>
      rw [doc]
      exact writes_boolean value pos
  | string pos value =>
      rw [doc]
      exact writes_string value pos
  | symbol pos name =>
      rw [doc]
      exact writes_symbol printable.isSymbol pos
  | list pos items ih =>
      have each : WriteEach (items.map doc) items :=
        writeEach_map fun item member => ih item member (printable.item member)
      rw [doc, docs_eq_map]
      exact each.form pos

end Datum

-----------------------------------------------------------------------------------------
-- Types and declarations
-----------------------------------------------------------------------------------------

namespace TypeExpr

/-- The document of a type writes the datum. -/
def DocWrites (d : Datum) : Prop := ∀ t, Written d t → d.Printable → t.ty.doc.Writes [d]

/-- The parameters of a procedure type and its result are written one after the other, by induction
on pairs of items. The stars belong to the parameters behind them.
-/
theorem signature_writes {items : List Datum} (each : ∀ d ∈ items, DocWrites d)
    (printable : ∀ d ∈ items, d.Printable) {params : List TypeExpr} {result : TypeExpr}
    (written : SignatureWritten items params result)
    : ∃ param others p middle arrowPos d,
        params = param :: others
        ∧ items = p :: (middle ++ [.symbol arrowPos "->", d])
        ∧ Writes param.ty.doc [p]
        ∧ Writes (Ty.restDoc (tys others)) middle
        ∧ Begins (Ty.restDoc (tys others))
        ∧ Writes result.ty.doc [d] := by
  induction items using List.twoStepInduction generalizing params with
  | nil | singleton => cases written
  | cons_cons p separator rest ih _ =>
      cases written with
      | @last arrowPos _ d param _ inParam inResult =>
          have first := each p (by simp) param inParam (printable p (by simp))
          have last := each d (by simp) result inResult (printable d (by simp))
          refine ⟨param, [], p, [], arrowPos, d, rfl, rfl, first, ?_, ?_, last⟩
          · rw [tys, Ty.restDoc]
            exact writes_nothing
          · rw [tys, Ty.restDoc]
            exact begins_nothing
      | @more starPos _ _ param _ _ inParam inOthers =>
          have first := each p (by simp) param inParam (printable p (by simp))
          obtain ⟨next, others, p', middle, arrowPos, d, rfl, rfl, second, between, begins, last⟩ :=
            ih (fun d member => each d (by simp [member]))
              (fun d member => printable d (by simp [member])) inOthers
          refine ⟨param, next :: others, p, .symbol starPos "*" :: p' :: middle, arrowPos, d, rfl,
            by simp, first, ?_, ?_, last⟩
          · rw [tys, Ty.restDoc]
            exact (second.cat_begins between begins).marked (ends_text fun _ => rfl) starPos
          · rw [tys, Ty.restDoc]
            exact (breaks_text (by decide)).cat.begins

/-- The document of a type writes what the type was written as, by induction over the datum. -/
theorem doc_writes {d : Datum} {t : TypeExpr} (written : Written d t) (printable : d.Printable)
    : t.ty.doc.Writes [d] := by
  induction d using Datum.partsInduction generalizing t with
  | number | boolean | string => cases written
  | symbol pos name =>
      cases written with
      | atomic _ known =>
          rw [ty, Ty.doc, Atomic.name_of_ofName? known]
          exact writes_symbol printable.isSymbol pos
      | named _ unknown noMarker =>
          rw [ty, Ty.doc]
          exact writes_symbol printable.isSymbol pos
  | list pos items ih =>
      have each d (member : d ∈ items) : DocWrites d := fun t => ih d member
      have printableItem d (member : d ∈ items) : d.Printable := printable.item member
      cases written with
      | @thunk _ emptyPos arrowPos d result inResult =>
          have last := each d (by simp) result inResult (printableItem d (by simp))
          have ends : Ends (.text "Empty -> ") [.symbol "Empty", .symbol "->"] :=
            ends_text fun _ => rfl
          have markers : Datum.AllSpeltBy [.symbol emptyPos "Empty", .symbol arrowPos "->"]
              [.symbol "Empty", .symbol "->"] :=
            .cons (.symbol emptyPos "Empty") (Datum.allSpeltBy_singleton (.symbol arrowPos "->"))
          rw [ty, tys, Ty.doc]
          exact (ends.cat_writes markers last).parens pos
      | @procedure _ _ params result inside =>
          obtain ⟨param, others, p, middle, arrowPos, d, rfl, rfl, first, between, begins, last⟩ :=
            signature_writes each printableItem inside
          have ends : Ends (.text " -> ") [.symbol "->"] := ends_text fun _ => rfl
          have arrow := last.marked ends arrowPos
          have arrowBegins : Begins (.cat (.text " -> ") result.ty.doc) :=
            (breaks_text (by decide)).cat.begins
          rw [ty, tys, Ty.doc]
          exact (first.cat_begins (between.cat_begins arrow arrowBegins)
            (begins.cat arrowBegins)).parens pos

end TypeExpr

/-- The document of a declaration writes what the declaration was written as. -/
theorem Declaration.doc_writes {d : Datum} {declaration : Declaration}
    (written : Written d declaration) (printable : d.Printable)
    : declaration.doc.Writes [d] := by
  cases written with
  | plain pos free =>
      simp only [doc, TypeExpr.missing, TypeExpr.isWildcard, if_true]
      exact writes_symbol printable.isSymbol pos
  | @typed pos idPos colonPos name d type free inType =>
      have typed := TypeExpr.notWildcard_of_written inType
      have first := writes_symbol (printable.item (List.mem_cons_self)).isSymbol idPos
      have last := TypeExpr.doc_writes inType (printable.item (by simp))
      have ends : Ends (.text " : ") [.symbol ":"] := ends_text fun _ => rfl
      have colon := last.marked ends colonPos
      simp only [doc, typed, Bool.false_eq_true, if_false]
      exact (first.cat_begins colon (breaks_text (by decide)).cat.begins).parens pos

/-- The documents of declarations write what these were written as, by induction on the pairs. -/
theorem Declaration.docs_writeEach {ds : List Datum} {declarations : List Declaration}
    (written : List.Forall₂ Written ds declarations) (printable : ∀ d ∈ ds, d.Printable)
    : WriteEach (declarations.map doc) ds := by
  induction written with
  | nil => exact .nil
  | @cons d declaration ds declarations first others ih =>
      have writes := doc_writes first (printable d (by simp))
      exact .cons writes (ih fun d member => printable d (by simp [member]))

-----------------------------------------------------------------------------------------
-- Expressions
-----------------------------------------------------------------------------------------

namespace Expr

/-- The document of an expression writes the datum. -/
def DocWrites (d : Datum) : Prop := ∀ e, Written d e → d.Printable → e.doc.Writes [d]

/-- The documents of expressions write what these were written as, if that of each does, by
induction on the data.
-/
theorem docs_writeEach {ds : List Datum} (each : ∀ d ∈ ds, DocWrites d)
    (printable : ∀ d ∈ ds, d.Printable) {es : List Expr} (written : AllWritten ds es)
    : WriteEach (docs es) ds := by
  induction ds generalizing es with
  | nil =>
      cases written
      rw [docs]
      exact .nil
  | cons d ds ih =>
      cases written with
      | cons first others =>
          have writes := each d (by simp) _ first (printable d (by simp))
          rw [docs]
          exact .cons writes (ih (fun d member => each d (by simp [member]))
            (fun d member => printable d (by simp [member])) others)

/-- The documents of bindings write what these were written as, by induction on the data. -/
theorem bindingDocs_writeEach {ds : List Datum}
    (each : ∀ pos items, .list pos items ∈ ds → ∀ d ∈ items, DocWrites d)
    (printable : ∀ d ∈ ds, d.Printable) {bindings : List (Declaration × Expr)}
    (written : BindingsWritten ds bindings)
    : WriteEach (bindingDocs bindings) ds := by
  induction ds generalizing bindings with
  | nil =>
      cases written
      rw [bindingDocs]
      exact .nil
  | cons d ds ih =>
      cases written with
      | @cons pos d₁ d₂ _ declaration value others inDeclaration inValue inOthers =>
          have whole := printable (.list pos [d₁, d₂]) (by simp)
          have first := Declaration.doc_writes inDeclaration (whole.item (by simp))
          have second :=
            each pos [d₁, d₂] (by simp) d₂ (by simp) value inValue (whole.item (by simp))
          have pair : WriteEach [declaration.doc, value.doc] [d₁, d₂] :=
            .cons first (.cons second .nil)
          rw [bindingDocs]
          exact .cons (pair.form pos) (ih (fun pos items member => each pos items (by simp [member]))
            (fun d member => printable d (by simp [member])) inOthers)

/-- The document of an expression writes what it was written as, by induction over the datum. -/
theorem doc_writes {d : Datum} {e : Expr} (written : Written d e) (printable : d.Printable)
    : e.doc.Writes [d] := by
  induction d using Datum.formsInduction generalizing e with
  | number pos value =>
      cases written
      rw [doc]
      exact writes_number (printable.finite value (by simp)) pos
  | boolean pos value =>
      cases written
      rw [doc]
      exact writes_boolean value pos
  | string pos value =>
      cases written
      rw [doc]
      exact writes_string value pos
  | symbol pos name =>
      cases written with
      | primitive _ known =>
          rw [doc, Primitive.symbol_of_ofSymbol? known]
          exact writes_symbol printable.isSymbol pos
      | var _ unknown =>
          rw [doc]
          exact writes_symbol printable.isSymbol pos
  | list pos items ih ihBindings =>
      have each d (member : d ∈ items) : DocWrites d := fun e => ih d member
      have inBindings bindingsPos bindings (member : .list bindingsPos bindings ∈ items) bindingPos
          parts (inside : .list bindingPos parts ∈ bindings) d (part : d ∈ parts)
          : DocWrites d :=
        fun e => ihBindings bindingsPos bindings member bindingPos parts inside d part
      cases written with
      | conditional _ headPos inTest inYes inNo =>
          have test := each _ (by simp) _ inTest (printable.item (by simp))
          have yes := each _ (by simp) _ inYes (printable.item (by simp))
          have no := each _ (by simp) _ inNo (printable.item (by simp))
          rw [doc]
          apply WriteEach.form
          exact .cons printable.head_writes (.cons test (.cons yes (.cons no .nil)))
      | @lambda _ headPos paramsPos ds _ _ _ inParams inBody nonempty noColon =>
          have inside : (Datum.list paramsPos ds).Printable := printable.item (by simp)
          have params := Declaration.docs_writeEach inParams fun d member => inside.item member
          have body := docs_writeEach (fun d member => each d (by simp [member]))
            (fun d member => printable.item (by simp [member])) inBody
          rw [doc]
          apply WriteEach.form
          exact .cons printable.head_writes (.cons (params.words.parens paramsPos) body)
      | @typedLambda _ headPos paramsPos colonPos d ds _ _ result _ inParams inResult inBody
          nonempty =>
          have inside : (Datum.list paramsPos ds).Printable := printable.item (by simp)
          have params := Declaration.docs_writeEach inParams fun d member => inside.item member
          have ends : Ends (.text ": ") [.symbol ":"] := ends_text fun _ => rfl
          have type := (TypeExpr.doc_writes inResult (printable.item (by simp))).marked ends colonPos
          have body := docs_writeEach (fun d member => each d (by simp [member]))
            (fun d member => printable.item (by simp [member])) inBody
          rw [doc, resultDocs, TypeExpr.notWildcard_of_written inResult]
          apply WriteEach.form
          exact .cons printable.head_writes (.cons (params.words.parens paramsPos) (.cons type body))
      | application _ inOperator inOperands noKeyword =>
          have operator := each _ (by simp) _ inOperator (printable.item (by simp))
          have operands := docs_writeEach (fun d member => each d (by simp [member]))
            (fun d member => printable.item (by simp [member])) inOperands
          rw [doc]
          exact WriteEach.form (.cons operator operands) pos
      | @letIn _ headPos bindingsPos ds _ _ _ writtenBindings inBody nonempty
      | @letrec _ headPos bindingsPos ds _ _ _ writtenBindings inBody nonempty =>
          have inside : (Datum.list bindingsPos ds).Printable := printable.item (by simp)
          have bindings := bindingDocs_writeEach (inBindings bindingsPos ds (by simp))
            (fun d member => inside.item member) writtenBindings
          have body := docs_writeEach (fun d member => each d (by simp [member]))
            (fun d member => printable.item (by simp [member])) inBody
          rw [doc]
          apply WriteEach.form
          exact .cons printable.head_writes (.cons (bindings.form bindingsPos) body)
      | define _ headPos inDeclaration inValue =>
          have declaration := Declaration.doc_writes inDeclaration (printable.item (by simp))
          have value := each _ (by simp) _ inValue (printable.item (by simp))
          rw [doc]
          apply WriteEach.form
          exact .cons printable.head_writes (.cons declaration (.cons value .nil))
      | quote _ headPos d =>
          rw [doc]
          exact (Datum.doc_writes (printable.item (by simp))).quotation pos headPos
      | assign _ headPos idPos name inValue =>
          have id : (Datum.symbol idPos name).Printable := printable.item (by simp)
          have value := each _ (by simp) _ inValue (printable.item (by simp))
          rw [doc]
          apply WriteEach.form
          exact .cons printable.head_writes
            (.cons (writes_symbol id.isSymbol idPos) (.cons value .nil))

end Expr

end TypedScheme
