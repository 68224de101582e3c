import Mathlib.Data.List.Forall2
import TypedScheme.Expr.Parser
import TypedScheme.Proofs.Ty.Grammar

/-! The grammar of expressions.
Main statement: a datum is read as an expression exactly if it is a written form of the expression.
-/

namespace TypedScheme

-----------------------------------------------------------------------------------------
-- Declarations
-----------------------------------------------------------------------------------------

namespace Declaration

/-- The datum is a written form of the declaration. -/
inductive Written : Datum → Declaration → Prop
  | plain (pos : Position) {name : String} (free : TypeExpr.isReserved name = false)
    : Written (.symbol pos name) ⟨⟨name, pos⟩, .missing⟩
  | typed (pos idPos colonPos : Position) {name : String} {d : Datum} {type : TypeExpr}
    (free : TypeExpr.isReserved name = false) (inType : TypeExpr.Written d type)
    : Written (.list pos [.symbol idPos name, .symbol colonPos ":", d]) ⟨⟨name, idPos⟩, type⟩

/-- An identifier is read exactly from a symbol that is not reserved. -/
theorem idOfDatum_eq_ok_iff {form : String} {d : Datum} {id : Identifier}
    : idOfDatum form d = .ok id
      ↔ ∃ pos name, d = .symbol pos name ∧ TypeExpr.isReserved name = false ∧ id = ⟨name, pos⟩ := by
  cases d with
  | number | boolean | string | list => simp [idOfDatum]
  | symbol pos name =>
      cases reserved : TypeExpr.isReserved name with
      | true => simp [idOfDatum, reserved]
      | false =>
          simp only [idOfDatum, reserved, Bool.false_eq_true, if_false, Except.ok.injEq,
            Datum.symbol.injEq]
          grind

/-- A declaration is read exactly from a datum that it is written as. -/
theorem ofDatum_eq_ok_iff {form : String} {d : Datum} {declaration : Declaration}
    : ofDatum form d = .ok declaration ↔ Written d declaration := by
  constructor
  · intro read
    fun_cases ofDatum form d with
    | case1 pos name =>
        obtain ⟨id, readId, same⟩ := bind_eq_ok_iff.mp read
        obtain ⟨_, _, symbol, free, rfl⟩ := idOfDatum_eq_ok_iff.mp readId
        cases symbol
        cases same
        exact .plain pos free
    | case2 pos idDatum colon type isColon =>
        rw [ofDatum, if_pos isColon] at read
        obtain ⟨id, readId, readRest⟩ := bind_eq_ok_iff.mp read
        obtain ⟨t, readType, same⟩ := bind_eq_ok_iff.mp readRest
        obtain ⟨idPos, name, rfl, free, rfl⟩ := idOfDatum_eq_ok_iff.mp readId
        obtain ⟨colonPos, rfl⟩ := Datum.isSymbol_iff.mp isColon
        cases same
        exact .typed pos idPos colonPos free (TypeExpr.written_of_ofDatum readType)
    | case3 pos idDatum colon type noColon =>
        rw [ofDatum, if_neg noColon] at read
        cases read
    | case4 _ noSymbol noTriple =>
        rw [ofDatum] at read
        · cases read
        · exact noSymbol
        · exact noTriple
  · intro written
    cases written with
    | plain pos free => simp [ofDatum, idOfDatum, free]
    | typed pos idPos colonPos free inType =>
        simp [ofDatum, idOfDatum, free, TypeExpr.ofDatum_of_written inType, ok_bind]

/-- Declarations are read exactly from data that they are written as, one by one, by induction on
the data.
-/
theorem ofData_eq_ok_iff {form : String} {ds : List Datum} {declarations : List Declaration}
    : ofData form ds = .ok declarations ↔ List.Forall₂ Written ds declarations := by
  induction ds generalizing declarations with
  | nil => simp [ofData, eq_comm]
  | cons d ds ih =>
      simp only [ofData, bind_eq_ok_iff, ofDatum_eq_ok_iff, ih, List.forall₂_cons_left_iff]
      constructor
      · intro read
        obtain ⟨declaration, written, others, writtenOthers, same⟩ := read
        cases same
        exact ⟨declaration, others, written, writtenOthers, rfl⟩
      · intro written
        obtain ⟨declaration, others, written, writtenOthers, rfl⟩ := written
        exact ⟨declaration, written, others, writtenOthers, rfl⟩

/-- Parameters are read exactly from a list of data that they are written as. -/
theorem paramsOfDatum_eq_ok_iff {d : Datum} {params : List Declaration}
    : paramsOfDatum d = .ok params ↔ ∃ pos ds, d = .list pos ds ∧ List.Forall₂ Written ds params := by
  cases d with
  | number | boolean | string | symbol => simp [paramsOfDatum]
  | list pos ds =>
      rw [paramsOfDatum, ofData_eq_ok_iff]
      constructor
      · intro written
        exact ⟨pos, ds, rfl, written⟩
      · intro written
        obtain ⟨_, _, same, written⟩ := written
        cases same
        exact written

end Declaration

-----------------------------------------------------------------------------------------
-- Expressions
-----------------------------------------------------------------------------------------

/-- A primitive is found by its own symbol. -/
theorem Primitive.symbol_of_ofSymbol? {name : String} {op : Primitive}
    (known : Primitive.ofSymbol? name = some op)
    : op.symbol = name := by
  simpa using List.find?_some known

namespace Expr

/-- A list that begins with such a symbol is no application. -/
def keywords : List String := ["if", "lambda", "let", "letrec", "define", "quote", "set!", "L5"]

mutual
/-- The datum is a written form of the expression. -/
inductive Written : Datum → Expr → Prop
  | number (pos : Position) (value : Number) : Written (.number pos value) (.number pos value)
  | boolean (pos : Position) (value : Bool) : Written (.boolean pos value) (.boolean pos value)
  | string (pos : Position) (value : String) : Written (.string pos value) (.string pos value)
  | primitive (pos : Position) {name : String} {op : Primitive}
    (known : Primitive.ofSymbol? name = some op)
    : Written (.symbol pos name) (.primitive pos op)
  | var (pos : Position) {name : String} (unknown : Primitive.ofSymbol? name = none)
    : Written (.symbol pos name) (.var pos ⟨name, pos⟩)
  | conditional (pos headPos : Position) {d₁ d₂ d₃ : Datum} {test yes no : Expr}
    (inTest : Written d₁ test) (inYes : Written d₂ yes) (inNo : Written d₃ no)
    : Written (.list pos [.symbol headPos "if", d₁, d₂, d₃]) (.conditional pos test yes no)
  | lambda (pos headPos paramsPos : Position) {ds rest : List Datum} {params : List Declaration}
    {body : List Expr} (inParams : List.Forall₂ Declaration.Written ds params)
    (inBody : AllWritten rest body) (nonempty : rest ≠ [])
    (noColon : ∀ d ∈ rest.head?, d.isSymbol ":" = false)
    : Written (.list pos (.symbol headPos "lambda" :: .list paramsPos ds :: rest))
        (.lambda pos params .missing body)
  | typedLambda (pos headPos paramsPos colonPos : Position) {d : Datum} {ds rest : List Datum}
    {params : List Declaration} {result : TypeExpr} {body : List Expr}
    (inParams : List.Forall₂ Declaration.Written ds params) (inResult : TypeExpr.Written d result)
    (inBody : AllWritten rest body) (nonempty : rest ≠ [])
    : Written
        (.list pos (.symbol headPos "lambda" :: .list paramsPos ds :: .symbol colonPos ":" :: d
          :: rest))
        (.lambda pos params result body)
  | application (pos : Position) {d : Datum} {ds : List Datum} {operator : Expr}
    {operands : List Expr} (inOperator : Written d operator) (inOperands : AllWritten ds operands)
    (noKeyword : ∀ name ∈ d.symbol?, name ∉ keywords)
    : Written (.list pos (d :: ds)) (.application pos operator operands)
  | letIn (pos headPos bindingsPos : Position) {ds rest : List Datum}
    {bindings : List (Declaration × Expr)} {body : List Expr}
    (inBindings : BindingsWritten ds bindings) (inBody : AllWritten rest body)
    (nonempty : rest ≠ [])
    : Written (.list pos (.symbol headPos "let" :: .list bindingsPos ds :: rest))
        (.letIn pos bindings body)
  | letrec (pos headPos bindingsPos : Position) {ds rest : List Datum}
    {bindings : List (Declaration × Expr)} {body : List Expr}
    (inBindings : BindingsWritten ds bindings) (inBody : AllWritten rest body)
    (nonempty : rest ≠ [])
    : Written (.list pos (.symbol headPos "letrec" :: .list bindingsPos ds :: rest))
        (.letrec pos bindings body)
  | define (pos headPos : Position) {d₁ d₂ : Datum} {declaration : Declaration} {value : Expr}
    (inDeclaration : Declaration.Written d₁ declaration) (inValue : Written d₂ value)
    : Written (.list pos [.symbol headPos "define", d₁, d₂]) (.define pos declaration value)
  | quote (pos headPos : Position) (d : Datum)
    : Written (.list pos [.symbol headPos "quote", d]) (.quote pos d)
  | assign (pos headPos idPos : Position) (name : String) {d : Datum} {value : Expr}
    (inValue : Written d value)
    : Written (.list pos [.symbol headPos "set!", .symbol idPos name, d])
        (.assign pos ⟨name, idPos⟩ value)

inductive AllWritten : List Datum → List Expr → Prop
  | nil : AllWritten [] []
  | cons {d : Datum} {ds : List Datum} {e : Expr} {es : List Expr} (first : Written d e)
    (others : AllWritten ds es)
    : AllWritten (d :: ds) (e :: es)

inductive BindingsWritten : List Datum → List (Declaration × Expr) → Prop
  | nil : BindingsWritten [] []
  | cons (pos : Position) {d₁ d₂ : Datum} {ds : List Datum} {declaration : Declaration}
    {value : Expr} {bindings : List (Declaration × Expr)}
    (inDeclaration : Declaration.Written d₁ declaration) (inValue : Written d₂ value)
    (others : BindingsWritten ds bindings)
    : BindingsWritten (.list pos [d₁, d₂] :: ds) ((declaration, value) :: bindings)
end

/-- The datum is a written form of a whole source. -/
inductive RootWritten : Datum → Expr → Prop
  | expr {d : Datum} {e : Expr} (written : Written d e) : RootWritten d e
  | program (pos headPos : Position) {ds : List Datum} {exprs : List Expr}
    (inside : AllWritten ds exprs) (nonempty : ds ≠ [])
    : RootWritten (.list pos (.symbol headPos "L5" :: ds)) (.program pos exprs)

-----------------------------------------------------------------------------------------
-- What is read is written
-----------------------------------------------------------------------------------------

/-- What the datum is read as is written by it. -/
def ReadAsWritten (d : Datum) : Prop := ∀ e, ofDatum d = .ok e → Written d e

/-- The expressions read from several data are written as these, if those read from each are, by
induction on the data.
-/
theorem allWritten_of_ofData {ds : List Datum} (each : ∀ d ∈ ds, ReadAsWritten d)
    {es : List Expr} (read : ofData ds = .ok es)
    : AllWritten ds es := by
  induction ds generalizing es with
  | nil =>
      cases read
      exact .nil
  | cons d ds ih =>
      obtain ⟨e, readFirst, readRest⟩ := bind_eq_ok_iff.mp read
      obtain ⟨others, readOthers, same⟩ := bind_eq_ok_iff.mp readRest
      cases same
      have first := each d (by simp) e readFirst
      exact .cons first (ih (fun d member => each d (by simp [member])) readOthers)

/-- The bindings read from data are written as these, by induction on the data. -/
theorem bindingsWritten_of_bindingList {form : String} {ds : List Datum}
    (each : ∀ pos items, .list pos items ∈ ds → ∀ d ∈ items, ReadAsWritten d)
    {bindings : List (Declaration × Expr)} (read : bindingList form ds = .ok bindings)
    : BindingsWritten ds bindings := by
  induction ds generalizing bindings with
  | nil =>
      cases read
      exact .nil
  | cons d ds ih =>
      rw [bindingList.eq_def] at read
      split at read
      · next empty => cases empty
      · next pos d₁ d₂ rest same =>
          cases same
          obtain ⟨declaration, readDeclaration, readRest⟩ := bind_eq_ok_iff.mp read
          obtain ⟨value, readValue, readLast⟩ := bind_eq_ok_iff.mp readRest
          obtain ⟨others, readOthers, same⟩ := bind_eq_ok_iff.mp readLast
          cases same
          have inDeclaration := Declaration.ofDatum_eq_ok_iff.mp readDeclaration
          have inValue := each pos [d₁, d₂] (by simp) d₂ (by simp) value readValue
          refine .cons pos inDeclaration inValue (ih ?_ readOthers)
          exact fun pos items member => each pos items (by simp [member])
      · cases read

/-- A body is required not to be empty. -/
theorem requireBody_eq_ok_iff {pos : Position} {form : String} {body : List Datum}
    : requireBody pos form body = .ok () ↔ body ≠ [] := by
  cases body with
  | nil => simp [requireBody]
  | cons d ds => simp [requireBody]

/-- What a form with bindings was read from is a list of written bindings and a written body that is
not empty.
-/
theorem written_of_bindingForm {pos : Position} {form : String} {ds : List Datum}
    (each : ∀ d ∈ ds, ReadAsWritten d)
    (inBindings
      : ∀ bindingsPos items, .list bindingsPos items ∈ ds
        → ∀ bindingPos parts, .list bindingPos parts ∈ items → ∀ d ∈ parts, ReadAsWritten d)
    {bindings : List (Declaration × Expr)} {body : List Expr}
    (read : bindingForm pos form ds = .ok (bindings, body))
    : ∃ bindingsPos items rest,
        ds = .list bindingsPos items :: rest
        ∧ BindingsWritten items bindings
        ∧ AllWritten rest body
        ∧ rest ≠ [] := by
  rw [bindingForm.eq_def] at read
  split at read
  · cases read
  · next bindingsPos items rest =>
      obtain ⟨readBindings, readFirst, readRest⟩ := bind_eq_ok_iff.mp read
      obtain ⟨_, hasBody, readLast⟩ := bind_eq_ok_iff.mp readRest
      obtain ⟨readBody, readOthers, same⟩ := bind_eq_ok_iff.mp readLast
      cases same
      refine ⟨bindingsPos, items, rest, rfl, ?_, ?_, requireBody_eq_ok_iff.mp hasBody⟩
      · exact bindingsWritten_of_bindingList (inBindings bindingsPos items (by simp)) readFirst
      · exact allWritten_of_ofData (fun d member => each d (by simp [member])) readOthers
  · cases read

/-- What follows the parameters of a lambda expression: a result type or none, and the body. -/
theorem written_of_afterResult {ds : List Datum} (each : ∀ d ∈ ds, ReadAsWritten d)
    {result : TypeExpr} {body : List Expr} (readResult : resultOfData ds = .ok result)
    (hasBody : afterResult ds ≠ []) (readBody : ofDataAfterResult ds = .ok body)
    : (∃ colonPos d rest,
        ds = .symbol colonPos ":" :: d :: rest
        ∧ TypeExpr.Written d result
        ∧ AllWritten rest body
        ∧ rest ≠ [])
      ∨ result = .missing
        ∧ (∀ d ∈ ds.head?, d.isSymbol ":" = false)
        ∧ AllWritten ds body
        ∧ ds ≠ [] := by
  cases ds with
  | nil => simp [afterResult] at hasBody
  | cons first rest =>
      cases isColon : first.isSymbol ":" with
      | true =>
          simp only [resultOfData.eq_def, isColon, if_true] at readResult
          rw [afterResult, if_pos isColon] at hasBody
          rw [ofDataAfterResult, if_pos isColon] at readBody
          obtain ⟨colonPos, rfl⟩ := Datum.isSymbol_iff.mp isColon
          cases rest with
          | nil => cases readResult
          | cons d rest =>
              refine .inl ⟨colonPos, d, rest, rfl, TypeExpr.written_of_ofDatum readResult, ?_, ?_⟩
              · exact allWritten_of_ofData (fun d member => each d (by simp [member])) readBody
              · simpa using hasBody
      | false =>
          have noColon : ¬ first.isSymbol ":" = true := by simp [isColon]
          simp only [resultOfData.eq_def, isColon, Bool.false_eq_true, if_false] at readResult
          rw [ofDataAfterResult, if_neg noColon] at readBody
          cases readResult
          exact .inr ⟨rfl, by simpa using isColon, allWritten_of_ofData each readBody, by simp⟩

/-- A list is a written form if its parts are, and the values of its bindings. -/
theorem written_of_ofDatum_list {pos : Position} {items : List Datum} {e : Expr}
    (each : ∀ d ∈ items, ReadAsWritten d)
    (inBindings
      : ∀ bindingsPos bindings, .list bindingsPos bindings ∈ items
        → ∀ bindingPos parts, .list bindingPos parts ∈ bindings → ∀ d ∈ parts, ReadAsWritten d)
    (read : ofDatum (.list pos items) = .ok e)
    : Written (.list pos items) e := by
  cases items with
  | nil => cases read
  | cons head rest =>
      have eachRest d (member : d ∈ rest) := each d (List.mem_cons_of_mem head member)
      have inBindingsRest bindingsPos bindings (member : .list bindingsPos bindings ∈ rest) :=
        inBindings bindingsPos bindings (List.mem_cons_of_mem head member)
      rw [ofDatum.eq_def] at read
      dsimp only at read
      split at read
      · next isIf =>
          obtain ⟨headPos, rfl⟩ := Datum.symbol?_eq_some_iff.mp isIf
          split at read
          · next d₁ d₂ d₃ =>
              obtain ⟨test, readTest, readRest⟩ := bind_eq_ok_iff.mp read
              obtain ⟨yes, readYes, readLast⟩ := bind_eq_ok_iff.mp readRest
              obtain ⟨no, readNo, same⟩ := bind_eq_ok_iff.mp readLast
              cases same
              exact .conditional pos headPos (eachRest d₁ (by simp) test readTest)
                (eachRest d₂ (by simp) yes readYes) (eachRest d₃ (by simp) no readNo)
          · cases read
      · next isLambda =>
          obtain ⟨headPos, rfl⟩ := Datum.symbol?_eq_some_iff.mp isLambda
          split at read
          · cases read
          · next paramsDatum more =>
              obtain ⟨params, readParams, readRest⟩ := bind_eq_ok_iff.mp read
              obtain ⟨result, readResult, readMore⟩ := bind_eq_ok_iff.mp readRest
              obtain ⟨_, hasBody, readLast⟩ := bind_eq_ok_iff.mp readMore
              obtain ⟨body, readBody, same⟩ := bind_eq_ok_iff.mp readLast
              cases same
              obtain ⟨paramsPos, ds, rfl, inParams⟩ :=
                Declaration.paramsOfDatum_eq_ok_iff.mp readParams
              have nonempty := requireBody_eq_ok_iff.mp hasBody
              have eachMore d (member : d ∈ more) := eachRest d (List.mem_cons_of_mem _ member)
              rcases written_of_afterResult eachMore readResult nonempty readBody
                with ⟨colonPos, d, rest, rfl, inResult, inBody, some⟩ | ⟨rfl, noColon, inBody, some⟩
              · exact .typedLambda pos headPos paramsPos colonPos inParams inResult inBody some
              · exact .lambda pos headPos paramsPos inParams inBody some noColon
      · next isLet =>
          obtain ⟨headPos, rfl⟩ := Datum.symbol?_eq_some_iff.mp isLet
          obtain ⟨⟨bindings, body⟩, readParts, same⟩ := bind_eq_ok_iff.mp read
          cases same
          obtain ⟨bindingsPos, ds, more, rfl, written, inBody, some⟩ :=
            written_of_bindingForm eachRest inBindingsRest readParts
          exact .letIn pos headPos bindingsPos written inBody some
      · next isLetrec =>
          obtain ⟨headPos, rfl⟩ := Datum.symbol?_eq_some_iff.mp isLetrec
          obtain ⟨⟨bindings, body⟩, readParts, same⟩ := bind_eq_ok_iff.mp read
          cases same
          obtain ⟨bindingsPos, ds, more, rfl, written, inBody, some⟩ :=
            written_of_bindingForm eachRest inBindingsRest readParts
          exact .letrec pos headPos bindingsPos written inBody some
      · next isDefine =>
          obtain ⟨headPos, rfl⟩ := Datum.symbol?_eq_some_iff.mp isDefine
          split at read
          · next d₁ d₂ =>
              obtain ⟨declaration, readDeclaration, readRest⟩ := bind_eq_ok_iff.mp read
              obtain ⟨value, readValue, same⟩ := bind_eq_ok_iff.mp readRest
              cases same
              exact .define pos headPos (Declaration.ofDatum_eq_ok_iff.mp readDeclaration)
                (eachRest d₂ (by simp) value readValue)
          · cases read
      · next isQuote =>
          obtain ⟨headPos, rfl⟩ := Datum.symbol?_eq_some_iff.mp isQuote
          split at read
          · next d =>
              cases read
              exact .quote pos headPos d
          · cases read
      · next isSet =>
          obtain ⟨headPos, rfl⟩ := Datum.symbol?_eq_some_iff.mp isSet
          split at read
          · next idPos name d =>
              obtain ⟨value, readValue, same⟩ := bind_eq_ok_iff.mp read
              cases same
              exact .assign pos headPos idPos name (eachRest d (by simp) value readValue)
          · cases read
          · cases read
      · cases read
      · next noIf noLambda noLet noLetrec noDefine noQuote noSet noProgram =>
          obtain ⟨operator, readOperator, readRest⟩ := bind_eq_ok_iff.mp read
          obtain ⟨operands, readOperands, same⟩ := bind_eq_ok_iff.mp readRest
          cases same
          refine .application pos (each head (by simp) operator readOperator)
            (allWritten_of_ofData eachRest readOperands) ?_
          intro name symbol keyword
          have isName : head.symbol? = some name := symbol
          simp only [keywords, List.mem_cons, List.not_mem_nil, or_false] at keyword
          grind

/-- An expression that was read is written so, by induction over the datum. -/
theorem written_of_ofDatum {d : Datum} {e : Expr} (read : ofDatum d = .ok e) : Written d e := by
  induction d using Datum.formsInduction generalizing e with
  | number pos value =>
      cases read
      exact .number pos value
  | boolean pos value =>
      cases read
      exact .boolean pos value
  | string pos value =>
      cases read
      exact .string pos value
  | symbol pos name =>
      rw [ofDatum] at read
      split at read
      · next known =>
          cases read
          exact .primitive pos known
      · next unknown =>
          cases read
          exact .var pos unknown
  | list pos items ih ihBindings =>
      apply written_of_ofDatum_list _ _ read
      · exact fun d member e => ih d member
      · exact fun _ _ member _ _ inside d part e => ihBindings _ _ member _ _ inside d part

-----------------------------------------------------------------------------------------
-- What is written is read
-----------------------------------------------------------------------------------------

/-- The expression that the datum writes is read from it. -/
def WrittenIsRead (d : Datum) : Prop := ∀ e, Written d e → ofDatum d = .ok e

/-- Several written expressions are read back, if each of them is, by induction on the data. -/
theorem ofData_of_allWritten {ds : List Datum} (each : ∀ d ∈ ds, WrittenIsRead d) {es : List Expr}
    (written : AllWritten ds es)
    : ofData ds = .ok es := by
  induction ds generalizing es with
  | nil =>
      cases written
      rfl
  | cons d ds ih =>
      cases written with
      | cons first others =>
          have readFirst := each d (by simp) _ first
          have readOthers := ih (fun d member => each d (by simp [member])) others
          simp only [ofData, readFirst, readOthers]
          rfl

/-- Written bindings are read back, by induction on the data. -/
theorem bindingList_of_bindingsWritten {form : String} {ds : List Datum}
    (each : ∀ pos items, .list pos items ∈ ds → ∀ d ∈ items, WrittenIsRead d)
    {bindings : List (Declaration × Expr)} (written : BindingsWritten ds bindings)
    : bindingList form ds = .ok bindings := by
  induction ds generalizing bindings with
  | nil =>
      cases written
      rfl
  | cons d ds ih =>
      cases written with
      | @cons pos d₁ d₂ _ declaration value others inDeclaration inValue inOthers =>
          have readDeclaration : Declaration.ofDatum form d₁ = .ok declaration :=
            Declaration.ofDatum_eq_ok_iff.mpr inDeclaration
          have readValue := each pos [d₁, d₂] (by simp) d₂ (by simp) value inValue
          have readOthers :=
            ih (fun pos items member => each pos items (by simp [member])) inOthers
          simp only [bindingList, readDeclaration, readValue, readOthers]
          rfl

/-- A form with written bindings and a written body that is not empty is read back. -/
theorem bindingForm_of_written {pos bindingsPos : Position} {form : String} {ds rest : List Datum}
    (inBindings : ∀ pos items, .list pos items ∈ ds → ∀ d ∈ items, WrittenIsRead d)
    (each : ∀ d ∈ rest, WrittenIsRead d) {bindings : List (Declaration × Expr)} {body : List Expr}
    (writtenBindings : BindingsWritten ds bindings) (writtenBody : AllWritten rest body)
    (nonempty : rest ≠ [])
    : bindingForm pos form (.list bindingsPos ds :: rest) = .ok (bindings, body) := by
  have readBindings : bindingList form ds = .ok bindings :=
    bindingList_of_bindingsWritten inBindings writtenBindings
  have hasBody : requireBody pos form rest = .ok () := requireBody_eq_ok_iff.mpr nonempty
  simp only [bindingForm, readBindings, hasBody, ofData_of_allWritten each writtenBody]
  rfl

/-- The rest of a lambda expression with a result type. -/
theorem afterResult_typed {d : Datum} {result : TypeExpr} (inResult : TypeExpr.Written d result)
    (colonPos : Position) (rest : List Datum)
    : resultOfData (.symbol colonPos ":" :: d :: rest) = .ok result
      ∧ afterResult (.symbol colonPos ":" :: d :: rest) = rest
      ∧ ofDataAfterResult (.symbol colonPos ":" :: d :: rest) = ofData rest := by
  simp [resultOfData, afterResult, ofDataAfterResult, ofDataTail,
    TypeExpr.ofDatum_of_written inResult]

/-- The rest of a lambda expression without a result type. -/
theorem afterResult_untyped {rest : List Datum}
    (noColon : ∀ d ∈ rest.head?, d.isSymbol ":" = false)
    : resultOfData rest = .ok .missing
      ∧ afterResult rest = rest
      ∧ ofDataAfterResult rest = ofData rest := by
  cases rest with
  | nil => exact ⟨rfl, rfl, rfl⟩
  | cons d rest =>
      have isColon : d.isSymbol ":" = false := noColon d (by simp)
      refine ⟨?_, ?_, ?_⟩
      · simp [resultOfData.eq_def, isColon]
      · simp [afterResult, isColon]
      · simp [ofDataAfterResult, ofData, isColon]

/-- A `lambda` is read from its written parameters, its result type and its body. -/
theorem ofDatum_lambda {ds rest : List Datum} {params : List Declaration} {result : TypeExpr}
    {body : List Expr} (inParams : List.Forall₂ Declaration.Written ds params)
    (readResult : resultOfData rest = .ok result) (nonempty : afterResult rest ≠ [])
    (readBody : ofDataAfterResult rest = .ok body) (pos headPos paramsPos : Position)
    : ofDatum (.list pos (.symbol headPos "lambda" :: .list paramsPos ds :: rest))
      = .ok (.lambda pos params result body) := by
  have readParams : Declaration.paramsOfDatum (.list paramsPos ds) = .ok params :=
    Declaration.paramsOfDatum_eq_ok_iff.mpr ⟨paramsPos, ds, rfl, inParams⟩
  have hasBody : requireBody pos "lambda" (afterResult rest) = .ok () :=
    requireBody_eq_ok_iff.mpr nonempty
  rw [ofDatum.eq_def]
  simp [Datum.symbol?, readParams, readResult, hasBody, readBody]

/-- A list is read as an application where no keyword begins it. -/
theorem ofDatum_application {d : Datum} {ds : List Datum} {operator : Expr} {operands : List Expr}
    (noKeyword : ∀ name ∈ d.symbol?, name ∉ keywords) (readOperator : ofDatum d = .ok operator)
    (readOperands : ofData ds = .ok operands) (pos : Position)
    : ofDatum (.list pos (d :: ds)) = .ok (.application pos operator operands) := by
  rw [ofDatum.eq_def]
  dsimp only
  split
  · next isIf => exact absurd (by decide) (noKeyword "if" isIf)
  · next isLambda => exact absurd (by decide) (noKeyword "lambda" isLambda)
  · next isLet => exact absurd (by decide) (noKeyword "let" isLet)
  · next isLetrec => exact absurd (by decide) (noKeyword "letrec" isLetrec)
  · next isDefine => exact absurd (by decide) (noKeyword "define" isDefine)
  · next isQuote => exact absurd (by decide) (noKeyword "quote" isQuote)
  · next isSet => exact absurd (by decide) (noKeyword "set!" isSet)
  · next isProgram => exact absurd (by decide) (noKeyword "L5" isProgram)
  · simp [readOperator, readOperands]

/-- A written expression is read, by induction over the datum. -/
theorem ofDatum_of_written {d : Datum} {e : Expr} (written : Written d e)
    : ofDatum d = .ok e := by
  induction d using Datum.formsInduction generalizing e with
  | number | boolean | string =>
      cases written
      rfl
  | symbol pos name =>
      cases written with
      | primitive _ known => simp only [ofDatum, known]
      | var _ unknown => simp only [ofDatum, unknown]
  | list pos items ih ihBindings =>
      have each d (member : d ∈ items) : WrittenIsRead d := fun e => ih d member
      have inBindings bindingsPos bindings (member : .list bindingsPos bindings ∈ items) bindingPos
          parts (inside : .list bindingPos parts ∈ bindings) d (part : d ∈ parts)
          : WrittenIsRead d :=
        fun e => ihBindings bindingsPos bindings member bindingPos parts inside d part
      cases written with
      | conditional _ headPos inTest inYes inNo =>
          have readTest := each _ (by simp) _ inTest
          have readYes := each _ (by simp) _ inYes
          have readNo := each _ (by simp) _ inNo
          simp [ofDatum, Datum.symbol?, readTest, readYes, readNo]
      | lambda _ headPos paramsPos inParams inBody nonempty noColon =>
          obtain ⟨readResult, after, bodyAfter⟩ := afterResult_untyped noColon
          have readBody := ofData_of_allWritten (fun d member => each d (by simp [member])) inBody
          rw [← after] at nonempty
          rw [← bodyAfter] at readBody
          exact ofDatum_lambda inParams readResult nonempty readBody pos headPos paramsPos
      | @typedLambda _ headPos paramsPos colonPos _ _ rest _ _ _ inParams inResult inBody nonempty =>
          obtain ⟨readResult, after, bodyAfter⟩ := afterResult_typed inResult colonPos rest
          have readBody := ofData_of_allWritten (fun d member => each d (by simp [member])) inBody
          rw [← after] at nonempty
          rw [← bodyAfter] at readBody
          exact ofDatum_lambda inParams readResult nonempty readBody pos headPos paramsPos
      | application _ inOperator inOperands noKeyword =>
          have readOperator := each _ (by simp) _ inOperator
          have readOperands :=
            ofData_of_allWritten (fun d member => each d (by simp [member])) inOperands
          exact ofDatum_application noKeyword readOperator readOperands pos
      | @letIn _ headPos bindingsPos ds rest bindings body writtenBindings inBody nonempty =>
          have read
              : bindingForm pos "let" (.list bindingsPos ds :: rest) = .ok (bindings, body) :=
            bindingForm_of_written (inBindings bindingsPos ds (by simp))
              (fun d member => each d (by simp [member])) writtenBindings inBody nonempty
          rw [ofDatum.eq_def]
          simp [Datum.symbol?, read]
      | @letrec _ headPos bindingsPos ds rest bindings body writtenBindings inBody nonempty =>
          have read
              : bindingForm pos "letrec" (.list bindingsPos ds :: rest) = .ok (bindings, body) :=
            bindingForm_of_written (inBindings bindingsPos ds (by simp))
              (fun d member => each d (by simp [member])) writtenBindings inBody nonempty
          rw [ofDatum.eq_def]
          simp [Datum.symbol?, read]
      | define _ headPos inDeclaration inValue =>
          have readDeclaration : Declaration.ofDatum "define" _ = .ok _ :=
            Declaration.ofDatum_eq_ok_iff.mpr inDeclaration
          have readValue := each _ (by simp) _ inValue
          simp [ofDatum, Datum.symbol?, readDeclaration, readValue]
      | quote _ headPos d => simp [ofDatum, Datum.symbol?]
      | assign _ headPos idPos name inValue =>
          have readValue := each _ (by simp) _ inValue
          simp [ofDatum, Datum.symbol?, readValue]

/-- An expression is read exactly from a datum that it is written as. -/
theorem ofDatum_eq_ok_iff {d : Datum} {e : Expr} : ofDatum d = .ok e ↔ Written d e :=
  ⟨written_of_ofDatum, ofDatum_of_written⟩

/-- Expressions are read exactly from data that they are written as. -/
theorem ofData_eq_ok_iff {ds : List Datum} {es : List Expr}
    : ofData ds = .ok es ↔ AllWritten ds es :=
  ⟨allWritten_of_ofData fun _ _ _ => written_of_ofDatum,
    ofData_of_allWritten fun _ _ _ => ofDatum_of_written⟩

/-- A program is no expression. -/
theorem not_written_program {pos headPos : Position} {ds : List Datum} {e : Expr}
    : ¬ Written (.list pos (.symbol headPos "L5" :: ds)) e := by
  intro written
  have read := ofDatum_of_written written
  rw [ofDatum.eq_def] at read
  simp [Datum.symbol?] at read

/-- Where no program is written, a whole source is an expression. -/
theorem ofRootDatum_of_not_program {d : Datum}
    (noProgram : ∀ pos headPos ds, d ≠ .list pos (.symbol headPos "L5" :: ds))
    : ofRootDatum d = ofDatum d := by
  fun_cases ofRootDatum d with
  | case1 pos head rest isProgram | case2 pos head rest isProgram =>
      obtain ⟨headPos, rfl⟩ := Datum.isSymbol_iff.mp isProgram
      exact absurd rfl (noProgram pos headPos rest)
  | case3 | case4 => rfl

/-- A program is read from the expressions behind its head, of which there must be one. -/
theorem ofRootDatum_program (pos headPos : Position) (ds : List Datum)
    : ofRootDatum (.list pos (.symbol headPos "L5" :: ds))
      = if ds.isEmpty then
          .error (.malformedExpr pos "program" "a program must contain at least one expression")
        else ofData ds >>= fun exprs => pure (.program pos exprs) := by
  simp [ofRootDatum]

/-- A whole source is read exactly from a datum that it is written as. -/
theorem ofRootDatum_eq_ok_iff {d : Datum} {e : Expr}
    : ofRootDatum d = .ok e ↔ RootWritten d e := by
  constructor
  · intro read
    by_cases isProgram : ∃ pos headPos ds, d = .list pos (.symbol headPos "L5" :: ds)
    · obtain ⟨pos, headPos, ds, rfl⟩ := isProgram
      rw [ofRootDatum_program] at read
      split at read
      · cases read
      · next some =>
          obtain ⟨exprs, readAll, same⟩ := bind_eq_ok_iff.mp read
          cases same
          exact .program pos headPos (ofData_eq_ok_iff.mp readAll) (by simpa using some)
    · push Not at isProgram
      rw [ofRootDatum_of_not_program isProgram] at read
      exact .expr (written_of_ofDatum read)
  · intro written
    cases written with
    | expr written =>
        rw [ofRootDatum_of_not_program, ofDatum_of_written written]
        intro pos headPos ds same
        rw [same] at written
        exact not_written_program written
    | program pos headPos inside nonempty =>
        simp [ofRootDatum_program, nonempty, ofData_eq_ok_iff.mpr inside]

/-- A text is parsed exactly if a datum is read from it that an expression is written as. -/
theorem parse_eq_ok_iff {file : FileId} {text : String} {e : Expr}
    : parse file text = .ok e ↔ ∃ d, Datum.read file text = .ok d ∧ RootWritten d e := by
  simp only [parse, bind_eq_ok_iff, ofRootDatum_eq_ok_iff]

end Expr

end TypedScheme
