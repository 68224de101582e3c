import TypedScheme.Proofs.Datum.Spelling
import TypedScheme.Proofs.Expr.Grammar

/-! Positions make no difference to what data are read as.
Main statement: if a datum is read as an expression, then a datum that differs from it only in
positions is read as the same expression.
-/

namespace TypedScheme

-----------------------------------------------------------------------------------------
-- Data
-----------------------------------------------------------------------------------------

/-- A number that is not NaN is the same as itself. -/
theorem Number.same_self {n : Number} (defined : n.isNaN = false) : n.same n = true := by
  simp [same, defined]

namespace Datum

/-- Data that are alike are the same symbol or none. -/
theorem Alike.symbol?_eq {d d' : Datum} (alike : Alike d d') : d'.symbol? = d.symbol? := by
  cases alike with
  | number | boolean | string | symbol | list => rfl

/-- Only a symbol is like a symbol. -/
theorem Alike.of_symbol {pos : Position} {name : String} {d' : Datum}
    (alike : Alike (.symbol pos name) d')
    : ∃ pos', d' = .symbol pos' name := by
  cases alike with
  | symbol _ pos' => exact ⟨pos', rfl⟩

/-- Only a list is like a list, item by item. -/
theorem Alike.of_list {pos : Position} {items : List Datum} {d' : Datum}
    (alike : Alike (.list pos items) d')
    : ∃ pos' items', d' = .list pos' items' ∧ List.Forall₂ Alike items items' := by
  cases alike with
  | list _ pos' each => exact ⟨pos', _, rfl, each⟩

/-- Only a list with a first member is like one, member by member. -/
theorem alike_cons {d : Datum} {ds es : List Datum} (alike : List.Forall₂ Alike (d :: ds) es)
    : ∃ d' ds', es = d' :: ds' ∧ Alike d d' ∧ List.Forall₂ Alike ds ds' := by
  cases alike with
  | cons first others => exact ⟨_, _, rfl, first, others⟩

/-- The last datum of a form. -/
theorem alike_last {d : Datum} {es : List Datum} (alike : List.Forall₂ Alike [d] es)
    : ∃ d', es = [d'] ∧ Alike d d' := by
  obtain ⟨d', ds', rfl, first, others⟩ := alike_cons alike
  cases others
  exact ⟨d', rfl, first⟩

/-- A form keeps the words in it. -/
theorem alike_word {pos : Position} {name : String} {ds es : List Datum}
    (alike : List.Forall₂ Alike (.symbol pos name :: ds) es)
    : ∃ pos' ds', es = .symbol pos' name :: ds' ∧ List.Forall₂ Alike ds ds' := by
  obtain ⟨d', ds', rfl, first, others⟩ := alike_cons alike
  obtain ⟨pos', rfl⟩ := first.of_symbol
  exact ⟨pos', ds', rfl, others⟩

/-- Data that are alike are both a given symbol or both not. -/
theorem Alike.isSymbol_eq {d d' : Datum} (alike : Alike d d') (name : String)
    : d'.isSymbol name = d.isSymbol name := by
  rw [isSymbol, isSymbol, alike.symbol?_eq]

/-- Lists that are alike are the same if their members are, by induction on the pairs. -/
theorem sameAll_of_alike {ds ds' : List Datum}
    (each : ∀ d ∈ ds, ∀ d', Alike d d' → d.same d' = true) (alike : List.Forall₂ Alike ds ds')
    : sameAll ds ds' = true := by
  induction alike with
  | nil => rw [sameAll]
  | @cons d d' ds ds' first others ih =>
      rw [sameAll, each d (by simp) d' first, ih fun d member => each d (by simp [member])]
      rfl

/-- Data that differ only in positions are equal, if no number is undefined. -/
theorem same_of_alike {d d' : Datum} (defined : d.Defined) (alike : Alike d d')
    : d.same d' = true := by
  induction d using partsInduction generalizing d' with
  | number pos value =>
      cases alike
      rw [same]
      exact Number.same_self (defined value (by simp))
  | boolean | string | symbol =>
      cases alike
      simp [same]
  | list pos items ih =>
      cases alike with
      | list _ _ alikeItems =>
          rw [same]
          exact sameAll_of_alike (fun d member d' => ih d member (defined.item member)) alikeItems

end Datum

open Datum

-----------------------------------------------------------------------------------------
-- Types and declarations
-----------------------------------------------------------------------------------------

namespace TypeExpr

/-- Whatever is like the datum is a written form of the same types. -/
def WrittenAlike (d : Datum) : Prop :=
  ∀ t d', Written d t → Alike d d' → ∃ t', Written d' t' ∧ t'.ty = t.ty

/-- The same signature is written as data that are alike, if the same types are, by induction on two
items at a time.
-/
theorem signatureWritten_of_alike {items items' : List Datum}
    (each : ∀ d ∈ items, WrittenAlike d) {params : List TypeExpr} {result : TypeExpr}
    (written : SignatureWritten items params result) (alike : List.Forall₂ Alike items items')
    : ∃ params' result',
        SignatureWritten items' params' result'
        ∧ tys params' = tys params
        ∧ result'.ty = result.ty := by
  induction items using List.twoStepInduction generalizing items' params with
  | nil | singleton => cases written
  | cons_cons p separator rest ih _ =>
      cases written with
      | @last arrowPos _ d param _ inParam inResult =>
          obtain ⟨p', _, rfl, likeParam, likeRest⟩ := alike_cons alike
          obtain ⟨arrowPos', _, rfl, likeLast⟩ := alike_word likeRest
          obtain ⟨d', rfl, likeResult⟩ := alike_last likeLast
          obtain ⟨param', inParam', sameParam⟩ := each p (by simp) param _ inParam likeParam
          obtain ⟨result', inResult', sameResult⟩ := each d (by simp) result _ inResult likeResult
          exact ⟨[param'], result', .last arrowPos' inParam' inResult', by simp [tys, sameParam],
            sameResult⟩
      | @more starPos _ _ param params _ inParam others =>
          obtain ⟨p', _, rfl, likeParam, likeRest⟩ := alike_cons alike
          obtain ⟨starPos', _, rfl, likeOthers⟩ := alike_word likeRest
          obtain ⟨param', inParam', sameParam⟩ := each p (by simp) param _ inParam likeParam
          obtain ⟨params', result', others', sameParams, sameResult⟩ :=
            ih (fun d member => each d (by simp [member])) others likeOthers
          exact ⟨param' :: params', result', .more starPos' inParam' others',
            by simp [tys, sameParam, sameParams], sameResult⟩

/-- The same type is written as data that are alike, by induction on the parts of the first. -/
theorem writtenAlike (d : Datum) : WrittenAlike d := by
  induction d using Datum.partsInduction with
  | number | boolean | string =>
      intro t d' written
      cases written
  | symbol pos name =>
      intro t d' written alike
      obtain ⟨pos', rfl⟩ := alike.of_symbol
      cases written with
      | atomic _ known => exact ⟨_, .atomic pos' known, by simp [ty]⟩
      | named _ unknown noMarker => exact ⟨_, .named pos' unknown noMarker, by simp [ty]⟩
  | list pos items ih =>
      intro t d' written alike
      obtain ⟨pos', items', rfl, alikeItems⟩ := alike.of_list
      cases written with
      | @thunk _ emptyPos arrowPos d result inResult =>
          obtain ⟨emptyPos', _, rfl, likeRest⟩ := alike_word alikeItems
          obtain ⟨arrowPos', _, rfl, likeLast⟩ := alike_word likeRest
          obtain ⟨d', rfl, likeResult⟩ := alike_last likeLast
          obtain ⟨result', inResult', sameResult⟩ := ih d (by simp) result _ inResult likeResult
          exact ⟨_, .thunk pos' emptyPos' arrowPos' inResult', by simp [ty, tys, sameResult]⟩
      | @procedure _ _ params result inside =>
          obtain ⟨params', result', inside', sameParams, sameResult⟩ :=
            signatureWritten_of_alike ih inside alikeItems
          exact ⟨_, .procedure pos' inside', by simp [ty, sameParams, sameResult]⟩

end TypeExpr

/-- The same declaration is written as data that are alike. -/
theorem Declaration.written_of_alike {d d' : Datum} {declaration : Declaration}
    (written : Written d declaration) (alike : Alike d d')
    : ∃ declaration', Written d' declaration' ∧ declaration.same declaration' = true := by
  cases written with
  | plain pos free =>
      obtain ⟨pos', rfl⟩ := alike.of_symbol
      exact ⟨_, .plain pos' free, by simp [same, Identifier.same]⟩
  | @typed pos idPos colonPos name d type free inType =>
      obtain ⟨pos', _, rfl, alikeItems⟩ := alike.of_list
      obtain ⟨idPos', _, rfl, likeRest⟩ := alike_word alikeItems
      obtain ⟨colonPos', _, rfl, likeLast⟩ := alike_word likeRest
      obtain ⟨d', rfl, likeType⟩ := alike_last likeLast
      obtain ⟨type', inType', sameType⟩ := TypeExpr.writtenAlike d type d' inType likeType
      exact ⟨_, .typed pos' idPos' colonPos' free inType',
        by simp [same, Identifier.same, sameType]⟩

/-- The same declarations are written as data that are alike, by induction on the pairs. -/
theorem Declaration.allWritten_of_alike {ds ds' : List Datum} {declarations : List Declaration}
    (written : List.Forall₂ Written ds declarations) (alike : List.Forall₂ Alike ds ds')
    : ∃ declarations',
        List.Forall₂ Written ds' declarations' ∧ sameAll declarations declarations' = true := by
  induction written generalizing ds' with
  | nil =>
      cases alike
      exact ⟨[], .nil, rfl⟩
  | cons first others ih =>
      obtain ⟨d', others', rfl, likeFirst, likeOthers⟩ := alike_cons alike
      obtain ⟨declaration', first', sameFirst⟩ := written_of_alike first likeFirst
      obtain ⟨declarations', others', sameOthers⟩ := ih likeOthers
      exact ⟨declaration' :: declarations', .cons first' others',
        by simp [sameAll, sameFirst, sameOthers]⟩

-----------------------------------------------------------------------------------------
-- Expressions
-----------------------------------------------------------------------------------------

namespace Expr

/-- Whatever is like the datum is a written form of the same expressions. -/
def WrittenAlike (d : Datum) : Prop :=
  ∀ e d', Written d e → d.Defined → Alike d d' → ∃ e', Written d' e' ∧ e.same e' = true

/-- The same expressions are written as data that are alike, if each of them is, by induction on the
data.
-/
theorem allWritten_of_alike {ds ds' : List Datum} (each : ∀ d ∈ ds, WrittenAlike d)
    (defined : ∀ d ∈ ds, d.Defined) {es : List Expr} (written : AllWritten ds es)
    (alike : List.Forall₂ Alike ds ds')
    : ∃ es', AllWritten ds' es' ∧ sameAll es es' = true := by
  induction ds generalizing ds' es with
  | nil =>
      cases written
      cases alike
      exact ⟨[], .nil, by rw [sameAll]⟩
  | cons d ds ih =>
      cases written with
      | @cons _ _ e es first others =>
          obtain ⟨d', ds', rfl, likeFirst, likeOthers⟩ := alike_cons alike
          obtain ⟨e', first', sameFirst⟩ :=
            each d (by simp) e d' first (defined d (by simp)) likeFirst
          obtain ⟨es', others', sameOthers⟩ := ih (fun d member => each d (by simp [member]))
            (fun d member => defined d (by simp [member])) others likeOthers
          exact ⟨e' :: es', .cons first' others', by simp [sameAll, sameFirst, sameOthers]⟩

/-- The same bindings are written as data that are alike, by induction on the data. -/
theorem bindingsWritten_of_alike {ds ds' : List Datum}
    (each : ∀ pos items, .list pos items ∈ ds → ∀ d ∈ items, WrittenAlike d)
    (defined : ∀ d ∈ ds, d.Defined) {bindings : List (Declaration × Expr)}
    (written : BindingsWritten ds bindings) (alike : List.Forall₂ Alike ds ds')
    : ∃ bindings', BindingsWritten ds' bindings' ∧ sameBindings bindings bindings' = true := by
  induction ds generalizing ds' bindings with
  | nil =>
      cases written
      cases alike
      exact ⟨[], .nil, by rw [sameBindings]⟩
  | cons d ds ih =>
      cases written with
      | @cons pos d₁ d₂ _ declaration value others inDeclaration inValue inOthers =>
          obtain ⟨_, ds', rfl, likeFirst, likeOthers⟩ := alike_cons alike
          obtain ⟨pos', _, rfl, likeParts⟩ := likeFirst.of_list
          obtain ⟨d₁', _, rfl, likeDeclaration, likeLast⟩ := alike_cons likeParts
          obtain ⟨d₂', rfl, likeValue⟩ := alike_last likeLast
          have whole : (Datum.list pos [d₁, d₂]).Defined := defined _ (by simp)
          obtain ⟨declaration', inDeclaration', sameDeclaration⟩ :=
            Declaration.written_of_alike inDeclaration likeDeclaration
          obtain ⟨value', inValue', sameValue⟩ := each pos [d₁, d₂] (by simp) d₂ (by simp) value d₂'
            inValue (whole.item (by simp)) likeValue
          obtain ⟨bindings', inOthers', sameOthers⟩ :=
            ih (fun pos items member => each pos items (by simp [member]))
              (fun d member => defined d (by simp [member])) inOthers likeOthers
          exact ⟨(declaration', value') :: bindings', .cons pos' inDeclaration' inValue' inOthers',
            by simp [sameBindings, sameDeclaration, sameValue, sameOthers]⟩

/-- Data like some data are some. -/
theorem ne_nil_of_alike {ds ds' : List Datum} (alike : List.Forall₂ Alike ds ds')
    (nonempty : ds ≠ [])
    : ds' ≠ [] := by
  intro empty
  rw [empty, List.forall₂_nil_right_iff] at alike
  exact nonempty alike

/-- Data like those that do not begin with a colon do not begin with one. -/
theorem noColon_of_alike {ds ds' : List Datum} (alike : List.Forall₂ Alike ds ds')
    (noColon : ∀ d ∈ ds.head?, d.isSymbol ":" = false)
    : ∀ d ∈ ds'.head?, d.isSymbol ":" = false := by
  cases alike with
  | nil => exact noColon
  | cons first others =>
      intro d' member
      cases member
      rw [first.isSymbol_eq]
      exact noColon _ rfl

/-- The parts of a `let` or a `letrec`. -/
theorem bindingForm_of_alike {pos headPos bindingsPos : Position} {name : String}
    {ds body items' : List Datum} (each : ∀ d ∈ body, WrittenAlike d)
    (eachBinding : ∀ pos items, .list pos items ∈ ds → ∀ d ∈ items, WrittenAlike d)
    (defined : (Datum.list pos (.symbol headPos name :: .list bindingsPos ds :: body)).Defined)
    {bindings : List (Declaration × Expr)} (inBindings : BindingsWritten ds bindings)
    {es : List Expr} (inBody : AllWritten body es) (nonempty : body ≠ [])
    (alike : List.Forall₂ Alike (.symbol headPos name :: .list bindingsPos ds :: body) items')
    : ∃ headPos' bindingsPos' ds' body' bindings' es',
        items' = .symbol headPos' name :: .list bindingsPos' ds' :: body'
        ∧ BindingsWritten ds' bindings'
        ∧ AllWritten body' es'
        ∧ body' ≠ []
        ∧ sameBindings bindings bindings' = true
        ∧ sameAll es es' = true := by
  obtain ⟨headPos', _, rfl, likeRest⟩ := alike_word alike
  obtain ⟨_, body', rfl, likeBindings, likeBody⟩ := alike_cons likeRest
  obtain ⟨bindingsPos', ds', rfl, likeEach⟩ := likeBindings.of_list
  have inside : (Datum.list bindingsPos ds).Defined := defined.item (by simp)
  obtain ⟨bindings', inBindings', sameBindings⟩ :=
    bindingsWritten_of_alike eachBinding (fun d member => inside.item member) inBindings likeEach
  obtain ⟨es', inBody', sameBody⟩ :=
    allWritten_of_alike each (fun d member => defined.item (by simp [member])) inBody likeBody
  exact ⟨headPos', bindingsPos', ds', body', bindings', es', rfl, inBindings', inBody',
    ne_nil_of_alike likeBody nonempty, sameBindings, sameBody⟩

/-- The same expression is written as data that are alike, by induction over the first datum. -/
theorem writtenAlike (d : Datum) : WrittenAlike d := by
  induction d using Datum.formsInduction with
  | number pos value =>
      intro e d' written defined alike
      cases written
      cases alike with
      | number _ pos' =>
          have same : value.same value = true := Number.same_self (defined value (by simp))
          exact ⟨_, .number pos' value, by simp [Expr.same, same]⟩
  | boolean pos value =>
      intro e d' written defined alike
      cases written
      cases alike with
      | boolean _ pos' => exact ⟨_, .boolean pos' value, by simp [same]⟩
  | string pos value =>
      intro e d' written defined alike
      cases written
      cases alike with
      | string _ pos' => exact ⟨_, .string pos' value, by simp [same]⟩
  | symbol pos name =>
      intro e d' written defined alike
      obtain ⟨pos', rfl⟩ := alike.of_symbol
      cases written with
      | primitive _ known => exact ⟨_, .primitive pos' known, by simp [same]⟩
      | var _ unknown => exact ⟨_, .var pos' unknown, by simp [same, Identifier.same]⟩
  | list pos items ih ihBindings =>
      intro e d' written defined alike
      obtain ⟨pos', _, rfl, alikeItems⟩ := alike.of_list
      cases written with
      | @conditional _ headPos d₁ d₂ d₃ test yes no inTest inYes inNo =>
          obtain ⟨headPos', _, rfl, likeRest⟩ := alike_word alikeItems
          obtain ⟨d₁', _, rfl, likeTest, likeBranches⟩ := alike_cons likeRest
          obtain ⟨d₂', _, rfl, likeYes, likeLast⟩ := alike_cons likeBranches
          obtain ⟨d₃', rfl, likeNo⟩ := alike_last likeLast
          obtain ⟨test', inTest', sameTest⟩ :=
            ih d₁ (by simp) test d₁' inTest (defined.item (by simp)) likeTest
          obtain ⟨yes', inYes', sameYes⟩ :=
            ih d₂ (by simp) yes d₂' inYes (defined.item (by simp)) likeYes
          obtain ⟨no', inNo', sameNo⟩ :=
            ih d₃ (by simp) no d₃' inNo (defined.item (by simp)) likeNo
          exact ⟨_, .conditional pos' headPos' inTest' inYes' inNo',
            by simp [same, sameTest, sameYes, sameNo]⟩
      | lambda _ headPos paramsPos inParams inBody nonempty noColon =>
          obtain ⟨headPos', _, rfl, likeRest⟩ := alike_word alikeItems
          obtain ⟨_, _, rfl, likeParams, likeBody⟩ := alike_cons likeRest
          obtain ⟨paramsPos', _, rfl, likeEach⟩ := likeParams.of_list
          obtain ⟨params', inParams', sameParams⟩ :=
            Declaration.allWritten_of_alike inParams likeEach
          obtain ⟨body', inBody', sameBody⟩ :=
            allWritten_of_alike (fun d member => ih d (by simp [member]))
              (fun d member => defined.item (by simp [member])) inBody likeBody
          exact ⟨_, .lambda pos' headPos' paramsPos' inParams' inBody'
            (ne_nil_of_alike likeBody nonempty) (noColon_of_alike likeBody noColon),
            by simp [same, sameParams, sameBody]⟩
      | @typedLambda _ headPos paramsPos colonPos d _ _ _ result _ inParams inResult inBody
          nonempty =>
          obtain ⟨headPos', _, rfl, likeRest⟩ := alike_word alikeItems
          obtain ⟨_, _, rfl, likeParams, likeAfter⟩ := alike_cons likeRest
          obtain ⟨paramsPos', _, rfl, likeEach⟩ := likeParams.of_list
          obtain ⟨colonPos', _, rfl, likeTyped⟩ := alike_word likeAfter
          obtain ⟨d', _, rfl, likeResult, likeBody⟩ := alike_cons likeTyped
          obtain ⟨params', inParams', sameParams⟩ :=
            Declaration.allWritten_of_alike inParams likeEach
          obtain ⟨result', inResult', sameResult⟩ :=
            TypeExpr.writtenAlike d result d' inResult likeResult
          obtain ⟨body', inBody', sameBody⟩ :=
            allWritten_of_alike (fun d member => ih d (by simp [member]))
              (fun d member => defined.item (by simp [member])) inBody likeBody
          exact ⟨_, .typedLambda pos' headPos' paramsPos' colonPos' inParams' inResult' inBody'
            (ne_nil_of_alike likeBody nonempty), by simp [same, sameParams, sameResult, sameBody]⟩
      | @application _ d _ operator _ inOperator inOperands noKeyword =>
          obtain ⟨d', _, rfl, likeOperator, likeOperands⟩ := alike_cons alikeItems
          obtain ⟨operator', inOperator', sameOperator⟩ :=
            ih d (by simp) operator d' inOperator (defined.item (by simp)) likeOperator
          obtain ⟨operands', inOperands', sameOperands⟩ :=
            allWritten_of_alike (fun d member => ih d (by simp [member]))
              (fun d member => defined.item (by simp [member])) inOperands likeOperands
          rw [← likeOperator.symbol?_eq] at noKeyword
          exact ⟨_, .application pos' inOperator' inOperands' noKeyword,
            by simp [same, sameOperator, sameOperands]⟩
      | @letIn _ headPos bindingsPos ds _ _ _ inBindings inBody nonempty =>
          obtain ⟨headPos', bindingsPos', _, _, _, _, rfl, inBindings', inBody', nonempty',
              sameBindings, sameBody⟩ :=
            bindingForm_of_alike (fun d member => ih d (by simp [member]))
              (ihBindings bindingsPos ds (by simp)) defined inBindings inBody nonempty alikeItems
          exact ⟨_, .letIn pos' headPos' bindingsPos' inBindings' inBody' nonempty',
            by simp [same, sameBindings, sameBody]⟩
      | @letrec _ headPos bindingsPos ds _ _ _ inBindings inBody nonempty =>
          obtain ⟨headPos', bindingsPos', _, _, _, _, rfl, inBindings', inBody', nonempty',
              sameBindings, sameBody⟩ :=
            bindingForm_of_alike (fun d member => ih d (by simp [member]))
              (ihBindings bindingsPos ds (by simp)) defined inBindings inBody nonempty alikeItems
          exact ⟨_, .letrec pos' headPos' bindingsPos' inBindings' inBody' nonempty',
            by simp [same, sameBindings, sameBody]⟩
      | @define _ headPos d₁ d₂ declaration value inDeclaration inValue =>
          obtain ⟨headPos', _, rfl, likeRest⟩ := alike_word alikeItems
          obtain ⟨d₁', _, rfl, likeDeclaration, likeLast⟩ := alike_cons likeRest
          obtain ⟨d₂', rfl, likeValue⟩ := alike_last likeLast
          obtain ⟨declaration', inDeclaration', sameDeclaration⟩ :=
            Declaration.written_of_alike inDeclaration likeDeclaration
          obtain ⟨value', inValue', sameValue⟩ :=
            ih d₂ (by simp) value d₂' inValue (defined.item (by simp)) likeValue
          exact ⟨_, .define pos' headPos' inDeclaration' inValue',
            by simp [same, sameDeclaration, sameValue]⟩
      | quote _ headPos d =>
          obtain ⟨headPos', _, rfl, likeLast⟩ := alike_word alikeItems
          obtain ⟨d', rfl, likeDatum⟩ := alike_last likeLast
          have sameDatum := same_of_alike (defined.item (by simp)) likeDatum
          exact ⟨_, .quote pos' headPos' d', by simp [same, sameDatum]⟩
      | @assign _ headPos idPos name d value inValue =>
          obtain ⟨headPos', _, rfl, likeRest⟩ := alike_word alikeItems
          obtain ⟨idPos', _, rfl, likeLast⟩ := alike_word likeRest
          obtain ⟨d', rfl, likeValue⟩ := alike_last likeLast
          obtain ⟨value', inValue', sameValue⟩ :=
            ih d (by simp) value d' inValue (defined.item (by simp)) likeValue
          exact ⟨_, .assign pos' headPos' idPos' name inValue',
            by simp [same, Identifier.same, sameValue]⟩

/-- A whole source that differs only in positions is read as the same. -/
theorem rootWritten_of_alike {d d' : Datum} {e : Expr} (written : RootWritten d e)
    (defined : d.Defined) (alike : Alike d d')
    : ∃ e', RootWritten d' e' ∧ e.same e' = true := by
  cases written with
  | expr written =>
      obtain ⟨e', written', sameExpr⟩ := writtenAlike d e d' written defined alike
      exact ⟨e', .expr written', sameExpr⟩
  | program pos headPos inside nonempty =>
      obtain ⟨pos', _, rfl, alikeItems⟩ := alike.of_list
      obtain ⟨headPos', _, rfl, likeRest⟩ := alike_word alikeItems
      obtain ⟨exprs', inside', sameExprs⟩ :=
        allWritten_of_alike (fun d _ => writtenAlike d)
          (fun d member => defined.item (by simp [member])) inside likeRest
      exact ⟨_, .program pos' headPos' inside' (ne_nil_of_alike likeRest nonempty),
        by simp [same, sameExprs]⟩

end Expr

end TypedScheme
