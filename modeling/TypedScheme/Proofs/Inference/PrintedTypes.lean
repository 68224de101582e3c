import TypedScheme.Proofs.Expr.Spans
import TypedScheme.Proofs.Inference.Allocations
import TypedScheme.Proofs.Inference.Reports
import TypedScheme.Proofs.Printer.RoundTrip
import TypedScheme.Script

/-! Inferred types as annotations.
A type without wildcards whose names can stand for type variables is read back from what is printed
of it. The names in an inferred type are names from the annotations of the source and made names, so
that they can. Main statement: every inferred type can be written as an annotation.
-/

namespace TypedScheme

-----------------------------------------------------------------------------------------
-- Written forms of types
-----------------------------------------------------------------------------------------

/-- The name can be written for a type variable. -/
structure Ty.IsVariableName (name : String) : Prop where
  symbol : Text.IsSymbol name
  unknown : Atomic.ofName? name = none
  noMarker : name ∉ TypeExpr.markers

namespace Datum

/-- A name that is a symbol is printable as one. -/
theorem printable_symbol {name : String} (isSymbol : Text.IsSymbol name) (pos : Position)
    : (Datum.symbol pos name).Printable := by
  constructor
  · intro other member
    rw [mem_symbols_symbol.mp member]
    exact isSymbol
  · intro value member
    cases member

/-- A list of printable data is printable. -/
theorem printable_list {items : List Datum} (each : ∀ item ∈ items, item.Printable)
    (pos : Position)
    : (Datum.list pos items).Printable := by
  constructor
  · intro name member
    obtain ⟨item, inside, isSymbol⟩ := mem_symbols_list.mp member
    exact (each item inside).symbols name isSymbol
  · intro value member
    obtain ⟨item, inside, isNumber⟩ := mem_numbers_list.mp member
    exact (each item inside).finite value isNumber

end Datum

namespace Ty

/-- The words of which types are made are symbols. -/
theorem isSymbol_of_typeWord {word : String}
    (member : word ∈ ["->", "*", "Empty", "number", "boolean", "string", "void"])
    : Text.IsSymbol word := by
  simp only [List.mem_cons, List.not_mem_nil, or_false] at member
  rcases member with rfl | rfl | rfl | rfl | rfl | rfl | rfl
  all_goals
    exact ⟨⟨by decide, by decide, by simp [Text.isDelimiter, Text.isBlank]⟩, by decide⟩

/-- The words of which types are made are printable. -/
theorem printable_typeWord {word : String}
    (member : word ∈ ["->", "*", "Empty", "number", "boolean", "string", "void"])
    : (Datum.symbol none word).Printable :=
  Datum.printable_symbol (isSymbol_of_typeWord member) none

/-- Types have no wildcards exactly if none of them has, by induction on the types. -/
theorem wildcardsOfAll_eq_zero {tys : List Ty}
    : wildcardsOfAll tys = 0 ↔ ∀ ty ∈ tys, ty.wildcards = 0 := by
  induction tys with
  | nil => simp [wildcardsOfAll]
  | cons ty tys ih => simp [wildcardsOfAll, ih]

/-- The type has a written form that can be printed. -/
def HasWrittenForm (ty : Ty) : Prop :=
  ∃ d t, TypeExpr.Written d t ∧ t.ty = ty ∧ d.Printable

/-- The parameters and the result of a procedure type, by induction on the parameters. -/
theorem exists_signature {params : List Ty} {result : Ty} (nonempty : params ≠ [])
    (each : ∀ param ∈ params, param.HasWrittenForm) (last : result.HasWrittenForm)
    : ∃ items ts t,
        TypeExpr.SignatureWritten items ts t
        ∧ TypeExpr.tys ts = params
        ∧ t.ty = result
        ∧ ∀ item ∈ items, item.Printable := by
  induction params with
  | nil => exact absurd rfl nonempty
  | cons param rest ih =>
      obtain ⟨p, first, inParam, sameParam, printableParam⟩ := each param (.head _)
      cases rest with
      | nil =>
          obtain ⟨d, t, inResult, same, printable⟩ := last
          refine ⟨_, _, t, .last none inParam inResult, ?_, same, ?_⟩
          · rw [TypeExpr.tys, TypeExpr.tys, sameParam]
          · simp only [List.forall_mem_cons]
            exact ⟨printableParam, printable_typeWord (by decide), printable, by simp⟩
      | cons next rest =>
          obtain ⟨items, ts, t, written, sameParams, same, printable⟩ :=
            ih (by simp) fun param member => each param (.tail _ member)
          refine ⟨_, _, t, .more none inParam written, ?_, same, ?_⟩
          · rw [TypeExpr.tys, sameParam, sameParams]
          · simp only [List.forall_mem_cons]
            exact ⟨printableParam, printable_typeWord (by decide), printable⟩

/-- A type without wildcards whose names can be read has a written form, by induction on its parts.
-/
theorem hasWrittenForm {ty : Ty} (closed : ty.wildcards = 0)
    (names : ∀ name ∈ ty.names, IsVariableName name)
    : ty.HasWrittenForm := by
  induction ty using partsInduction with
  | wildcard => cases closed
  | atomic a =>
      have known : Atomic.ofName? a.name = some a := by cases a <;> rfl
      refine ⟨_, _, .atomic none known, rfl, printable_typeWord ?_⟩
      cases a <;> decide
  | named name =>
      have isName := names name (.head _)
      exact ⟨_, _, .named none isName.unknown isName.noMarker, rfl,
        Datum.printable_symbol isName.symbol none⟩
  | procedure params result ihParams ihResult =>
      obtain ⟨closedParams, closedResult⟩ := Nat.add_eq_zero_iff.mp closed
      have last : result.HasWrittenForm :=
        ihResult closedResult fun name member => names name (List.mem_append_right _ member)
      have each param (member : param ∈ params) : param.HasWrittenForm := by
        refine ihParams param member (wildcardsOfAll_eq_zero.mp closedParams param member) ?_
        intro name isName
        exact names name (List.mem_append_left _ (mem_namesOfAll.mpr ⟨param, member, isName⟩))
      cases params with
      | nil =>
          obtain ⟨d, t, inResult, rfl, printable⟩ := last
          refine ⟨_, _, .thunk none none none inResult, rfl, Datum.printable_list ?_ none⟩
          simp only [List.forall_mem_cons]
          exact ⟨printable_typeWord (by decide), printable_typeWord (by decide), printable, nofun⟩
      | cons param rest =>
          obtain ⟨items, ts, t, written, sameParams, rfl, printable⟩ :=
            exists_signature (by simp) each last
          refine ⟨_, _, .procedure none written, ?_, Datum.printable_list printable none⟩
          rw [TypeExpr.ty, sameParams]

mutual
/-- The printed form is a layout of the document, which has no breaks. -/
theorem doc_lays : (ty : Ty) → ty.doc.Lays ty.text.toList
  | .atomic a => .text a.name
  | .named name => .text name
  | .wildcard => .text "_"
  | .procedure [] result => by
      have lays := Doc.Lays.cat (.text "(")
        (.cat (.cat (.text "Empty -> ") (doc_lays result)) (.text ")"))
      simpa [doc, Doc.parens, text] using lays
  | .procedure (p :: ps) result => by
      have lays := Doc.Lays.cat (.text "(")
        (.cat (.cat (doc_lays p) (.cat (restDoc_lays ps) (.cat (.text " -> ") (doc_lays result))))
          (.text ")"))
      simpa [doc, Doc.parens, text] using lays

/-- The parameters behind the first are laid out as they are printed on one line. -/
theorem restDoc_lays : (tys : List Ty) → (restDoc tys).Lays (restText tys).toList
  | [] => .text ""
  | p :: ps => by
      have lays := Doc.Lays.cat (.text " * ") (.cat (doc_lays p) (restDoc_lays ps))
      simpa [restDoc, restText] using lays
end

end Ty

/-- A type without wildcards whose names can be read is read back from its text. -/
theorem TypeExpr.parse_text {ty : Ty} (closed : ty.wildcards = 0)
    (names : ∀ name ∈ ty.names, Ty.IsVariableName name) (file : FileId)
    : ∃ t, TypeExpr.parse file ty.text = .ok t ∧ t.ty = ty := by
  obtain ⟨d, t, written, rfl, printable⟩ := Ty.hasWrittenForm closed names
  obtain ⟨d', read, alike⟩ := (doc_writes written printable).read (Ty.doc_lays t.ty) file
  obtain ⟨t', written', same⟩ := writtenAlike d t d' written alike
  refine ⟨t', ?_, same⟩
  rw [TypeExpr.parse, read]
  exact ofDatum_eq_ok_iff.mpr written'

-----------------------------------------------------------------------------------------
-- Names in annotations
-----------------------------------------------------------------------------------------

/-- The symbols of a part of a datum are symbols of the datum. -/
theorem Datum.SymbolsRead.within {d d' : Datum} (symbols : d.SymbolsRead) (inside : d.Within d')
    : d'.SymbolsRead := by
  induction inside with
  | refl => exact symbols
  | @tail d₁ d₂ _ member ih =>
      cases d₁ with
      | list pos items => exact ih.item member
      | number | boolean | string | symbol => cases member

namespace TypeExpr

mutual
/-- The names in a written type can be read, by induction over the written form. -/
theorem isVariableName_of_written {name : String} {d : Datum} {t : TypeExpr}
    : Written d t → d.SymbolsRead → name ∈ t.ty.names → Ty.IsVariableName name
  | .atomic _ _, _, isName => nomatch isName
  | .named _ unknown noMarker, symbols, isName => by
      cases List.mem_singleton.mp isName
      exact ⟨symbols _ (by simp), unknown, noMarker⟩
  | .thunk _ _ _ inResult, symbols, isName =>
      isVariableName_of_written inResult (symbols.item (by simp)) isName
  | .procedure _ inside, symbols, isName =>
      isVariableName_of_signature inside (fun _ member => symbols.item member) isName

/-- The names in a written signature can be read. -/
theorem isVariableName_of_signature {name : String} {items : List Datum} {params : List TypeExpr}
    {result : TypeExpr}
    : SignatureWritten items params result
      → (∀ item ∈ items, item.SymbolsRead)
      → name ∈ Ty.namesOfAll (tys params) ++ result.ty.names
      → Ty.IsVariableName name
  | .last _ inParam inResult, symbols, isName => by
      simp only [tys, Ty.namesOfAll, List.append_nil, List.mem_append] at isName
      rcases isName with isParam | isResult
      · exact isVariableName_of_written inParam (symbols _ (by simp)) isParam
      · exact isVariableName_of_written inResult (symbols _ (by simp)) isResult
  | .more _ inParam others, symbols, isName => by
      simp only [tys, Ty.namesOfAll, List.append_assoc] at isName
      rcases List.mem_append.mp isName with isParam | isOther
      · exact isVariableName_of_written inParam (symbols _ (by simp)) isParam
      · refine isVariableName_of_signature others ?_ isOther
        exact fun item member => symbols item (by simp [member])
end

end TypeExpr

/-- The names in a written declaration can be read. -/
theorem Declaration.isVariableName_of_written {d : Datum} {declaration : Declaration}
    (written : Written d declaration) (symbols : d.SymbolsRead) {name : String}
    (isName : name ∈ declaration.type.ty.names)
    : Ty.IsVariableName name := by
  cases written with
  | plain => cases isName
  | typed _ _ _ _ inType =>
      exact TypeExpr.isVariableName_of_written inType (symbols.item (by simp)) isName

/-- The names in written declarations can be read, by induction on the pairs. -/
theorem Declaration.isVariableName_of_allWritten {ds : List Datum}
    {declarations : List Declaration} (written : List.Forall₂ Written ds declarations)
    (symbols : ∀ d ∈ ds, d.SymbolsRead) {ty : Ty} (declared : ty ∈ Infer.declaredTypes declarations)
    {name : String} (isName : name ∈ ty.names)
    : Ty.IsVariableName name := by
  induction written with
  | nil => cases declared
  | cons first others ih =>
      rcases List.mem_cons.mp declared with rfl | later
      · exact isVariableName_of_written first (symbols _ (.head _)) isName
      · exact ih (fun d member => symbols d (.tail _ member)) later

namespace Expr

/-- The declaration of a binding is the first of two items. -/
theorem BindingsWritten.declarations {ds : List Datum} {bindings : List (Declaration × Expr)}
    (written : BindingsWritten ds bindings) (symbols : ∀ d ∈ ds, d.SymbolsRead)
    : ∃ ds',
        List.Forall₂ Declaration.Written ds' (bindings.map (·.1)) ∧ ∀ d ∈ ds', d.SymbolsRead := by
  induction bindings generalizing ds with
  | nil => exact ⟨[], .nil, nofun⟩
  | cons binding rest ih =>
      cases written with
      | @cons pos d₁ d₂ _ _ _ _ inDeclaration _ others =>
          obtain ⟨ds', written', symbols'⟩ := ih others fun d member => symbols d (.tail _ member)
          refine ⟨d₁ :: ds', .cons inDeclaration written', ?_⟩
          rw [List.forall_mem_cons]
          exact ⟨(symbols _ (.head _)).item (.head _), symbols'⟩

/-- The names in the annotations that an expression has itself. -/
theorem isVariableName_of_ownAnnotations {d : Datum} {e : Expr} (written : RootWritten d e)
    (symbols : d.SymbolsRead) {ty : Ty} (own : ty ∈ e.ownAnnotations) {name : String}
    (isName : name ∈ ty.names)
    : Ty.IsVariableName name := by
  cases written with
  | program => cases own
  | expr written =>
      cases written with
      | lambda _ _ _ inParams =>
          have inList := symbols.item (.tail _ (.head _))
          rcases List.mem_append.mp own with isParam | isResult
          · exact Declaration.isVariableName_of_allWritten inParams (fun _ => inList.item) isParam
              isName
          · cases List.mem_singleton.mp isResult
            cases isName
      | typedLambda _ _ _ _ inParams inResult =>
          have inList := symbols.item (.tail _ (.head _))
          rcases List.mem_append.mp own with isParam | isResult
          · exact Declaration.isVariableName_of_allWritten inParams (fun _ => inList.item) isParam
              isName
          · cases List.mem_singleton.mp isResult
            exact TypeExpr.isVariableName_of_written inResult (symbols.item (by simp)) isName
      | letIn _ _ _ inBindings =>
          have inList := symbols.item (.tail _ (.head _))
          obtain ⟨ds, inDeclarations, inEach⟩ := inBindings.declarations fun _ => inList.item
          exact Declaration.isVariableName_of_allWritten inDeclarations inEach own isName
      | number | boolean | string | primitive | var | conditional | application | letrec | define
      | quote | assign => cases own

mutual
/-- What is visited is inside, by induction over the expression. -/
theorem contains_of_visited {part : Expr} : (e : Expr) → part ∈ e.visited → e.Contains part
  | .number _ _, member | .boolean _ _, member | .string _ _, member | .primitive _ _, member
  | .var _ _, member | .define _ _ _, member | .quote _ _, member => by
      cases List.mem_singleton.mp member
      exact .refl
  | .conditional pos test yes no, member => by
      rcases List.mem_cons.mp member with rfl | inside
      · exact .refl
      · rcases List.mem_append.mp inside with earlier | inNo
        · rcases List.mem_append.mp earlier with inTest | inYes
          · exact .head (by simp [parts]) (contains_of_visited test inTest)
          · exact .head (by simp [parts]) (contains_of_visited yes inYes)
        · exact .head (by simp [parts]) (contains_of_visited no inNo)
  | .lambda pos params result body, member => by
      rcases List.mem_cons.mp member with rfl | inside
      · exact .refl
      · obtain ⟨e, inBody, contains⟩ := contains_of_visitedOfAll body inside
        exact .head inBody contains
  | .application pos operator operands, member => by
      rcases List.mem_cons.mp member with rfl | inside
      · exact .refl
      · rcases List.mem_append.mp inside with inOperator | inOperands
        · exact .head (.head _) (contains_of_visited operator inOperator)
        · obtain ⟨e, isOperand, contains⟩ := contains_of_visitedOfAll operands inOperands
          exact .head (.tail _ isOperand) contains
  | .letIn pos bindings body, member | .letrec pos bindings body, member => by
      rcases List.mem_cons.mp member with rfl | inside
      · exact .refl
      · rcases List.mem_append.mp inside with inBindings | inBody
        · obtain ⟨value, isValue, contains⟩ := contains_of_visitedOfBindings bindings inBindings
          exact .head (List.mem_append_left _ isValue) contains
        · obtain ⟨e, isInBody, contains⟩ := contains_of_visitedOfAll body inBody
          exact .head (List.mem_append_right _ isInBody) contains
  | .program pos exprs, member => by
      rcases List.mem_cons.mp member with rfl | inside
      · exact .refl
      · obtain ⟨e, isInside, contains⟩ := contains_of_visitedOfAll exprs inside
        exact .head isInside contains
  | .assign pos id value, member => by
      rcases List.mem_cons.mp member with rfl | inside
      · exact .refl
      · exact .head (.head _) (contains_of_visited value inside)

/-- The expressions visited in several ones are contained in these. -/
theorem contains_of_visitedOfAll {part : Expr}
    : (es : List Expr) → part ∈ visitedOfAll es → ∃ e ∈ es, e.Contains part
  | [], member => nomatch member
  | e :: es, member => by
      rcases List.mem_append.mp member with inFirst | inRest
      · exact ⟨e, .head _, contains_of_visited e inFirst⟩
      · obtain ⟨e', isOther, contains⟩ := contains_of_visitedOfAll es inRest
        exact ⟨e', .tail _ isOther, contains⟩

/-- The expressions visited in bindings are contained in their values. -/
theorem contains_of_visitedOfBindings {part : Expr}
    : (bindings : List (Declaration × Expr))
      → part ∈ visitedOfBindings bindings
      → ∃ value ∈ bindings.map (·.2), value.Contains part
  | [], member => nomatch member
  | (_, value) :: bindings, member => by
      rcases List.mem_append.mp member with inFirst | inRest
      · exact ⟨value, .head _, contains_of_visited value inFirst⟩
      · obtain ⟨value', isOther, contains⟩ := contains_of_visitedOfBindings bindings inRest
        exact ⟨value', .tail _ isOther, contains⟩
end

/-- The names in the annotations of a source are those of type variables. -/
theorem isVariableName_of_parse {file : FileId} {text : String} {e : Expr}
    (parsed : parse file text = .ok e) {name : String}
    (isName : name ∈ e.annotations.flatMap Ty.names)
    : Ty.IsVariableName name := by
  obtain ⟨ty, isAnnotation, inType⟩ := List.mem_flatMap.mp isName
  obtain ⟨part, isVisited, own⟩ := List.mem_flatMap.mp isAnnotation
  obtain ⟨d, read, written⟩ := parse_eq_ok_iff.mp parsed
  have symbols : d.SymbolsRead := fun name => Datum.isSymbol_of_read read
  obtain ⟨d', inside, written'⟩ :=
    written.exists_datum_of_contains (contains_of_visited e isVisited)
  exact isVariableName_of_ownAnnotations written' (symbols.within inside) own inType

end Expr

-----------------------------------------------------------------------------------------
-- Names in inferred types
-----------------------------------------------------------------------------------------

namespace OpenTy

/-- A plain type is printed without wildcards, by induction on its parts. -/
theorem wildcards_toTy {ty : OpenTy} (plain : ty.isPlain = true) (f : Nat → String)
    : (ty.toTy f).wildcards = 0 := by
  induction ty using partsInduction with
  | var | atomic => rw [toTy, Ty.wildcards]
  | named | wildcard => simp [isPlain] at plain
  | procedure params result ihParams ihResult =>
      obtain ⟨plainParams, plainResult⟩ := isPlain_procedure.mp plain
      rw [toTy, toTys_eq_map, Ty.wildcards, ihResult plainResult, Nat.add_zero,
        Ty.wildcardsOfAll_eq_zero]
      intro ty member
      obtain ⟨param, isParam, rfl⟩ := List.mem_map.mp member
      exact ihParams param isParam (plainParams param isParam)

/-- The names in a printed plain type are those of its variables, by induction on its parts. -/
theorem exists_var_of_mem_names {ty : OpenTy} (plain : ty.isPlain = true) {f : Nat → String}
    {name : String} (isName : name ∈ (ty.toTy f).names)
    : ∃ v, name = f v := by
  induction ty using partsInduction with
  | var v =>
      rw [toTy, Ty.names] at isName
      exact ⟨v, List.mem_singleton.mp isName⟩
  | atomic =>
      rw [toTy, Ty.names] at isName
      cases isName
  | named | wildcard => simp [isPlain] at plain
  | procedure params result ihParams ihResult =>
      obtain ⟨plainParams, plainResult⟩ := isPlain_procedure.mp plain
      rw [toTy, toTys_eq_map, Ty.names] at isName
      rcases List.mem_append.mp isName with isParam | isResult
      · obtain ⟨ty, member, inType⟩ := Ty.mem_namesOfAll.mp isParam
        obtain ⟨param, isParam, rfl⟩ := List.mem_map.mp member
        exact ihParams param isParam (plainParams param isParam) inType
      · exact ihResult plainResult isResult

end OpenTy

/-- A made name is `T_` and the digits of a number. -/
theorem Table.toList_madeName (v : Nat)
    : (madeName v).toList = 'T' :: '_' :: Nat.toDigits 10 v := by
  rw [madeName, String.toList_append]
  exact congrArg ('T' :: '_' :: ·) String.toList_ofList

/-- A made name begins with a letter that begins no numeral and no word of a type. -/
theorem Ty.isVariableName_madeName (v : Nat) : IsVariableName (Table.madeName v) := by
  have chars := Table.toList_madeName v
  have other {word : String} (start : word.toList.head? ≠ some 'T') : word ≠ Table.madeName v := by
    rintro rfl
    rw [chars] at start
    exact start rfl
  refine ⟨⟨⟨?_, ?_, ?_⟩, ?_⟩, ?_, ?_⟩
  · rw [chars]
    nofun
  · rw [chars]
    simp
  · intro c member
    rw [chars] at member
    rcases List.mem_cons.mp member with rfl | later
    · decide
    · rcases List.mem_cons.mp later with rfl | inNumber
      · decide
      · have digit := Nat.isDigit_of_mem_toDigits (by decide) (by decide) inNumber
        exact (Numeral.wordChar_of_numeralChar (Numeral.numeralChar_of_digit digit)).1
  · rw [chars]
    rfl
  · rw [Atomic.ofName?, List.find?_eq_none]
    intro a _ same
    refine other ?_ (of_decide_eq_true same)
    cases a <;> decide
  · intro isMarker
    have start : ∀ word ∈ TypeExpr.markers, word.toList.head? ≠ some 'T' := by
      simp [TypeExpr.markers]
    exact other (start _ isMarker) rfl

namespace Expr

/-- An unbound variable is printed by a name from an annotation or by a made name. -/
theorem isVariableName_nameOf {file : FileId} {text : String} {e : Expr}
    (parsed : parse file text = .ok e) {u : OpenTy} {s' : State}
    (run : e.typeOf .empty .empty = .ok u s') (v : Nat)
    : Ty.IsVariableName (s'.table.nameOf v) := by
  have moves : State.empty.Moves s' := by
    simpa only [run, finalState_ok] using typeOf_onlyMoves e .empty .empty
  have matching :=
    moves.preserves State.Move.namesMatch State.empty_wellFormed State.empty_namesMatch
  rw [Table.nameOf_eq]
  cases named : s'.table.name? v with
  | none => exact Ty.isVariableName_madeName v
  | some name =>
      apply isVariableName_of_parse parsed
      by_contra unwritten
      have unknown := (known_of_typeOf run name).mpr ⟨rfl, unwritten⟩
      rw [(matching name v).mpr named] at unknown
      cases unknown

/-- The inferred type of a parsed source has no wildcards, and only names of type variables. -/
theorem inferred_writable {file : FileId} {text : String} {e : Expr}
    (parsed : parse file text = .ok e) {ty : Ty} (inferred : e.infer = .ok ty)
    : ty.wildcards = 0 ∧ ∀ name ∈ ty.names, Ty.IsVariableName name := by
  have gives := inferIn_gives (e.typeOf_gives _ _ State.empty_wellFormed (State.holdsEnv_empty _))
  cases run : e.inferIn .empty .empty with
  | error error s' =>
      rw [infer, run] at inferred
      cases inferred
  | ok ty' s' =>
      rw [infer, run] at inferred
      cases inferred
      obtain ⟨u, typed, held, rfl⟩ := gives.value run
      obtain ⟨wf', _⟩ := State.Moves.wellFormed_extends
        (inferIn_onlyMoves e .empty .empty) State.empty_wellFormed
      rw [run, finalState_ok] at wf'
      have plain : (s'.table.resolve u).isPlain = true :=
        OpenTy.isPlain_subst (wf'.table.plain_resolveVar _) held.plain
      refine ⟨OpenTy.wildcards_toTy plain _, ?_⟩
      intro name isName
      obtain ⟨v, rfl⟩ := OpenTy.exists_var_of_mem_names plain isName
      exact isVariableName_nameOf parsed typed v

end Expr

/-- The type of a script is that of its expression. -/
theorem Script.exists_of_infer {s : Script} {ty : Ty} (inferred : s.infer = .ok ty)
    : ∃ e, Expr.parse file s.source.text = .ok e ∧ e.infer = .ok ty := by
  rw [infer, parse] at inferred
  cases parsed : Expr.parse file s.source.text with
  | error error =>
      rw [parsed] at inferred
      cases inferred
  | ok e =>
      simp only [parsed, ok_bind] at inferred
      cases typed : e.infer with
      | error error =>
          rw [typed] at inferred
          cases inferred
      | ok ty' =>
          rw [typed] at inferred
          cases inferred
          exact ⟨e, rfl, typed⟩

/-- The printed type of a source text is that of a type without wildcards, and it is parsed as that
type.
-/
theorem inferText_readsBack {text printed : String} (inferred : inferText text = .ok printed)
    : ∃ ty,
        (Script.ofText "<infer>" text).infer = .ok ty
        ∧ printed = ty.text
        ∧ ty.wildcards = 0
        ∧ ∀ file, ∃ t, TypeExpr.parse file printed = .ok t ∧ t.ty = ty := by
  cases typed : (Script.ofText "<infer>" text).infer with
  | error failure =>
      rw [inferText, typed] at inferred
      cases inferred
  | ok ty =>
      rw [inferText, typed] at inferred
      cases inferred
      obtain ⟨e, parsed, inferred⟩ := Script.exists_of_infer typed
      obtain ⟨closed, names⟩ := Expr.inferred_writable parsed inferred
      exact ⟨ty, rfl, rfl, closed, TypeExpr.parse_text closed names⟩

/-- Procedures as parameters, one of them without parameters, and both a written and a made name. -/
def thunkSource : String := "(lambda ((f : (Empty -> A)) g (y : B)) (g y (f)))"

def thunkType : String := "((Empty -> T_4) * (B * T_4 -> T_5) * B -> T_5)"

/-- The type of a procedure without parameters, for which there is a word of its own. -/
theorem inferText_readsBack_thunk
    : inferText thunkSource = .ok thunkType
      ∧ ∃ ty t,
          (Script.ofText "<infer>" thunkSource).infer = .ok ty
          ∧ TypeExpr.parse 7 thunkType = .ok t
          ∧ t.ty = ty := by
  have inferred : inferText thunkSource = .ok thunkType := by decide +kernel
  obtain ⟨ty, typed, _, _, reads⟩ := inferText_readsBack inferred
  obtain ⟨t, parsed, same⟩ := reads 7
  exact ⟨inferred, ty, t, typed, parsed, same⟩

end TypedScheme
