import TypedScheme.Proofs.Expr.Data
import TypedScheme.Proofs.Expr.Spans

/-! The language, as a grammar of data that says nothing of what they are read as.
Main statement: the data of the grammar are exactly those that are read, and no two of them that
differ are read as the same expression.
-/

namespace TypedScheme

-----------------------------------------------------------------------------------------
-- Types
-----------------------------------------------------------------------------------------

namespace TypeExpr

def atomicNames : List String := ["number", "boolean", "string", "void"]

/-- Such a symbol is neither a type variable nor a declared variable. -/
def reservedNames : List String := [":", "->", "*", "Empty"] ++ atomicNames

/-- The types with a star before each. -/
def starred (others : List (Position × Datum)) : List Datum :=
  others.flatMap fun other => [.symbol other.1 "*", other.2]

/-- The types of the language:
`number`, `boolean`, `string`, `void`, a variable, `(t * ... * t -> t)` or `(Empty -> t)`.
-/
inductive IsType : Datum → Prop
  | atomic (pos : Position) {name : String} (known : name ∈ atomicNames)
    : IsType (.symbol pos name)
  | named (pos : Position) {name : String} (free : name ∉ reservedNames)
    : IsType (.symbol pos name)
  | procedure (pos arrowPos : Position) {first result : Datum} {others : List (Position × Datum)}
    (inFirst : IsType first) (inOthers : ∀ other ∈ others, IsType other.2)
    (inResult : IsType result)
    : IsType (.list pos (first :: (starred others ++ [.symbol arrowPos "->", result])))
  | thunk (pos emptyPos arrowPos : Position) {result : Datum} (inResult : IsType result)
    : IsType (.list pos [.symbol emptyPos "Empty", .symbol arrowPos "->", result])

/-- A name is unknown exactly if no atomic type has it. -/
theorem ofName?_eq_none_iff {name : String}
    : Atomic.ofName? name = none ↔ name ∉ atomicNames := by
  have names : atomicNames = Atomic.all.map Atomic.name := rfl
  simp [Atomic.ofName?, names]

/-- A name is known exactly if an atomic type has it. -/
theorem exists_ofName?_iff {name : String}
    : (∃ a, Atomic.ofName? name = some a) ↔ name ∈ atomicNames := by
  rw [← Option.ne_none_iff_exists', Ne, ofName?_eq_none_iff, not_not]

/-- A name may be used exactly if it is not one of the reserved names. -/
theorem isReserved_eq_false_iff {name : String}
    : isReserved name = false ↔ name ∉ reservedNames := by
  rw [isReserved, Bool.or_eq_false_iff, Option.isSome_eq_false_iff, Option.isNone_iff_eq_none,
    ofName?_eq_none_iff, reservedNames, List.mem_append, not_or]
  simp only [markers, List.contains_eq_mem, decide_eq_false_iff_not, List.mem_cons,
    List.not_mem_nil]
  tauto

/-- Types between stars and before an arrow are the parameters of a procedure type, by induction on
those after the first one.
-/
theorem exists_signatureWritten {first result : Datum} {others : List (Position × Datum)}
    (inFirst : ∃ t, Written first t) (inOthers : ∀ other ∈ others, ∃ t, Written other.2 t)
    (inResult : ∃ t, Written result t) (arrowPos : Position)
    : ∃ params t,
        SignatureWritten (first :: (starred others ++ [.symbol arrowPos "->", result])) params t := by
  obtain ⟨param, writtenFirst⟩ := inFirst
  induction others generalizing first param with
  | nil =>
      obtain ⟨t, writtenResult⟩ := inResult
      exact ⟨[param], t, .last arrowPos writtenFirst writtenResult⟩
  | cons other others ih =>
      obtain ⟨starPos, d⟩ := other
      obtain ⟨next, writtenNext⟩ := inOthers (starPos, d) (by simp)
      obtain ⟨params, t, rest⟩ :=
        ih (fun other member => inOthers other (by simp [member])) next writtenNext
      exact ⟨param :: params, t, .more starPos writtenFirst rest⟩

/-- Every datum of the type grammar is a written type, by induction on the grammar. -/
theorem IsType.exists_written {d : Datum} (isType : IsType d) : ∃ t, Written d t := by
  induction isType with
  | atomic pos known =>
      obtain ⟨a, isAtomic⟩ := exists_ofName?_iff.mpr known
      exact ⟨_, .atomic pos isAtomic⟩
  | named pos free =>
      rw [← isReserved_eq_false_iff, isReserved, Bool.or_eq_false_iff] at free
      obtain ⟨noMarker, unknown⟩ := free
      exact ⟨_, .named pos (by simpa using unknown) (by simpa using noMarker)⟩
  | procedure pos arrowPos _ _ _ inFirst inOthers inResult =>
      obtain ⟨params, t, written⟩ := exists_signatureWritten inFirst inOthers inResult arrowPos
      exact ⟨_, .procedure pos written⟩
  | thunk pos emptyPos arrowPos _ inResult =>
      obtain ⟨t, written⟩ := inResult
      exact ⟨_, .thunk pos emptyPos arrowPos written⟩

mutual
/-- What a type was written as is in the type grammar, by induction over the written form. -/
theorem Written.isType {d : Datum} {t : TypeExpr} : Written d t → IsType d
  | .atomic pos known => .atomic pos (exists_ofName?_iff.mp ⟨_, known⟩)
  | .named pos unknown noMarker => by
      refine .named pos (isReserved_eq_false_iff.mp ?_)
      simp [isReserved, unknown, noMarker]
  | .thunk pos emptyPos arrowPos inResult => .thunk pos emptyPos arrowPos inResult.isType
  | .procedure pos inside => by
      obtain ⟨arrowPos, first, others, result, rfl, inFirst, inOthers, inResult⟩ := inside.isType
      exact .procedure pos arrowPos inFirst inOthers inResult

/-- A written signature is a first parameter, starred other ones, an arrow and a result, by
induction over the written form.
-/
theorem SignatureWritten.isType {items : List Datum} {params : List TypeExpr} {result : TypeExpr}
    : SignatureWritten items params result
      → ∃ arrowPos first others last,
          items = first :: (starred others ++ [.symbol arrowPos "->", last])
          ∧ IsType first
          ∧ (∀ other ∈ others, IsType other.2)
          ∧ IsType last
  | @SignatureWritten.last arrowPos p d param result inParam inResult =>
      ⟨arrowPos, p, [], d, rfl, inParam.isType, by simp, inResult.isType⟩
  | @SignatureWritten.more starPos p ds param params result inParam others => by
      obtain ⟨arrowPos, next, more, last, rfl, inNext, inMore, inLast⟩ := others.isType
      refine ⟨arrowPos, p, (starPos, next) :: more, last, rfl, inParam.isType, ?_, inLast⟩
      exact List.forall_mem_cons.mpr ⟨inNext, inMore⟩
end

end TypeExpr

-----------------------------------------------------------------------------------------
-- Declarations
-----------------------------------------------------------------------------------------

namespace Declaration

/-- The declarations of the language: `x` or `(x : t)`. -/
inductive IsParam : Datum → Prop
  | plain (pos : Position) {name : String} (free : name ∉ TypeExpr.reservedNames)
    : IsParam (.symbol pos name)
  | typed (pos idPos colonPos : Position) {name : String} {type : Datum}
    (free : name ∉ TypeExpr.reservedNames) (inType : TypeExpr.IsType type)
    : IsParam (.list pos [.symbol idPos name, .symbol colonPos ":", type])

/-- Every datum of the parameter grammar is a written declaration. -/
theorem IsParam.exists_written {d : Datum} (isParam : IsParam d) : ∃ x, Written d x := by
  cases isParam with
  | plain pos free => exact ⟨_, .plain pos (TypeExpr.isReserved_eq_false_iff.mpr free)⟩
  | typed pos idPos colonPos free inType =>
      obtain ⟨type, written⟩ := inType.exists_written
      have notReserved := TypeExpr.isReserved_eq_false_iff.mpr free
      exact ⟨_, .typed pos idPos colonPos notReserved written⟩

/-- What a declaration was written as is in the parameter grammar. -/
theorem Written.isParam {d : Datum} {x : Declaration} (written : Written d x) : IsParam d := by
  cases written with
  | plain pos free => exact .plain pos (TypeExpr.isReserved_eq_false_iff.mp free)
  | typed pos idPos colonPos free inType =>
      exact .typed pos idPos colonPos (TypeExpr.isReserved_eq_false_iff.mp free) inType.isType

/-- Data of the parameter grammar are written declarations, by induction on the data. -/
theorem exists_allWritten {ds : List Datum} (areParams : ∀ d ∈ ds, IsParam d)
    : ∃ xs, List.Forall₂ Written ds xs := by
  induction ds with
  | nil => exact ⟨[], .nil⟩
  | cons d ds ih =>
      obtain ⟨x, first⟩ := (areParams d (by simp)).exists_written
      obtain ⟨xs, others⟩ := ih fun d member => areParams d (by simp [member])
      exact ⟨x :: xs, .cons first others⟩

/-- What declarations were written as is in the parameter grammar, by induction on the pairs. -/
theorem areParams_of_written {ds : List Datum} {xs : List Declaration}
    (written : List.Forall₂ Written ds xs)
    : ∀ d ∈ ds, IsParam d := by
  induction written with
  | nil => simp
  | cons first others ih => exact List.forall_mem_cons.mpr ⟨first.isParam, ih⟩

end Declaration

-----------------------------------------------------------------------------------------
-- Expressions and programs
-----------------------------------------------------------------------------------------

namespace Expr

open Declaration

/-- A binding `(x e)` of a `let` or a `letrec`. -/
structure Binding where
  pos : Position
  param : Datum
  value : Datum

def Binding.datum (binding : Binding) : Datum := .list binding.pos [binding.param, binding.value]

/-- The expressions of the language: atoms, the special forms, and applications. A list that begins
with a keyword is no application, and a colon after the parameters of a `lambda` begins its result
type.
-/
inductive IsExpr : Datum → Prop
  | number (pos : Position) (value : Number) : IsExpr (.number pos value)
  | boolean (pos : Position) (value : Bool) : IsExpr (.boolean pos value)
  | string (pos : Position) (value : String) : IsExpr (.string pos value)
  | symbol (pos : Position) (name : String) : IsExpr (.symbol pos name)
  | conditional (pos headPos : Position) {test yes no : Datum} (inTest : IsExpr test)
    (inYes : IsExpr yes) (inNo : IsExpr no)
    : IsExpr (.list pos [.symbol headPos "if", test, yes, no])
  | lambda (pos headPos paramsPos : Position) {params body : List Datum}
    (inParams : ∀ d ∈ params, IsParam d) (inBody : ∀ d ∈ body, IsExpr d) (nonempty : body ≠ [])
    (noColon : ∀ d ∈ body.head?, d.symbol? ≠ some ":")
    : IsExpr (.list pos (.symbol headPos "lambda" :: .list paramsPos params :: body))
  | typedLambda (pos headPos paramsPos colonPos : Position) {type : Datum}
    {params body : List Datum} (inParams : ∀ d ∈ params, IsParam d)
    (inType : TypeExpr.IsType type) (inBody : ∀ d ∈ body, IsExpr d) (nonempty : body ≠ [])
    : IsExpr
        (.list pos (.symbol headPos "lambda" :: .list paramsPos params :: .symbol colonPos ":"
          :: type :: body))
  | bindingForm (pos headPos bindingsPos : Position) {form : String}
    (isForm : form = "let" ∨ form = "letrec") {bindings : List Binding} {body : List Datum}
    (inParams : ∀ binding ∈ bindings, IsParam binding.param)
    (inValues : ∀ binding ∈ bindings, IsExpr binding.value) (inBody : ∀ d ∈ body, IsExpr d)
    (nonempty : body ≠ [])
    : IsExpr
        (.list pos (.symbol headPos form :: .list bindingsPos (bindings.map Binding.datum) :: body))
  | define (pos headPos : Position) {param value : Datum} (inParam : IsParam param)
    (inValue : IsExpr value)
    : IsExpr (.list pos [.symbol headPos "define", param, value])
  | quote (pos headPos : Position) (d : Datum) : IsExpr (.list pos [.symbol headPos "quote", d])
  | assign (pos headPos idPos : Position) (name : String) {value : Datum} (inValue : IsExpr value)
    : IsExpr (.list pos [.symbol headPos "set!", .symbol idPos name, value])
  | application (pos : Position) {operator : Datum} {operands : List Datum}
    (noKeyword : ∀ name ∈ keywords, operator.symbol? ≠ some name) (inOperator : IsExpr operator)
    (inOperands : ∀ d ∈ operands, IsExpr d)
    : IsExpr (.list pos (operator :: operands))

/-- The programs of the language: `(L5 e ...)`. -/
inductive IsProgram : Datum → Prop
  | program (pos headPos : Position) {exprs : List Datum} (inside : ∀ d ∈ exprs, IsExpr d)
    (nonempty : exprs ≠ [])
    : IsProgram (.list pos (.symbol headPos "L5" :: exprs))

/-- Data each of which is a written expression are written expressions together, by induction on the
data.
-/
theorem exists_allWritten {ds : List Datum} (each : ∀ d ∈ ds, ∃ e, Written d e)
    : ∃ es, AllWritten ds es := by
  induction ds with
  | nil => exact ⟨[], .nil⟩
  | cons d ds ih =>
      obtain ⟨e, first⟩ := each d (by simp)
      obtain ⟨es, others⟩ := ih fun d member => each d (by simp [member])
      exact ⟨e :: es, .cons first others⟩

/-- Bindings of the grammar are written bindings if their values are written expressions, by
induction on the bindings.
-/
theorem exists_bindingsWritten {bindings : List Binding}
    (inParams : ∀ binding ∈ bindings, IsParam binding.param)
    (inValues : ∀ binding ∈ bindings, ∃ e, Written binding.value e)
    : ∃ written, BindingsWritten (bindings.map Binding.datum) written := by
  induction bindings with
  | nil => exact ⟨[], .nil⟩
  | cons binding bindings ih =>
      obtain ⟨x, inParam⟩ := (inParams binding (by simp)).exists_written
      obtain ⟨e, inValue⟩ := inValues binding (by simp)
      obtain ⟨written, others⟩ := ih (fun binding member => inParams binding (by simp [member]))
        (fun binding member => inValues binding (by simp [member]))
      exact ⟨(x, e) :: written, .cons binding.pos inParam inValue others⟩

/-- Every datum of the expression grammar is a written expression, by induction on the grammar. -/
theorem IsExpr.exists_written {d : Datum} (isExpr : IsExpr d) : ∃ e, Written d e := by
  induction isExpr with
  | number pos value => exact ⟨_, .number pos value⟩
  | boolean pos value => exact ⟨_, .boolean pos value⟩
  | string pos value => exact ⟨_, .string pos value⟩
  | symbol pos name =>
      cases known : Primitive.ofSymbol? name with
      | some op => exact ⟨_, .primitive pos known⟩
      | none => exact ⟨_, .var pos known⟩
  | conditional pos headPos _ _ _ inTest inYes inNo =>
      obtain ⟨test, writtenTest⟩ := inTest
      obtain ⟨yes, writtenYes⟩ := inYes
      obtain ⟨no, writtenNo⟩ := inNo
      exact ⟨_, .conditional pos headPos writtenTest writtenYes writtenNo⟩
  | lambda pos headPos paramsPos inParams _ nonempty noColon inBody =>
      obtain ⟨params, writtenParams⟩ := Declaration.exists_allWritten inParams
      obtain ⟨body, writtenBody⟩ := exists_allWritten inBody
      refine ⟨_, .lambda pos headPos paramsPos writtenParams writtenBody nonempty ?_⟩
      simpa [Datum.isSymbol] using noColon
  | typedLambda pos headPos paramsPos colonPos inParams inType _ nonempty inBody =>
      obtain ⟨params, writtenParams⟩ := Declaration.exists_allWritten inParams
      obtain ⟨result, writtenType⟩ := inType.exists_written
      obtain ⟨body, writtenBody⟩ := exists_allWritten inBody
      exact ⟨_, .typedLambda pos headPos paramsPos colonPos writtenParams writtenType writtenBody
        nonempty⟩
  | bindingForm pos headPos bindingsPos isForm inParams _ _ nonempty inValues inBody =>
      obtain ⟨bindings, writtenBindings⟩ := exists_bindingsWritten inParams inValues
      obtain ⟨body, writtenBody⟩ := exists_allWritten inBody
      rcases isForm with rfl | rfl
      · exact ⟨_, .letIn pos headPos bindingsPos writtenBindings writtenBody nonempty⟩
      · exact ⟨_, .letrec pos headPos bindingsPos writtenBindings writtenBody nonempty⟩
  | define pos headPos inParam _ inValue =>
      obtain ⟨x, writtenParam⟩ := inParam.exists_written
      obtain ⟨value, writtenValue⟩ := inValue
      exact ⟨_, .define pos headPos writtenParam writtenValue⟩
  | quote pos headPos d => exact ⟨_, .quote pos headPos d⟩
  | assign pos headPos idPos name _ inValue =>
      obtain ⟨value, writtenValue⟩ := inValue
      exact ⟨_, .assign pos headPos idPos name writtenValue⟩
  | application pos noKeyword _ _ inOperator inOperands =>
      obtain ⟨operator, writtenOperator⟩ := inOperator
      obtain ⟨operands, writtenOperands⟩ := exists_allWritten inOperands
      refine ⟨_, .application pos writtenOperator writtenOperands ?_⟩
      exact fun name symbol keyword => noKeyword name keyword symbol

mutual
/-- What an expression was written as is in the expression grammar, by induction over the written
form.
-/
theorem Written.isExpr {d : Datum} {e : Expr} : Written d e → IsExpr d
  | .number pos value => .number pos value
  | .boolean pos value => .boolean pos value
  | .string pos value => .string pos value
  | .primitive pos _ | .var pos _ => .symbol pos _
  | .conditional pos headPos inTest inYes inNo =>
      .conditional pos headPos inTest.isExpr inYes.isExpr inNo.isExpr
  | .lambda pos headPos paramsPos inParams inBody nonempty noColon => by
      refine .lambda pos headPos paramsPos (areParams_of_written inParams) inBody.areExprs
        nonempty ?_
      simpa [Datum.isSymbol] using noColon
  | .typedLambda pos headPos paramsPos colonPos inParams inResult inBody nonempty =>
      .typedLambda pos headPos paramsPos colonPos (areParams_of_written inParams)
        inResult.isType inBody.areExprs nonempty
  | .application pos inOperator inOperands noKeyword =>
      .application pos (fun name keyword symbol => noKeyword name symbol keyword)
        inOperator.isExpr inOperands.areExprs
  | .letIn pos headPos bindingsPos inBindings inBody nonempty => by
      obtain ⟨bindings, rfl, inParams, inValues⟩ := inBindings.exists_bindings
      exact .bindingForm pos headPos bindingsPos (.inl rfl) inParams inValues inBody.areExprs
        nonempty
  | .letrec pos headPos bindingsPos inBindings inBody nonempty => by
      obtain ⟨bindings, rfl, inParams, inValues⟩ := inBindings.exists_bindings
      exact .bindingForm pos headPos bindingsPos (.inr rfl) inParams inValues inBody.areExprs
        nonempty
  | .define pos headPos inDeclaration inValue =>
      .define pos headPos inDeclaration.isParam inValue.isExpr
  | .quote pos headPos d => .quote pos headPos d
  | .assign pos headPos idPos name inValue => .assign pos headPos idPos name inValue.isExpr

/-- What expressions were written as is in the expression grammar. -/
theorem AllWritten.areExprs {ds : List Datum} {es : List Expr}
    : AllWritten ds es → ∀ d ∈ ds, IsExpr d
  | .nil => by simp
  | .cons first others => List.forall_mem_cons.mpr ⟨first.isExpr, others.areExprs⟩

/-- What bindings were written as are bindings of the grammar. -/
theorem BindingsWritten.exists_bindings {ds : List Datum} {written : List (Declaration × Expr)}
    : BindingsWritten ds written
      → ∃ bindings : List Binding,
          ds = bindings.map Binding.datum
          ∧ (∀ binding ∈ bindings, IsParam binding.param)
          ∧ ∀ binding ∈ bindings, IsExpr binding.value
  | .nil => ⟨[], rfl, by simp, by simp⟩
  | .cons pos inDeclaration inValue others => by
      obtain ⟨bindings, rfl, inParams, inValues⟩ := others.exists_bindings
      refine ⟨⟨pos, _, _⟩ :: bindings, rfl, ?_, ?_⟩
      · exact List.forall_mem_cons.mpr ⟨inDeclaration.isParam, inParams⟩
      · exact List.forall_mem_cons.mpr ⟨inValue.isExpr, inValues⟩
end

/-- An expression is read exactly from the data of the expression grammar. -/
theorem exists_ofDatum_iff {d : Datum} : (∃ e, ofDatum d = .ok e) ↔ IsExpr d := by
  simp only [ofDatum_eq_ok_iff]
  constructor
  · rintro ⟨e, written⟩
    exact written.isExpr
  · exact IsExpr.exists_written

/-- A source is read exactly from the data of the expression grammar and from programs. -/
theorem exists_ofRootDatum_iff {d : Datum}
    : (∃ e, ofRootDatum d = .ok e) ↔ IsExpr d ∨ IsProgram d := by
  simp only [ofRootDatum_eq_ok_iff]
  constructor
  · rintro ⟨e, written⟩
    cases written with
    | expr written => exact .inl written.isExpr
    | program pos headPos inside nonempty =>
        exact .inr (.program pos headPos inside.areExprs nonempty)
  · rintro (isExpr | ⟨pos, headPos, inside, nonempty⟩)
    · obtain ⟨e, written⟩ := isExpr.exists_written
      exact ⟨e, .expr written⟩
    · obtain ⟨es, written⟩ := exists_allWritten fun d member => (inside d member).exists_written
      exact ⟨_, .program pos headPos written nonempty⟩

/-- A text is parsed exactly if the datum it spells is an expression or a program. -/
theorem exists_parse_iff {file : FileId} {text : String}
    : (∃ e, parse file text = .ok e)
      ↔ ∃ d, Datum.read file text = .ok d ∧ (IsExpr d ∨ IsProgram d) := by
  simp only [parse, bind_eq_ok_iff, ← exists_ofRootDatum_iff]
  rw [exists_comm]
  simp only [exists_and_left]

/-- A list that begins with the keyword of programs is no expression. -/
theorem not_isExpr_program {pos headPos : Position} {ds : List Datum}
    : ¬ IsExpr (.list pos (.symbol headPos "L5" :: ds)) := by
  intro isExpr
  obtain ⟨e, written⟩ := isExpr.exists_written
  exact not_written_program written

-----------------------------------------------------------------------------------------
-- Programs stand at the root
-----------------------------------------------------------------------------------------

/-- No expression inside a source is a program. -/
theorem Written.not_program {d : Datum} {e : Expr} (written : Written d e) (pos : Position)
    (exprs : List Expr)
    : e ≠ .program pos exprs := by
  rintro rfl
  cases written

/-- The parts of a source are written expressions, also where the source is a program. -/
theorem RootWritten.part_written {d : Datum} {e part : Expr} (written : RootWritten d e)
    (member : part ∈ e.parts)
    : ∃ d', Written d' part := by
  cases written with
  | expr written =>
      obtain ⟨d', _, inside⟩ := written.exists_datum member
      exact ⟨d', inside⟩
  | program pos headPos inProgram nonempty =>
      obtain ⟨d', _, inside⟩ := inProgram.exists_datum member
      exact ⟨d', inside⟩

/-- Every expression inside a written one is written, by induction on the way to the part. -/
theorem Written.contained {d : Datum} {e part : Expr} (written : Written d e)
    (contains : e.Contains part)
    : ∃ d', Written d' part := by
  induction contains with
  | refl => exact ⟨d, written⟩
  | tail _ member ih =>
      obtain ⟨_, inside⟩ := ih
      obtain ⟨d', _, further⟩ := inside.exists_datum member
      exact ⟨d', further⟩

/-- The data that are read as expressions are exactly those of the grammar. Data that are read as
equal expressions are equal up to positions. Whole sources may besides be programs; no list that
begins like a program is an expression, and there is no program inside what a source is read as.
-/
theorem language_accepted
    : (∀ d, (∃ e, ofDatum d = .ok e) ↔ IsExpr d)
      ∧ (∀ d d' e e', ofDatum d = .ok e → ofDatum d' = .ok e' → e.same e' = true
          → d.same d' = true)
      ∧ (∀ d, (∃ e, ofRootDatum d = .ok e) ↔ IsExpr d ∨ IsProgram d)
      ∧ (∀ d d' e e', ofRootDatum d = .ok e → ofRootDatum d' = .ok e' → e.same e' = true
          → d.same d' = true)
      ∧ (∀ file text,
          (∃ e, parse file text = .ok e)
          ↔ ∃ d, Datum.read file text = .ok d ∧ (IsExpr d ∨ IsProgram d))
      ∧ (∀ pos headPos ds, ¬ IsExpr (.list pos (.symbol headPos "L5" :: ds)))
      ∧ ∀ file text e, parse file text = .ok e
          → ∀ part ∈ e.parts, ∀ inner, part.Contains inner
          → ∀ pos exprs, inner ≠ .program pos exprs := by
  refine ⟨fun _ => exists_ofDatum_iff, ?_, fun _ => exists_ofRootDatum_iff, ?_,
    fun _ _ => exists_parse_iff, fun _ _ _ => not_isExpr_program, ?_⟩
  · intro d d' e e' read read' equal
    have written : RootWritten d e := .expr (ofDatum_eq_ok_iff.mp read)
    exact written.same (.expr (ofDatum_eq_ok_iff.mp read')) equal
  · intro d d' e e' read read' equal
    exact (ofRootDatum_eq_ok_iff.mp read).same (ofRootDatum_eq_ok_iff.mp read') equal
  · intro file text e parsed part member inner contains
    obtain ⟨d, _, written⟩ := parse_eq_ok_iff.mp parsed
    obtain ⟨_, inPart⟩ := written.part_written member
    obtain ⟨_, inInner⟩ := inPart.contained contains
    exact inInner.not_program

/-- A program of one quotation is accepted, and it is no expression. A quote mark is read as the
same list as the keyword.
-/
theorem language_accepted_quotations
    : (∃ e, parse 1 "(L5 'x)" = .ok e)
      ∧ (∀ pos headPos d, ¬ ∃ e, ofDatum (.list pos [.symbol headPos "L5", d]) = .ok e)
      ∧ ∃ d d',
          Datum.read 1 "'x" = .ok d
          ∧ Datum.read 2 "(quote x)" = .ok d'
          ∧ d.same d' = true := by
  obtain ⟨expressions, determined, _, _, sources, noProgram, _⟩ := language_accepted
  have quotation pos quotePos namePos
      : IsExpr (.list pos [.symbol quotePos "quote", .symbol namePos "x"]) :=
    .quote pos quotePos _
  have read pos quotePos d
      : ofDatum (.list pos [.symbol quotePos "quote", d]) = .ok (.quote pos d) :=
    ofDatum_of_written (.quote pos quotePos d)
  have readMark
      : Datum.read 1 "'x"
        = .ok (.list (some ⟨1, 0, 2⟩)
            [.symbol (some ⟨1, 0, 1⟩) "quote", .symbol (some ⟨1, 1, 2⟩) "x"]) := by
    rfl
  have readKeyword
      : Datum.read 2 "(quote x)"
        = .ok (.list (some ⟨2, 0, 9⟩)
            [.symbol (some ⟨2, 1, 6⟩) "quote", .symbol (some ⟨2, 7, 8⟩) "x"]) := by
    rfl
  refine ⟨?_, ?_, _, _, readMark, readKeyword, ?_⟩
  · refine (sources 1 "(L5 'x)").mpr ⟨_, rfl, .inr (.program _ _ ?_ (by simp))⟩
    exact List.forall_mem_singleton.mpr (quotation _ _ _)
  · intro pos headPos d accepted
    exact noProgram pos headPos [d] ((expressions _).mp accepted)
  · exact determined _ _ _ _ (read _ _ _) (read _ _ _) (by simp [same])

end Expr

end TypedScheme
