import TypedScheme.Proofs.Inference.FreeVariables

/-! Inferences that succeed, as derivations.
A derivation holds the derivations of all parts and the states between them, with one rule per kind
of expression. Nothing that failed is in it: once a part has failed, the whole inference fails.
-/

namespace TypedScheme

open Infer

/-- The state once the log tells that the type of the expression is being inferred. -/
def State.typing (s : State) (e : Expr) : State :=
  { s with log := s.log.push (.typing e.shape) }

namespace Expr

/-- What a `letrec` declares, if its procedures have these signatures. -/
def declaredProcedures (bindings : List (Declaration × Expr)) (sigs : List (List OpenTy × OpenTy))
    : List (String × OpenTy) :=
  (declaredNames (bindings.map (·.1))).zip (sigs.map fun sig => .procedure sig.1 sig.2)

mutual
/-- The inference of the expression, started in the first state, gives the type and ends in the last
state.
-/
inductive Infers : TypeEnv → Expr → State → OpenTy → State → Prop
  | noted {env : TypeEnv} {e : Expr} {s s' : State} {u : OpenTy}
      (byRule : RuleInfers env e (s.typing e) u s')
    : Infers env e s u s'

/-- The same, after the log has been told. -/
inductive RuleInfers : TypeEnv → Expr → State → OpenTy → State → Prop
  | number {env : TypeEnv} {pos : Position} {value : Number} {s : State}
    : RuleInfers env (.number pos value) s (.atomic .number) s
  | boolean {env : TypeEnv} {pos : Position} {value : Bool} {s : State}
    : RuleInfers env (.boolean pos value) s (.atomic .boolean) s
  | string {env : TypeEnv} {pos : Position} {value : String} {s : State}
    : RuleInfers env (.string pos value) s (.atomic .string) s
  | primitive {env : TypeEnv} {pos : Position} {op : Primitive} {s : State}
    : RuleInfers env (.primitive pos op) s (s.instantiate op).1 (s.instantiate op).2
  | var {env : TypeEnv} {pos : Position} {id : Identifier} {s : State} {u : OpenTy}
      (found : env.get? id.name = some u)
    : RuleInfers env (.var pos id) s u s
  | conditional {env : TypeEnv} {pos : Position} {test yes no : Expr}
      {s s₁ s₂ s₃ s₄ s' : State} {testTy u noTy : OpenTy}
      (inTest : Infers env test s testTy s₁) (inYes : Infers env yes s₁ u s₂)
      (inNo : Infers env no s₂ noTy s₃)
      (sameTest : unify (.atomic .boolean) testTy (.conditional pos test yes no) s₃ = .ok () s₄)
      (sameNo : unify u noTy (.conditional pos test yes no) s₄ = .ok () s')
    : RuleInfers env (.conditional pos test yes no) s u s'
  | lambda {env : TypeEnv} {pos : Position} {params : List Declaration} {result : TypeExpr}
      {body : List Expr} {s s₁ s₂ s' : State} {paramTys : List OpenTy} {resultTy bodyTy : OpenTy}
      (signed : signature params result s = .ok (paramTys, resultTy) s₁)
      (inBody : BodyInfers (env.extend ((declaredNames params).zip paramTys)) body s₁ bodyTy s₂)
      (same : unify resultTy bodyTy (.lambda pos params result body) s₂ = .ok () s')
    : RuleInfers env (.lambda pos params result body) s (.procedure paramTys resultTy) s'
  | application {env : TypeEnv} {pos : Position} {operator : Expr} {operands : List Expr}
      {s s₁ s₂ s' : State} {u : OpenTy} {us : List OpenTy}
      (inOperator : Infers env operator s u s₁) (inOperands : EachInfers env operands s₁ us s₂)
      (same
        : unify u (.procedure us s₂.fresh.1) (.application pos operator operands) s₂.fresh.2
          = .ok () s')
    : RuleInfers env (.application pos operator operands) s s₂.fresh.1 s'
  | letIn {env : TypeEnv} {pos : Position} {bindings : List (Declaration × Expr)}
      {body : List Expr} {s s₁ s' : State} {declared : List (String × OpenTy)} {u : OpenTy}
      (inBindings : BindingsInfer env bindings s declared s₁)
      (inBody : BodyInfers (env.extend declared) body s₁ u s')
    : RuleInfers env (.letIn pos bindings body) s u s'
  | letrec {env : TypeEnv} {pos : Position} {bindings : List (Declaration × Expr)}
      {body : List Expr} {s s₁ s₂ s' : State} {sigs : List (List OpenTy × OpenTy)} {u : OpenTy}
      (procedures : ∀ binding ∈ bindings, isLambda binding.2 = true)
      (signed : signatures bindings s = .ok sigs s₁)
      (inProcedures
        : ProceduresInfer (env.extend (declaredProcedures bindings sigs)) bindings sigs s₁ s₂)
      (inBody : BodyInfers (env.extend (declaredProcedures bindings sigs)) body s₂ u s')
    : RuleInfers env (.letrec pos bindings body) s u s'
  | define {env : TypeEnv} {pos : Position} {declaration : Declaration} {value : Expr} {s : State}
    : RuleInfers env (.define pos declaration value) s (.atomic .void) s

/-- The types of a body are inferred in order, and the last one is its type. -/
inductive BodyInfers : TypeEnv → List Expr → State → OpenTy → State → Prop
  | last {env : TypeEnv} {e : Expr} {s s' : State} {u : OpenTy} (inLast : Infers env e s u s')
    : BodyInfers env [e] s u s'
  | next {env : TypeEnv} {e next : Expr} {rest : List Expr} {s s₁ s' : State} {ignored u : OpenTy}
      (inFirst : Infers env e s ignored s₁) (inRest : BodyInfers env (next :: rest) s₁ u s')
    : BodyInfers env (e :: next :: rest) s u s'

inductive EachInfers : TypeEnv → List Expr → State → List OpenTy → State → Prop
  | nil {env : TypeEnv} {s : State} : EachInfers env [] s [] s
  | cons {env : TypeEnv} {e : Expr} {es : List Expr} {s s₁ s' : State} {u : OpenTy}
      {us : List OpenTy} (inFirst : Infers env e s u s₁) (inRest : EachInfers env es s₁ us s')
    : EachInfers env (e :: es) s (u :: us) s'

/-- The values of a `let` have the types that it declares. -/
inductive BindingsInfer
    : TypeEnv → List (Declaration × Expr) → State → List (String × OpenTy) → State → Prop
  | nil {env : TypeEnv} {s : State} : BindingsInfer env [] s [] s
  | cons {env : TypeEnv} {declaration : Declaration} {value : Expr}
      {rest : List (Declaration × Expr)} {s s₁ s₂ s' : State} {u : OpenTy}
      {declared : List (String × OpenTy)}
      (inValue : Infers env value (s.convert declaration.type.ty).2 u s₁)
      (same : unify (s.convert declaration.type.ty).1 u value s₁ = .ok () s₂)
      (inRest : BindingsInfer env rest s₂ declared s')
    : BindingsInfer env ((declaration, value) :: rest) s
        ((declaration.id.name, (s.convert declaration.type.ty).1) :: declared) s'

/-- The bodies of the procedures of a `letrec` have the types that their signatures tell. -/
inductive ProceduresInfer
    : TypeEnv → List (Declaration × Expr) → List (List OpenTy × OpenTy) → State → State → Prop
  | nil {env : TypeEnv} {s : State} : ProceduresInfer env [] [] s s
  | cons {env : TypeEnv} {declaration : Declaration} {pos : Position}
      {params : List Declaration} {result : TypeExpr} {body : List Expr}
      {rest : List (Declaration × Expr)} {s s₁ s₂ s' : State} {paramTys : List OpenTy}
      {resultTy bodyTy : OpenTy} {sigs : List (List OpenTy × OpenTy)}
      (inBody : BodyInfers (env.extend ((declaredNames params).zip paramTys)) body s bodyTy s₁)
      (same : unify resultTy bodyTy (.lambda pos params result body) s₁ = .ok () s₂)
      (inRest : ProceduresInfer env rest sigs s₂ s')
    : ProceduresInfer env ((declaration, .lambda pos params result body) :: rest)
        ((paramTys, resultTy) :: sigs) s s'
end

end Expr

-----------------------------------------------------------------------------------------
-- Steps that succeed
-----------------------------------------------------------------------------------------

namespace Infer

variable {α : Type} {s s' : State}

/-- An attempt gives a value exactly if the computation does, with the same final state. -/
theorem attempt_eq_ok_iff {x : Infer α} {a : α}
    : x.attempt s = .ok (.ok a) s' ↔ x s = .ok a s' := by
  cases run : x s with
  | ok b s₁ => simp [attempt, run]
  | error e s₁ =>
      cases fatal : e.isFatal with
      | true | false => simp [attempt, run, fatal]

/-- A result that is passed on was a value, and the state stays as it is. -/
theorem eq_of_ofExcept {r : Except TypeError α} {a : α}
    (run : (ofExcept r : Infer α) s = .ok a s')
    : r = .ok a ∧ s = s' := by
  cases r with
  | error e => cases run
  | ok b =>
      cases run
      exact ⟨rfl, rfl⟩

/-- A successful comparison of a type with a result has unified the type with that of the result. -/
theorem exists_of_checkEqual {a : OpenTy} {r : Except TypeError OpenTy} {context : Expr}
    (run : checkEqual (.ok a) r context s = .ok () s')
    : ∃ b, r = .ok b ∧ unify a b context s = .ok () s' := by
  cases r with
  | error e => cases run
  | ok b => exact ⟨b, rfl, run⟩

/-- Collected results were all values, and the state stays as it is. -/
theorem eq_of_collect {results : List (Except TypeError α)} {context : Expr} {values : List α}
    (run : collect results context s = .ok values s')
    : results = values.map .ok ∧ s = s' := by
  rcases collect_cases results context with ⟨values', all, collected⟩ | ⟨e, collected, _⟩
  · rw [collected] at run
    cases run
    exact ⟨all, rfl⟩
  · rw [collected] at run
    cases run

end Infer

-----------------------------------------------------------------------------------------
-- Every success has a derivation
-----------------------------------------------------------------------------------------

namespace Expr

variable {env : TypeEnv}

def TypingDerived (e : Expr) : Prop :=
  ∀ env s u s', e.typeOf env s = .ok u s' → Infers env e s u s'

/-- A successful body is derived if its expressions are, by induction on the expressions. -/
theorem bodyInfers_of_typeOfBody {es : List Expr} (each : ∀ e ∈ es, e.TypingDerived)
    {context : Expr} {s s' : State} {u : OpenTy}
    (run : typeOfBody env context es s = .ok u s')
    : BodyInfers env es s u s' := by
  induction es generalizing s with
  | nil => cases run
  | cons e rest ih =>
      have first := each e (.head _)
      cases rest with
      | nil => exact .last (first _ _ _ _ run)
      | cons next rest =>
          obtain ⟨ignored, s₁, runFirst, runRest⟩ := run_bind_eq_ok_iff.mp run
          have inRest := ih (fun e member => each e (.tail _ member)) runRest
          exact .next (first _ _ _ _ runFirst) inRest

/-- Successful expressions are derived one after the other if each of them is, by induction on the
expressions.
-/
theorem eachInfers_of_typeOfEach {es : List Expr} (each : ∀ e ∈ es, e.TypingDerived)
    {s s' : State} {us : List OpenTy}
    (run : typeOfEach env es s = .ok (us.map .ok) s')
    : EachInfers env es s us s' := by
  induction es generalizing s us with
  | nil =>
      cases us with
      | nil =>
          cases run
          exact .nil
      | cons u us => cases run
  | cons e es ih =>
      obtain ⟨first, s₁, runFirst, runOthers⟩ := run_bind_eq_ok_iff.mp run
      obtain ⟨others, s₂, runRest, results⟩ := run_bind_eq_ok_iff.mp runOthers
      cases us with
      | nil => cases results
      | cons u us =>
          cases results
          have inFirst := each e (.head _) _ _ _ _ (attempt_eq_ok_iff.mp runFirst)
          exact .cons inFirst (ih (fun e member => each e (.tail _ member)) runRest)

/-- Successful bindings are derived if their values are, by induction on the bindings. -/
theorem bindingsInfer_of_checkBindings {bindings : List (Declaration × Expr)}
    (each : ∀ binding ∈ bindings, binding.2.TypingDerived) {s s' : State}
    {declared : List (String × OpenTy)}
    (run : checkBindings env bindings s = .ok (declared.map .ok) s')
    : BindingsInfer env bindings s declared s' := by
  induction bindings generalizing s declared with
  | nil =>
      cases declared with
      | nil =>
          cases run
          exact .nil
      | cons first others => cases run
  | cons binding rest ih =>
      obtain ⟨declaration, value⟩ := binding
      obtain ⟨written, s₁, runConvert, run⟩ := run_bind_eq_ok_iff.mp run
      obtain ⟨inferred, s₂, runValue, run⟩ := run_bind_eq_ok_iff.mp run
      obtain ⟨checked, s₃, runCheck, run⟩ := run_bind_eq_ok_iff.mp run
      obtain ⟨others, s₄, runRest, results⟩ := run_bind_eq_ok_iff.mp run
      cases runConvert
      cases declared with
      | nil => cases results
      | cons first declared =>
          cases checked with
          | error e => cases results
          | ok passed =>
              cases results
              obtain ⟨u, rfl, same⟩ := exists_of_checkEqual (attempt_eq_ok_iff.mp runCheck)
              have inValue := each _ (.head _) _ _ _ _ (attempt_eq_ok_iff.mp runValue)
              exact .cons inValue same (ih (fun b member => each b (.tail _ member)) runRest)

/-- Successful procedures are derived if the expressions of their bodies are, by induction on the
bindings. There is one signature for each binding.
-/
theorem proceduresInfer_of_checkProcedures {bindings : List (Declaration × Expr)}
    (each : ∀ binding ∈ bindings, ∀ e ∈ binding.2.procedureBody, e.TypingDerived)
    (procedures : ∀ binding ∈ bindings, isLambda binding.2 = true)
    {sigs : List (List OpenTy × OpenTy)} (length : sigs.length = bindings.length) {s s' : State}
    {passed : List Unit}
    (run : checkProcedures env bindings sigs s = .ok (passed.map .ok) s')
    : ProceduresInfer env bindings sigs s s' := by
  induction bindings generalizing s sigs passed with
  | nil =>
      cases List.length_eq_zero_iff.mp length
      obtain ⟨_, rfl⟩ := EStateM.Result.ok.inj run
      exact .nil
  | cons binding rest ih =>
      obtain ⟨declaration, value⟩ := binding
      cases sigs with
      | nil => cases length
      | cons sig sigs =>
          have here := procedures _ (.head _)
          cases value with
          | lambda pos params result body =>
              obtain ⟨bodyTy, s₁, runBody, run⟩ := run_bind_eq_ok_iff.mp run
              obtain ⟨checked, s₂, runCheck, run⟩ := run_bind_eq_ok_iff.mp run
              obtain ⟨others, s₃, runRest, results⟩ := run_bind_eq_ok_iff.mp run
              cases passed with
              | nil => cases results
              | cons first passed =>
                  cases results
                  obtain ⟨u, rfl, same⟩ := exists_of_checkEqual (attempt_eq_ok_iff.mp runCheck)
                  have inBody :=
                    bodyInfers_of_typeOfBody (each _ (.head _)) (attempt_eq_ok_iff.mp runBody)
                  have inRest := ih (fun b member => each b (.tail _ member))
                    (fun b member => procedures b (.tail _ member)) (Nat.succ.inj length) runRest
                  exact .cons inBody same inRest
          | number | boolean | string | primitive | var | conditional | application | letIn
          | letrec | define | program | quote | assign => cases here

/-- Every successful inference is derived, by induction on the parts of the expression. -/
theorem infers_of_typeOf (e : Expr) : e.TypingDerived := by
  induction e using partsInduction with
  | number | boolean | string | define =>
      intro env s u s' run
      cases run
      exact .noted (by constructor)
  | program | quote | assign =>
      intro env s u s' run
      cases run
  | primitive pos op =>
      intro env s u s' run
      cases run
      exact .noted .primitive
  | var pos id =>
      intro env s u s' run
      obtain ⟨_, _, noted, run⟩ := run_bind_eq_ok_iff.mp run
      cases noted
      cases found : env.get? id.name with
      | none =>
          simp only [found] at run
          cases run
      | some ty =>
          simp only [found] at run
          cases run
          exact .noted (.var found)
  | conditional pos test yes no ihTest ihYes ihNo =>
      intro env s u s' run
      obtain ⟨_, _, noted, run⟩ := run_bind_eq_ok_iff.mp run
      cases noted
      obtain ⟨testResult, s₁, runTest, run⟩ := run_bind_eq_ok_iff.mp run
      obtain ⟨yesResult, s₂, runYes, run⟩ := run_bind_eq_ok_iff.mp run
      obtain ⟨noResult, s₃, runNo, run⟩ := run_bind_eq_ok_iff.mp run
      obtain ⟨_, s₄, runSameTest, run⟩ := run_bind_eq_ok_iff.mp run
      obtain ⟨yesTy, s₅, isYes, run⟩ := run_bind_eq_ok_iff.mp run
      obtain ⟨_, s₆, runSameNo, result⟩ := run_bind_eq_ok_iff.mp run
      cases result
      obtain ⟨testTy, rfl, sameTest⟩ := exists_of_checkEqual runSameTest
      obtain ⟨noTy, rfl, sameNo⟩ := exists_of_checkEqual runSameNo
      obtain ⟨rfl, rfl⟩ := eq_of_ofExcept isYes
      have inTest := ihTest _ _ _ _ (attempt_eq_ok_iff.mp runTest)
      have inYes := ihYes _ _ _ _ (attempt_eq_ok_iff.mp runYes)
      have inNo := ihNo _ _ _ _ (attempt_eq_ok_iff.mp runNo)
      exact .noted (.conditional inTest inYes inNo sameTest sameNo)
  | lambda pos params result body ihBody =>
      intro env s u s' run
      obtain ⟨_, _, noted, run⟩ := run_bind_eq_ok_iff.mp run
      cases noted
      obtain ⟨⟨paramTys, resultTy⟩, s₁, signed, run⟩ := run_bind_eq_ok_iff.mp run
      obtain ⟨bodyResult, s₂, runBody, run⟩ := run_bind_eq_ok_iff.mp run
      obtain ⟨_, s₃, runSame, result⟩ := run_bind_eq_ok_iff.mp run
      obtain ⟨bodyTy, rfl, same⟩ := exists_of_checkEqual runSame
      cases result
      have inBody := bodyInfers_of_typeOfBody ihBody (attempt_eq_ok_iff.mp runBody)
      exact .noted (.lambda signed inBody same)
  | application pos operator operands ihOperator ihOperands =>
      intro env s u s' run
      obtain ⟨_, _, noted, run⟩ := run_bind_eq_ok_iff.mp run
      cases noted
      obtain ⟨operatorTy, s₁, runOperator, run⟩ := run_bind_eq_ok_iff.mp run
      obtain ⟨results, s₂, runOperands, run⟩ := run_bind_eq_ok_iff.mp run
      obtain ⟨operandTys, s₃, collected, run⟩ := run_bind_eq_ok_iff.mp run
      obtain ⟨rfl, rfl⟩ := eq_of_collect collected
      obtain ⟨resultTy, s₄, allocated, run⟩ := run_bind_eq_ok_iff.mp run
      cases allocated
      obtain ⟨_, s₅, same, result⟩ := run_bind_eq_ok_iff.mp run
      cases result
      have inOperator := ihOperator _ _ _ _ runOperator
      exact .noted (.application inOperator (eachInfers_of_typeOfEach ihOperands runOperands) same)
  | letIn pos bindings body ihBindings ihBody =>
      intro env s u s' run
      obtain ⟨_, _, noted, run⟩ := run_bind_eq_ok_iff.mp run
      cases noted
      obtain ⟨checks, s₁, runBindings, run⟩ := run_bind_eq_ok_iff.mp run
      obtain ⟨declared, s₂, collected, runBody⟩ := run_bind_eq_ok_iff.mp run
      obtain ⟨rfl, rfl⟩ := eq_of_collect collected
      have inBindings := bindingsInfer_of_checkBindings ihBindings runBindings
      exact .noted (.letIn inBindings (bodyInfers_of_typeOfBody ihBody runBody))
  | letrec pos bindings body ihProcedures ihBody =>
      intro env s u s' run
      obtain ⟨_, _, noted, run⟩ := run_bind_eq_ok_iff.mp run
      cases noted
      dsimp only at run
      split at run
      · next all =>
          obtain ⟨sigs, s₁, signed, run⟩ := run_bind_eq_ok_iff.mp run
          obtain ⟨checks, s₂, runProcedures, run⟩ := run_bind_eq_ok_iff.mp run
          obtain ⟨passed, s₃, collected, runBody⟩ := run_bind_eq_ok_iff.mp run
          obtain ⟨rfl, rfl⟩ := eq_of_collect collected
          have procedures := List.all_eq_true.mp all
          have length := (signed_of_signatures signed all).length_eq
          have inProcedures :=
            proceduresInfer_of_checkProcedures ihProcedures procedures length.symm runProcedures
          have inBody := bodyInfers_of_typeOfBody ihBody runBody
          exact .noted (.letrec procedures signed inProcedures inBody)
      · cases run

end Expr

end TypedScheme
