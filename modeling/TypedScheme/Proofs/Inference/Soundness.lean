import TypedScheme.Proofs.Inference.Equalities
import TypedScheme.Proofs.Inference.Typing

/-! Inference is sound: what it infers can be derived, once everything is resolved through the table
in which it ends. An equality made on the way is one of all solutions of the table of that time, and
a solution of the final table solves every earlier one.
-/

namespace TypedScheme

namespace Infer

variable {σ : Nat → OpenTy} {ρ : String → OpenTy} {α β : Type}

/-- If the computation succeeds and the solution fits the state in which it ends, then it also fits
the state before, and the value has the property.
-/
def Yields (σ : Nat → OpenTy) (ρ : String → OpenTy) (x : Infer α) (P : α → Prop) : Prop :=
  ∀ s a s',
    s.WellFormed → x s = .ok a s' → s'.WellFormed ∧ (s'.SolvedBy σ ρ → s.SolvedBy σ ρ ∧ P a)

/-- A computation that only moves yields what holds after every success. -/
theorem Yields.of_moves {x : Infer α} {P : α → Prop} (moving : OnlyMoves x)
    (holds : ∀ s a s', s.WellFormed → x s = .ok a s' → s'.SolvedBy σ ρ → P a)
    : Yields σ ρ x P := by
  intro s a s' wf run
  have moves := moving s
  rw [run] at moves
  obtain ⟨wf', later⟩ := moves.wellFormed_extends wf
  exact ⟨wf', fun solved => ⟨solved.of_extends later, holds s a s' wf run solved⟩⟩

/-- What is yielded may be weakened. -/
theorem Yields.imp {x : Infer α} {P Q : α → Prop} (yields : Yields σ ρ x P)
    (implies : ∀ a, P a → Q a)
    : Yields σ ρ x Q := by
  intro s a s' wf run
  obtain ⟨wf', rest⟩ := yields s a s' wf run
  exact ⟨wf', fun solved => ⟨(rest solved).1, implies a (rest solved).2⟩⟩

/-- A value yields what holds of it. -/
theorem yields_pure {a : α} {P : α → Prop} (holds : P a) : Yields σ ρ (pure a) P := by
  intro s b s' wf run
  cases run
  exact ⟨wf, fun solved => ⟨solved, holds⟩⟩

/-- An error yields anything, since it gives no value. -/
theorem yields_throw {e : TypeError} {P : α → Prop} : Yields σ ρ (throw e) P := by
  intro s a s' wf run
  cases run

/-- The second computation may assume what the first one yields: the solution fits the state between
them too.
-/
theorem Yields.bind {x : Infer α} {f : α → Infer β} {P : α → Prop} {Q : β → Prop}
    (first : Yields σ ρ x P) (next : ∀ a, Yields σ ρ (f a) fun b => P a → Q b)
    : Yields σ ρ (x >>= f) Q := by
  intro s b s' wf run
  obtain ⟨a, middle, runFirst, runNext⟩ := run_bind_eq_ok_iff.mp run
  obtain ⟨wfMiddle, early⟩ := first s a middle wf runFirst
  obtain ⟨wf', late⟩ := next a middle b s' wfMiddle runNext
  refine ⟨wf', ?_⟩
  intro solved
  obtain ⟨solvedMiddle, implies⟩ := late solved
  obtain ⟨solvedFirst, holds⟩ := early solvedMiddle
  exact ⟨solvedFirst, implies holds⟩

/-- An attempt yields what the computation does, if there is a value. -/
theorem Yields.attempt {x : Infer α} {P : α → Prop} (yields : Yields σ ρ x P)
    (moving : OnlyMoves x)
    : Yields σ ρ x.attempt fun r => ∀ a, r = .ok a → P a := by
  refine .of_moves moving.attempt ?_
  intro s r s' wf run solved a same
  cases ran : x s with
  | ok b middle =>
      simp only [Infer.attempt, ran] at run
      cases run
      cases same
      exact ((yields s _ _ wf ran).2 solved).2
  | error e middle =>
      simp only [Infer.attempt, ran] at run
      split at run
      · cases run
      · cases run
        cases same

-----------------------------------------------------------------------------------------
-- What the steps of the typing rules yield
-----------------------------------------------------------------------------------------

/-- A note yields nothing in particular. -/
theorem yields_note (shape : String) : Yields σ ρ (note (.typing shape)) fun _ => True :=
  .of_moves (onlyMoves_note shape) fun _ _ _ _ _ _ => trivial

/-- Nor does a fresh variable. -/
theorem yields_fresh : Yields σ ρ fresh fun _ => True :=
  .of_moves onlyMoves_fresh fun _ _ _ _ _ _ => trivial

/-- A result that is passed on was a value. -/
theorem yields_ofExcept (r : Except TypeError α) : Yields σ ρ (ofExcept r) fun a => r = .ok a := by
  cases r with
  | ok a => exact yields_pure rfl
  | error e => exact yields_throw

/-- A unification yields that the solution makes the types equal. -/
theorem yields_unify (a b : OpenTy) (context : Expr)
    : Yields σ ρ (unify a b context) fun _ => a.subst σ = b.subst σ :=
  .of_moves (onlyMoves_unify a b context) fun _ _ _ wf run solved =>
    equal_of_unify wf run solved.table

/-- A comparison yields a type that the solution makes equal to the given one. -/
theorem yields_checkEqual (a : OpenTy) (r : Except TypeError OpenTy) (context : Expr)
    : Yields σ ρ (checkEqual (.ok a) r context) fun _ =>
        ∃ b, r = .ok b ∧ a.subst σ = b.subst σ := by
  refine (yields_ofExcept _).bind fun first => (yields_ofExcept _).bind fun second =>
    (yields_unify first second context).imp ?_
  intro _ equal isSecond isFirst
  cases isFirst
  exact ⟨second, isSecond, equal⟩

/-- Results without errors are their values, by induction on the results. -/
theorem partition_eq_of_no_errors {results : List (Except TypeError α)}
    (none : (partition results).2 = [])
    : results = (partition results).1.map .ok := by
  induction results with
  | nil => rfl
  | cons r results ih =>
      cases r with
      | error e => simp [partition] at none
      | ok a =>
          rw [partition] at none
          rw [partition, List.map_cons, ← ih none]

/-- Results are collected to all their values or to an error with the leaves of all their errors. -/
theorem collect_cases (results : List (Except TypeError α)) (context : Expr)
    : (∃ values, results = values.map .ok ∧ collect results context = pure values)
      ∨ ∃ e,
          collect results context = throw e
          ∧ e.leaves = TypeError.leavesOfAll (partition results).2 := by
  rw [collect]
  split
  · next values parts =>
      have all := partition_eq_of_no_errors (congrArg Prod.snd parts)
      rw [parts] at all
      exact .inl ⟨values, all, rfl⟩
  · next e parts =>
      refine .inr ⟨e, rfl, ?_⟩
      rw [parts, TypeError.leavesOfAll, TypeError.leavesOfAll, List.append_nil]
  · next errors _ _ parts =>
      refine .inr ⟨_, rfl, ?_⟩
      rw [parts, TypeError.leaves]

/-- Collected results were all values. -/
theorem yields_collect (results : List (Except TypeError α)) (context : Expr)
    : Yields σ ρ (collect results context) fun values => results = values.map .ok := by
  rw [collect]
  split
  · next values parts =>
      have all := partition_eq_of_no_errors (congrArg Prod.snd parts)
      rw [parts] at all
      exact yields_pure all
  · exact yields_throw
  · exact yields_throw

-----------------------------------------------------------------------------------------
-- Written types
-----------------------------------------------------------------------------------------

/-- The variable of a name yields what the name is annotated as. -/
theorem yields_named (name : String)
    : Yields σ ρ (ofState (·.named name)) fun a => Annotates ρ (.named name) (a.subst σ) := by
  refine .of_moves (onlyMoves_convert (.named name)) ?_
  intro s a s' wf run solved
  obtain ⟨rfl, rfl⟩ : (s.named name).1 = a ∧ (s.named name).2 = s' := EStateM.Result.ok.inj run
  obtain ⟨v, isVar, known⟩ := s.lookup_named name
  rw [isVar, OpenTy.subst_var, solved.names known]
  exact .named name

/-- Conversions yield what the types are annotated as if each of them does, by induction on the
types.
-/
theorem yields_convertAll_of {tys : List Ty}
    (each : ∀ ty ∈ tys, Yields σ ρ (convert ty) fun a => Annotates ρ ty (a.subst σ))
    : Yields σ ρ (convertAll tys) fun as =>
        List.Forall₂ (Annotates ρ) tys (as.map (OpenTy.subst σ)) := by
  induction tys with
  | nil => exact yields_pure .nil
  | cons ty tys ih =>
      rw [convertAll_cons]
      exact (each ty (by simp)).bind fun _ =>
        (ih fun ty member => each ty (List.mem_cons_of_mem _ member)).bind fun _ =>
          yields_pure fun others first => .cons first others

/-- A converted type stands for the written one, by induction over its parts. -/
theorem yields_convert (ty : Ty)
    : Yields σ ρ (convert ty) fun a => Annotates ρ ty (a.subst σ) := by
  induction ty using Ty.partsInduction with
  | atomic a => exact yields_pure (OpenTy.subst_atomic σ a ▸ .atomic a)
  | named name => exact yields_named name
  | wildcard => exact yields_fresh.imp fun _ _ => .wildcard _
  | procedure params result ihParams ihResult =>
      rw [convert_procedure]
      refine (yields_convertAll_of ihParams).bind fun _ => ihResult.bind fun _ => yields_pure ?_
      intro ofResult ofParams
      rw [OpenTy.subst_procedure]
      exact .procedure ofParams ofResult

/-- The parts of a procedure type stand for the types that a lambda expression declares. -/
structure Signed (σ : Nat → OpenTy) (ρ : String → OpenTy) (params : List Declaration)
    (result : TypeExpr) (sig : List OpenTy × OpenTy)
    : Prop where
  params : List.Forall₂ (Annotates ρ) (declaredTypes params) (sig.1.map (OpenTy.subst σ))
  result : Annotates ρ result.ty (sig.2.subst σ)

/-- The value of the binding is a lambda expression with this signature. -/
def SignedValue (σ : Nat → OpenTy) (ρ : String → OpenTy) (binding : Declaration × Expr)
    (sig : List OpenTy × OpenTy)
    : Prop :=
  ∃ pos params result body,
    binding.2 = .lambda pos params result body ∧ Signed σ ρ params result sig

/-- A signature yields what its parameters and its result are annotated as. -/
theorem yields_signature (params : List Declaration) (result : TypeExpr)
    : Yields σ ρ (signature params result) (Signed σ ρ params result) :=
  (yields_convertAll_of fun ty _ => yields_convert ty).bind fun _ =>
    (yields_convert _).bind fun _ => yields_pure fun ofResult ofParams => ⟨ofParams, ofResult⟩

/-- Every lambda expression among the bindings has its signature, by induction on them. -/
theorem yields_signatures (bindings : List (Declaration × Expr))
    (procedures : ∀ binding ∈ bindings, isLambda binding.2 = true)
    : Yields σ ρ (signatures bindings) (List.Forall₂ (SignedValue σ ρ) bindings) := by
  induction bindings with
  | nil => exact yields_pure .nil
  | cons binding rest ih =>
      obtain ⟨declaration, value⟩ := binding
      have here := procedures (declaration, value) (by simp)
      have tail := ih fun binding member => procedures binding (List.mem_cons_of_mem _ member)
      cases value with
      | lambda pos params result body =>
          exact (yields_signature params result).bind fun _ => tail.bind fun _ =>
            yields_pure fun others first => .cons ⟨pos, params, result, body, rfl, first⟩ others
      | number | boolean | string | primitive | var | conditional | application | letIn | letrec
      | define | program | quote | assign => cases here

end Infer

-----------------------------------------------------------------------------------------
-- The typing rules
-----------------------------------------------------------------------------------------

namespace Expr

open Infer

variable {σ : Nat → OpenTy} {ρ : String → OpenTy}

/-- What is inferred for the expression can be derived, in every environment. -/
def TypingYields (σ : Nat → OpenTy) (ρ : String → OpenTy) (e : Expr) : Prop :=
  ∀ env, Yields σ ρ (e.typeOf env) fun u => HasType ρ (env.map (OpenTy.subst σ)) e (u.subst σ)

/-- An attempt at an expression yields a typing, if there is a type. -/
theorem TypingYields.attempt {e : Expr} (yields : e.TypingYields σ ρ) (env : TypeEnv)
    : Yields σ ρ (Infer.attempt (e.typeOf env)) fun r =>
        ∀ u, r = .ok u → HasType ρ (env.map (OpenTy.subst σ)) e (u.subst σ) :=
  (yields env).attempt (e.typeOf_onlyMoves env)

/-- A body yields a typing if its expressions do, by induction on the expressions. -/
theorem typeOfBody_yields {es : List Expr} (each : ∀ e ∈ es, e.TypingYields σ ρ) (env : TypeEnv)
    (context : Expr)
    : Yields σ ρ (typeOfBody env context es) fun u =>
        BodyHasType ρ (env.map (OpenTy.subst σ)) es (u.subst σ) := by
  induction es with
  | nil => exact yields_throw
  | cons e es ih =>
      have head := each e (by simp) env
      cases es with
      | nil => exact head.imp fun _ ofLast => .last ofLast
      | cons next rest =>
          have tail := ih fun e member => each e (List.mem_cons_of_mem _ member)
          exact head.bind fun _ => tail.imp fun _ ofRest ofFirst => .next ofFirst ofRest

/-- An attempt at a body yields a typing, if there is a type. -/
theorem attemptBody_yields {es : List Expr} (each : ∀ e ∈ es, e.TypingYields σ ρ) (env : TypeEnv)
    (context : Expr)
    : Yields σ ρ (attempt (typeOfBody env context es)) fun r =>
        ∀ u, r = .ok u → BodyHasType ρ (env.map (OpenTy.subst σ)) es (u.subst σ) :=
  (typeOfBody_yields each env context).attempt
    (typeOfBody_onlyMoves (fun e _ => e.typeOf_onlyMoves) env context)

/-- Expressions one after the other yield typings if each of them does, by induction on the
expressions.
-/
theorem typeOfEach_yields {es : List Expr} (each : ∀ e ∈ es, e.TypingYields σ ρ) (env : TypeEnv)
    : Yields σ ρ (typeOfEach env es) fun results =>
        ∀ us : List OpenTy, results = us.map .ok
        → EachHasType ρ (env.map (OpenTy.subst σ)) es (us.map (OpenTy.subst σ)) := by
  induction es with
  | nil =>
      refine yields_pure ?_
      intro us none
      cases us with
      | nil => exact .nil
      | cons u us => cases none
  | cons e es ih =>
      have head := (each e (by simp)).attempt env
      have tail := ih fun e member => each e (List.mem_cons_of_mem _ member)
      refine head.bind fun first => tail.bind fun others => yields_pure ?_
      intro ofRest ofFirst us same
      cases us with
      | nil => cases same
      | cons u us =>
          obtain ⟨isFirst, areOthers⟩ := List.cons.inj same
          exact .cons (ofFirst u isFirst) (ofRest us areOthers)

/-- The declared types of a `let` stand for the written ones, and the values have these types. -/
def BindingsTyped (σ : Nat → OpenTy) (ρ : String → OpenTy) (Γ : TypeEnv)
    (bindings : List (Declaration × Expr)) (declared : List (String × OpenTy))
    : Prop :=
  ∃ us : List OpenTy,
    declared = (declaredNames (bindings.map (·.1))).zip us
    ∧ List.Forall₂ (Annotates ρ) (declaredTypes (bindings.map (·.1))) (us.map (OpenTy.subst σ))
    ∧ EachHasType ρ Γ (bindings.map (·.2)) (us.map (OpenTy.subst σ))

/-- Bindings yield typings of their values if these do, by induction on the bindings. -/
theorem checkBindings_yields {bindings : List (Declaration × Expr)}
    (each : ∀ binding ∈ bindings, binding.2.TypingYields σ ρ) (env : TypeEnv)
    : Yields σ ρ (checkBindings env bindings) fun checks =>
        ∀ declared : List (String × OpenTy), checks = declared.map .ok
        → BindingsTyped σ ρ (env.map (OpenTy.subst σ)) bindings declared := by
  induction bindings with
  | nil =>
      refine yields_pure ?_
      intro declared none
      cases declared with
      | nil => exact ⟨[], rfl, .nil, .nil⟩
      | cons first rest => cases none
  | cons binding rest ih =>
      obtain ⟨declaration, value⟩ := binding
      have head := (each (declaration, value) (by simp)).attempt env
      have tail := ih fun binding member => each binding (List.mem_cons_of_mem _ member)
      refine (yields_convert declaration.type.ty).bind fun u => head.bind fun inferred =>
        ((yields_checkEqual u inferred value).attempt (onlyMoves_checkEqual _ _ _)).bind
          fun checked => tail.bind fun others => yields_pure ?_
      intro ofRest equal ofValue annotates declared same
      cases declared with
      | nil => cases same
      | cons first rest =>
          obtain ⟨isFirst, areOthers⟩ := List.cons.inj same
          obtain ⟨us, names, annotatesRest, ofValues⟩ := ofRest rest areOthers
          cases checked with
          | error e => cases isFirst
          | ok _ =>
              cases isFirst
              obtain ⟨u', isInferred, sameType⟩ := equal () rfl
              refine ⟨u :: us, by rw [names]; rfl, .cons annotates annotatesRest, .cons ?_ ofValues⟩
              rw [sameType]
              exact ofValue u' isInferred

/-- A lambda expression has the type that it declares if its body has the declared result type. -/
theorem hasType_lambda {env : TypeEnv} {pos : Position} {params : List Declaration}
    {result : TypeExpr} {body : List Expr} {sig : List OpenTy × OpenTy} {bodyTy : OpenTy}
    (signed : Signed σ ρ params result sig) (equal : sig.2.subst σ = bodyTy.subst σ)
    (ofBody
      : BodyHasType ρ ((env.extend ((declaredNames params).zip sig.1)).map (OpenTy.subst σ)) body
          (bodyTy.subst σ))
    : HasType ρ (env.map (OpenTy.subst σ)) (.lambda pos params result body)
        ((OpenTy.procedure sig.1 sig.2).subst σ) := by
  rw [Environment.map_extend, ← equal] at ofBody
  rw [OpenTy.subst_procedure]
  exact .lambda signed.params signed.result ofBody

/-- The procedures of a `letrec` have the types of their signatures, by induction on the bindings.
-/
theorem checkProcedures_yields {bindings : List (Declaration × Expr)}
    (each : ∀ binding ∈ bindings, ∀ e ∈ binding.2.procedureBody, e.TypingYields σ ρ)
    (recEnv : TypeEnv) (sigs : List (List OpenTy × OpenTy))
    : Yields σ ρ (checkProcedures recEnv bindings sigs) fun checks =>
        List.Forall₂ (SignedValue σ ρ) bindings sigs
        → ∀ passed : List Unit, checks = passed.map .ok
        → EachHasType ρ (recEnv.map (OpenTy.subst σ)) (bindings.map (·.2))
            ((sigs.map fun (params, result) => .procedure params result).map
              (OpenTy.subst σ)) := by
  induction bindings generalizing sigs with
  | nil =>
      refine yields_pure ?_
      intro signed passed same
      cases signed
      exact .nil
  | cons binding rest ih =>
      obtain ⟨declaration, value⟩ := binding
      have here := each (declaration, value) (by simp)
      have tail := ih fun binding member => each binding (List.mem_cons_of_mem _ member)
      cases value with
      | lambda pos params result body =>
          cases sigs with
          | nil =>
              refine yields_pure ?_
              intro signed
              cases signed
          | cons sig sigs =>
              refine (attemptBody_yields here _ _).bind fun bodyTy =>
                ((yields_checkEqual sig.2 bodyTy _).attempt (onlyMoves_checkEqual _ _ _)).bind
                  fun checked => (tail sigs).bind fun others => yields_pure ?_
              intro ofRest equal ofBody signed passed same
              cases signed with
              | cons signedFirst signedRest =>
                  cases passed with
                  | nil => cases same
                  | cons first passed =>
                      obtain ⟨isFirst, areOthers⟩ := List.cons.inj same
                      obtain ⟨u, isBody, sameType⟩ := equal first isFirst
                      obtain ⟨_, _, _, _, isLambda, signedHere⟩ := signedFirst
                      cases isLambda
                      exact .cons (hasType_lambda signedHere sameType (ofBody u isBody))
                        (ofRest signedRest passed areOthers)
      | number | boolean | string | primitive | var | conditional | application | letIn | letrec
      | define | program | quote | assign =>
          refine yields_pure ?_
          intro signed
          cases signed with
          | cons signedFirst _ =>
              obtain ⟨_, _, _, _, isLambda, _⟩ := signedFirst
              cases isLambda

/-- Inference yields derivable types, by induction over the expression. In each case the facts come
in the order opposite to that of the steps that yield them.
-/
theorem typeOf_yields (e : Expr) : e.TypingYields σ ρ := by
  induction e using partsInduction with
  | number | boolean | string | define =>
      intro env
      refine (yields_note _).bind fun _ => yields_pure fun _ => ?_
      rw [OpenTy.subst_atomic]
      constructor
  | program | quote | assign =>
      intro env
      exact (yields_note _).bind fun _ => yields_throw
  | primitive pos op =>
      intro env
      refine (yields_note _).bind fun _ => .of_moves (onlyMoves_instantiate op) ?_
      intro s u s' wf run solved _
      cases run
      rw [OpenTy.subst_subst]
      exact .primitive _
  | var pos id =>
      intro env
      refine (yields_note _).bind fun _ => ?_
      cases found : env.get? id.name with
      | some u =>
          refine yields_pure fun _ => .var ?_
          rw [Environment.get?_map, found, Option.map_some]
      | none => exact yields_throw
  | conditional pos test yes no ihTest ihYes ihNo =>
      intro env
      refine (yields_note _).bind fun _ =>
        (ihTest.attempt env).bind fun _ =>
          (ihYes.attempt env).bind fun _ =>
            (ihNo.attempt env).bind fun _ =>
              (yields_checkEqual _ _ _).bind fun _ =>
                (yields_ofExcept _).bind fun yesTy =>
                  (yields_checkEqual _ _ _).bind fun _ => yields_pure ?_
      rintro ⟨noTy, isNo, sameNo⟩ isYes ⟨testTy, isTest, sameTest⟩ ofNo ofYes ofTest _
      refine .conditional ?_ (ofYes yesTy isYes) ?_
      · rw [← OpenTy.subst_atomic σ, sameTest]
        exact ofTest testTy isTest
      · rw [sameNo]
        exact ofNo noTy isNo
  | lambda pos params result body ihBody =>
      intro env
      refine (yields_note _).bind fun _ =>
        (yields_signature params result).bind fun _ =>
          (attemptBody_yields ihBody _ _).bind fun _ =>
            (yields_checkEqual _ _ _).bind fun _ => yields_pure ?_
      rintro ⟨bodyTy, isBody, sameType⟩ ofBody signed _
      exact hasType_lambda signed sameType (ofBody bodyTy isBody)
  | application pos operator operands ihOperator ihOperands =>
      intro env
      refine (yields_note _).bind fun _ =>
        (ihOperator env).bind fun _ =>
          (typeOfEach_yields ihOperands env).bind fun _ =>
            (yields_collect _ _).bind fun operandTys =>
              yields_fresh.bind fun _ =>
                (yields_unify _ _ _).bind fun _ => yields_pure ?_
      intro sameOperator _ areOperands ofOperands ofOperator _
      rw [sameOperator, OpenTy.subst_procedure] at ofOperator
      exact .application ofOperator (ofOperands operandTys areOperands)
  | letIn pos bindings body ihBindings ihBody =>
      intro env
      refine (yields_note _).bind fun _ =>
        (checkBindings_yields ihBindings env).bind fun _ =>
          (yields_collect _ _).bind fun declared => (typeOfBody_yields ihBody _ _).imp ?_
      intro u ofBody areDeclared ofBindings _
      obtain ⟨us, names, annotates, ofValues⟩ := ofBindings declared areDeclared
      rw [names, Environment.map_extend] at ofBody
      exact .letIn annotates ofValues ofBody
  | letrec pos bindings body ihProcedures ihBody =>
      intro env
      refine (yields_note _).bind fun _ => ?_
      dsimp only
      split
      · next all =>
          have procedures := List.all_eq_true.mp all
          refine (yields_signatures bindings procedures).bind fun _ =>
            (checkProcedures_yields ihProcedures _ _).bind fun _ =>
              (yields_collect _ _).bind fun passed => (typeOfBody_yields ihBody _ _).imp ?_
          intro u ofBody arePassed ofProcedures signed _
          have ofValues := ofProcedures signed passed arePassed
          rw [Environment.map_extend] at ofBody ofValues
          exact .letrec procedures ofValues ofBody
      · exact yields_throw

/-- Resolution through the final table is one of its solutions. -/
theorem hasType_resolve {s s' : State} {env : TypeEnv} {e : Expr} {u : OpenTy} (wf : s.WellFormed)
    (run : e.typeOf env s = .ok u s')
    : HasType s'.annotation (env.map s'.table.resolve) e (s'.table.resolve u) := by
  obtain ⟨wf', derives⟩ := e.typeOf_yields env s u s' wf run
  have derived := (derives wf'.solvedBy_resolve).2
  have resolves : OpenTy.subst (fun v => s'.table.resolve (.var v)) = s'.table.resolve :=
    funext fun ty => (Table.resolve_eq_subst s'.table ty).symm
  rw [resolves] at derived
  exact derived

/-- If the inference of an expression succeeds in a reachable state, then the expression has the
inferred type, with the environment, the types of names and the inferred type all resolved through
the table in which the inference ends.
-/
theorem hasType_of_typeOf {s s' : State} {env : TypeEnv} {e : Expr} {u : OpenTy}
    (reachable : s.Reachable) (run : e.typeOf env s = .ok u s')
    : HasType s'.annotation (env.map s'.table.resolve) e (s'.table.resolve u) :=
  hasType_resolve reachable.wellFormed run

/-- A procedure that calls itself on its parameter, whose type is written as a name and whose result
type is not written, and is then called on a string.
-/
def loop : Expr :=
  .letrec none
    [(⟨⟨"f", none⟩, .missing⟩,
      .lambda none [⟨⟨"n", none⟩, .named none "T"⟩] .missing
        [.conditional none (.application none (.primitive none .isList) [.var none ⟨"n", none⟩])
          (.application none (.var none ⟨"f", none⟩) [.var none ⟨"n", none⟩])
          (.var none ⟨"x", none⟩)])]
    [.application none (.var none ⟨"f", none⟩) [.string none "a"]]

/-- The result of the procedure is a variable of the environment that was bound before. -/
theorem hasType_of_typeOf_loop
    : ∃ s s' u,
        s.Reachable
        ∧ loop.typeOf (.ofList [("x", .var 0)]) s = .ok u s'
        ∧ (s'.annotation "T" = .atomic .string
          ∧ s'.table.resolve u = .procedure [.var 1] (.var 1))
        ∧ HasType s'.annotation ((Environment.ofList [("x", .var 0)]).map s'.table.resolve) loop
            (s'.table.resolve u) := by
  have reachable
      : (finalState (Infer.unify (.var 0) (.procedure [.var 1] (.var 1)) loop
          (State.empty.freshMany 2))).Reachable :=
    ⟨[.fresh, .fresh, .unify (.var 0) (.procedure [.var 1] (.var 1)) loop], [], rfl⟩
  have succeeded
      : SucceededWith
          (fun u s' =>
            s'.annotation "T" = .atomic .string
            ∧ s'.table.resolve u = .procedure [.var 1] (.var 1))
          (loop.typeOf (.ofList [("x", .var 0)])
            (finalState (Infer.unify (.var 0) (.procedure [.var 1] (.var 1)) loop
              (State.empty.freshMany 2)))) := by
    decide +kernel
  obtain ⟨u, s', run, types⟩ := succeeded.exists_ok
  exact ⟨_, s', u, reachable, run, types, hasType_of_typeOf reachable run⟩

end Expr

end TypedScheme
