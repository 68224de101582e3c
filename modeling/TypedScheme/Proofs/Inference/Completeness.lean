import TypedScheme.Proofs.Inference.SolvedStates
import TypedScheme.Proofs.Inference.Soundness

/-! Inference is complete and its types are principal.
A derivation says which types the variables of a run are meant for. So it gives a solution of the
state at every step, and with a solution at hand no unification fails.
-/

namespace TypedScheme

namespace Infer

open SolvedState

variable {ρ : String → OpenTy}

-----------------------------------------------------------------------------------------
-- Written types and operators
-----------------------------------------------------------------------------------------

/-- Types are converted into what they are annotated as if each of them is, by induction on the
pairs.
-/
theorem achieves_convertAll_of {tys : List Ty} {ts : List OpenTy}
    (each : ∀ ty ∈ tys, ∀ t (w : SolvedState ρ),
      Annotates ρ ty t → Achieves w (convert ty) fun w' u => w'.Denotes u t)
    (annotates : List.Forall₂ (Annotates ρ) tys ts) (w : SolvedState ρ)
    : Achieves w (convertAll tys) fun w' us => List.Forall₂ w'.Denotes us ts := by
  induction annotates generalizing w with
  | nil => exact achieves_pure .nil
  | @cons ty t tys ts first _ ih =>
      rw [convertAll_cons]
      refine (each ty (by simp) t w first).bind ?_
      intro u w₁ _ denotes
      refine (ih (fun ty member => each ty (List.mem_cons_of_mem _ member)) w₁).bind ?_
      intro us w₂ grows others
      exact achieves_pure (.cons (denotes.of_grows grows) others)

/-- A written type is converted to a type that denotes what the written one stands for, by induction
over its parts.
-/
theorem achieves_convert (ty : Ty) (t : OpenTy) (w : SolvedState ρ) (annotates : Annotates ρ ty t)
    : Achieves w (convert ty) fun w' u => w'.Denotes u t := by
  induction ty using Ty.partsInduction generalizing t w with
  | atomic a =>
      cases annotates
      exact achieves_pure (w.denotes_atomic a)
  | named name =>
      cases annotates
      exact achieves_named w name
  | wildcard => exact achieves_fresh w t
  | procedure params result ihParams ihResult =>
      cases annotates with
      | procedure eachParam ofResult =>
          rw [convert_procedure]
          refine (achieves_convertAll_of ihParams eachParam w).bind ?_
          intro us w₁ _ ofParams
          refine (ihResult _ w₁ ofResult).bind ?_
          intro u w₂ grows denotes
          have later := ofParams.imp fun _ _ param => param.of_grows grows
          exact achieves_pure (denotes_procedure_iff.mpr ⟨later, denotes⟩)

/-- A signature is converted into what it is annotated as. -/
theorem achieves_signature {params : List Declaration} {result : TypeExpr} {ts : List OpenTy}
    {t : OpenTy} (eachParam : List.Forall₂ (Annotates ρ) (declaredTypes params) ts)
    (ofResult : Annotates ρ result.ty t) (w : SolvedState ρ)
    : Achieves w (signature params result) fun w' sig =>
        w'.Denotes (.procedure sig.1 sig.2) (.procedure ts t) := by
  refine (achieves_convertAll_of (fun ty _ => achieves_convert ty) eachParam w).bind ?_
  intro us w₁ _ ofParams
  refine (achieves_convert result.ty t w₁ ofResult).bind ?_
  intro u w₂ grows denotes
  have later := ofParams.imp fun _ _ param => param.of_grows grows
  exact achieves_pure (denotes_procedure_iff.mpr ⟨later, denotes⟩)

/-- The signatures of lambda expressions denote the types that the expressions have, by induction on
the bindings.
-/
theorem achieves_signatures {bindings : List (Declaration × Expr)} {Γ : TypeEnv}
    {ts : List OpenTy} (procedures : ∀ binding ∈ bindings, isLambda binding.2 = true)
    (ofValues : EachHasType ρ Γ (bindings.map (·.2)) ts) (w : SolvedState ρ)
    : Achieves w (signatures bindings) fun w' sigs =>
        List.Forall₂ w'.Denotes (sigs.map fun (params, result) => .procedure params result) ts := by
  induction bindings generalizing ts w with
  | nil =>
      cases ofValues
      exact achieves_pure .nil
  | cons binding rest ih =>
      obtain ⟨declaration, value⟩ := binding
      obtain ⟨here, proceduresRest⟩ := List.forall_mem_cons.mp procedures
      cases ofValues with
      | cons ofFirst ofRest =>
          cases ofFirst with
          | lambda eachParam ofResult _ =>
              refine (achieves_signature eachParam ofResult w).bind ?_
              intro sig w₁ _ denotes
              refine (ih proceduresRest ofRest w₁).bind ?_
              intro sigs w₂ grows others
              exact achieves_pure (.cons (denotes.of_grows grows) others)
          | number | boolean | string | primitive | var | conditional | application | letIn
          | letrec | define => cases here

/-- The new variables of an operator's type can stand for any instance of the type. -/
theorem achieves_instantiate (op : Primitive) (τ : Nat → OpenTy) (w : SolvedState ρ)
    : Achieves w (ofState (·.instantiate op)) fun w' u => w'.Denotes u (op.scheme.subst τ) := by
  obtain ⟨w', state, size, grows, types⟩ := w.exists_freshMany op.quantified τ
  refine ⟨_, w', by rw [state]; rfl, grows, ⟨?_, ?_, ?_⟩⟩
  · intro v occurs
    obtain ⟨i, inScheme, isNew⟩ := OpenTy.mem_vars_subst occurs
    have inside := scheme_below op i inScheme
    have same : v = w.size + i := by simpa using isNew
    omega
  · exact OpenTy.isPlain_subst (fun _ => OpenTy.isPlain_var _) (scheme_isPlain op)
  · rw [OpenTy.subst_subst]
    apply OpenTy.subst_congr
    intro i inScheme
    rw [OpenTy.subst_var]
    exact types i (scheme_below op i inScheme)

end Infer

-----------------------------------------------------------------------------------------
-- The typing rules
-----------------------------------------------------------------------------------------

namespace Expr

open Infer SolvedState

variable {ρ : String → OpenTy}

/-- If the expression has a type, then inference finds a type that denotes it, in every environment
that denotes the one of the derivation.
-/
def TypingAchieves (ρ : String → OpenTy) (e : Expr) : Prop :=
  ∀ (w : SolvedState ρ) (env Γ : TypeEnv) (t : OpenTy),
    w.DenotesEnv env Γ
    → HasType ρ Γ e t
    → Achieves w (e.typeOf env) fun w' u => w'.Denotes u t

/-- The inference of a body achieves its typing if that of each expression does, by induction on the
expressions.
-/
theorem typeOfBody_achieves {es : List Expr} (each : ∀ e ∈ es, e.TypingAchieves ρ)
    {w : SolvedState ρ} {env Γ : TypeEnv} {t : OpenTy} (denotes : w.DenotesEnv env Γ)
    (derived : BodyHasType ρ Γ es t) (context : Expr)
    : Achieves w (typeOfBody env context es) fun w' u => w'.Denotes u t := by
  induction es generalizing w with
  | nil => cases derived
  | cons e es ih =>
      obtain ⟨head, tail⟩ := List.forall_mem_cons.mp each
      cases derived with
      | last ofLast => exact head w env Γ t denotes ofLast
      | next ofFirst ofRest =>
          refine (head w env Γ _ denotes ofFirst).bind ?_
          intro _ w₁ grows _
          exact ih tail (denotes.of_grows grows) ofRest

/-- The inference of several expressions achieves their typings if that of each does, by induction
on the expressions.
-/
theorem typeOfEach_achieves {es : List Expr} (each : ∀ e ∈ es, e.TypingAchieves ρ)
    {w : SolvedState ρ} {env Γ : TypeEnv} {ts : List OpenTy} (denotes : w.DenotesEnv env Γ)
    (derived : EachHasType ρ Γ es ts)
    : Achieves w (typeOfEach env es) fun w' results =>
        ∃ us : List OpenTy, results = us.map .ok ∧ List.Forall₂ w'.Denotes us ts := by
  induction es generalizing w ts with
  | nil =>
      cases derived
      exact achieves_pure ⟨[], rfl, .nil⟩
  | cons e es ih =>
      obtain ⟨head, tail⟩ := List.forall_mem_cons.mp each
      cases derived with
      | cons ofFirst ofRest =>
          refine (head w env Γ _ denotes ofFirst).attempt.bind ?_
          rintro _ w₁ grows₁ ⟨u, rfl, first⟩
          refine (ih tail (denotes.of_grows grows₁) ofRest).bind ?_
          rintro _ w₂ grows₂ ⟨us, rfl, others⟩
          exact achieves_pure ⟨u :: us, rfl, .cons (first.of_grows grows₂) others⟩

/-- The check of bindings achieves the typings of their values if the inference of each does, by
induction on the bindings.
-/
theorem checkBindings_achieves {bindings : List (Declaration × Expr)}
    (each : ∀ binding ∈ bindings, binding.2.TypingAchieves ρ)
    {w : SolvedState ρ} {env Γ : TypeEnv} {ts : List OpenTy} (denotes : w.DenotesEnv env Γ)
    (annotates : List.Forall₂ (Annotates ρ) (declaredTypes (bindings.map (·.1))) ts)
    (ofValues : EachHasType ρ Γ (bindings.map (·.2)) ts)
    : Achieves w (checkBindings env bindings) fun w' checks =>
        ∃ us : List OpenTy,
          checks = ((declaredNames (bindings.map (·.1))).zip us).map .ok
          ∧ List.Forall₂ w'.Denotes us ts := by
  induction bindings generalizing w ts with
  | nil =>
      cases ofValues
      exact achieves_pure ⟨[], rfl, .nil⟩
  | cons binding rest ih =>
      obtain ⟨declaration, value⟩ := binding
      obtain ⟨head, tail⟩ := List.forall_mem_cons.mp each
      cases annotates with
      | cons annotatesFirst annotatesRest =>
          cases ofValues with
          | cons ofFirst ofRest =>
              refine (achieves_convert declaration.type.ty _ w annotatesFirst).bind ?_
              intro u w₁ grows₁ declared
              have denotes₁ := denotes.of_grows grows₁
              refine (head w₁ env Γ _ denotes₁ ofFirst).attempt.bind ?_
              rintro _ w₂ grows₂ ⟨u', rfl, inferred⟩
              have declared₂ := declared.of_grows grows₂
              refine (achieves_checkEqual declared₂ inferred value).attempt.bind ?_
              rintro _ w₃ grows₃ ⟨_, rfl, _⟩
              have denotes₃ := (denotes₁.of_grows grows₂).of_grows grows₃
              refine (ih tail denotes₃ annotatesRest ofRest).bind ?_
              rintro _ w₄ grows₄ ⟨us, rfl, others⟩
              have declared₄ := (declared₂.of_grows grows₃).of_grows grows₄
              exact achieves_pure ⟨u :: us, rfl, .cons declared₄ others⟩

/-- The bodies of procedures pass the check against signatures that denote the types of the
procedures, by induction on the bindings.
-/
theorem checkProcedures_achieves {bindings : List (Declaration × Expr)}
    (each : ∀ binding ∈ bindings, ∀ e ∈ binding.2.procedureBody, e.TypingAchieves ρ)
    (procedures : ∀ binding ∈ bindings, isLambda binding.2 = true)
    {w : SolvedState ρ} {recEnv Γ : TypeEnv} {sigs : List (List OpenTy × OpenTy)}
    {ts : List OpenTy} (denotes : w.DenotesEnv recEnv Γ)
    (signed
      : List.Forall₂ w.Denotes (sigs.map fun (params, result) => .procedure params result) ts)
    (ofValues : EachHasType ρ Γ (bindings.map (·.2)) ts)
    : Achieves w (checkProcedures recEnv bindings sigs) fun _ checks =>
        ∃ passed : List Unit, checks = passed.map .ok := by
  induction bindings generalizing w sigs ts with
  | nil => exact achieves_pure ⟨[], rfl⟩
  | cons binding rest ih =>
      obtain ⟨declaration, value⟩ := binding
      obtain ⟨head, tail⟩ := List.forall_mem_cons.mp each
      obtain ⟨here, proceduresRest⟩ := List.forall_mem_cons.mp procedures
      cases ofValues with
      | cons ofFirst ofRest =>
          cases sigs with
          | nil => cases signed
          | cons sig sigs =>
              cases signed with
              | cons signedFirst signedRest =>
                  cases ofFirst with
                  | lambda eachParam ofResult ofBody =>
                      obtain ⟨ofParams, declared⟩ := denotes_procedure_iff.mp signedFirst
                      refine (typeOfBody_achieves head (denotes.extend _ ofParams)
                        ofBody _).attempt.bind ?_
                      rintro _ w₁ grows₁ ⟨u, rfl, inferred⟩
                      have declared₁ := declared.of_grows grows₁
                      refine (achieves_checkEqual declared₁ inferred _).attempt.bind ?_
                      rintro _ w₂ grows₂ ⟨_, rfl, _⟩
                      have grows := grows₁.trans grows₂
                      have signed₂ := signedRest.imp fun _ _ sig => sig.of_grows grows
                      refine (ih tail proceduresRest (denotes.of_grows grows) signed₂
                        ofRest).bind ?_
                      rintro _ w₃ _ ⟨passed, rfl⟩
                      exact achieves_pure ⟨() :: passed, rfl⟩
                  | number | boolean | string | primitive | var | conditional | application
                  | letIn | letrec | define => cases here

/-- Inference finds every type that an expression has, by induction over the expression. The
derivation is taken apart along with the run.
-/
theorem typeOf_achieves (e : Expr) : e.TypingAchieves ρ := by
  induction e using partsInduction with
  | number | boolean | string | define =>
      intro w env Γ t denotes derived
      cases derived
      exact (achieves_note w _).bind fun _ w₁ _ _ => achieves_pure (w₁.denotes_atomic _)
  | program | quote | assign =>
      intro w env Γ t denotes derived
      cases derived
  | primitive pos op =>
      intro w env Γ t denotes derived
      cases derived with
      | primitive τ => exact (achieves_note w _).bind fun _ w₁ _ _ => achieves_instantiate op τ w₁
  | var pos id =>
      intro w env Γ t denotes derived
      cases derived with
      | var found =>
          have related := denotes.rel_get? id.name
          rw [found] at related
          refine (achieves_note w _).bind ?_
          intro _ w₁ grows _
          cases here : env.get? id.name with
          | none =>
              rw [here] at related
              cases related
          | some u =>
              rw [here] at related
              cases related with
              | some denotesVar => exact achieves_pure (denotesVar.of_grows grows)
  | conditional pos test yes no ihTest ihYes ihNo =>
      intro w env Γ t denotes derived
      cases derived with
      | conditional ofTest ofYes ofNo =>
          refine (achieves_note w _).bind ?_
          intro _ w₁ grows₁ _
          have denotes₁ := denotes.of_grows grows₁
          refine (ihTest w₁ env Γ _ denotes₁ ofTest).attempt.bind ?_
          rintro _ w₂ grows₂ ⟨testTy, rfl, testDenotes⟩
          have denotes₂ := denotes₁.of_grows grows₂
          refine (ihYes w₂ env Γ _ denotes₂ ofYes).attempt.bind ?_
          rintro _ w₃ grows₃ ⟨yesTy, rfl, yesDenotes⟩
          have denotes₃ := denotes₂.of_grows grows₃
          refine (ihNo w₃ env Γ _ denotes₃ ofNo).attempt.bind ?_
          rintro _ w₄ grows₄ ⟨noTy, rfl, noDenotes⟩
          have test₄ := (testDenotes.of_grows grows₃).of_grows grows₄
          refine (achieves_checkEqual (w₄.denotes_atomic _) test₄ _).bind ?_
          intro _ w₅ grows₅ _
          have yes₅ := (yesDenotes.of_grows grows₄).of_grows grows₅
          have no₅ := noDenotes.of_grows grows₅
          refine (achieves_checkEqual yes₅ no₅ _).bind ?_
          intro _ w₆ grows₆ _
          exact achieves_pure (yes₅.of_grows grows₆)
  | lambda pos params result body ihBody =>
      intro w env Γ t denotes derived
      cases derived with
      | lambda eachParam ofResult ofBody =>
          refine (achieves_note w _).bind ?_
          intro _ w₁ grows₁ _
          refine (achieves_signature eachParam ofResult w₁).bind ?_
          rintro ⟨paramTys, resultTy⟩ w₂ grows₂ signed
          obtain ⟨ofParams, declared⟩ := denotes_procedure_iff.mp signed
          have denotes₂ := (denotes.of_grows grows₁).of_grows grows₂
          refine (typeOfBody_achieves ihBody (denotes₂.extend _ ofParams) ofBody _).attempt.bind ?_
          rintro _ w₃ grows₃ ⟨bodyTy, rfl, inferred⟩
          refine (achieves_checkEqual (declared.of_grows grows₃) inferred _).bind ?_
          intro _ w₄ grows₄ _
          exact achieves_pure (signed.of_grows (grows₃.trans grows₄))
  | application pos operator operands ihOperator ihOperands =>
      intro w env Γ t denotes derived
      cases derived with
      | application ofOperator ofOperands =>
          refine (achieves_note w _).bind ?_
          intro _ w₁ grows₁ _
          have denotes₁ := denotes.of_grows grows₁
          refine (ihOperator w₁ env Γ _ denotes₁ ofOperator).bind ?_
          intro operatorTy w₂ grows₂ operatorDenotes
          refine (typeOfEach_achieves ihOperands (denotes₁.of_grows grows₂) ofOperands).bind ?_
          rintro _ w₃ grows₃ ⟨operandTys, rfl, operandsDenote⟩
          refine (achieves_collect operandTys _).bind ?_
          rintro _ w₄ grows₄ rfl
          refine (achieves_fresh w₄ t).bind ?_
          intro result w₅ grows₅ resultDenotes
          have operator₅ := operatorDenotes.of_grows (grows₃.trans (grows₄.trans grows₅))
          have operands₅ :=
            operandsDenote.imp fun _ _ operand => operand.of_grows (grows₄.trans grows₅)
          have shape := denotes_procedure_iff.mpr ⟨operands₅, resultDenotes⟩
          refine (achieves_unify operator₅ shape _).bind ?_
          intro _ w₆ grows₆ _
          exact achieves_pure (resultDenotes.of_grows grows₆)
  | letIn pos bindings body ihBindings ihBody =>
      intro w env Γ t denotes derived
      cases derived with
      | letIn annotates ofValues ofBody =>
          refine (achieves_note w _).bind ?_
          intro _ w₁ grows₁ _
          have denotes₁ := denotes.of_grows grows₁
          refine (checkBindings_achieves ihBindings denotes₁ annotates ofValues).bind ?_
          rintro _ w₂ grows₂ ⟨us, rfl, declared⟩
          refine (achieves_collect _ _).bind ?_
          rintro _ w₃ grows₃ rfl
          have declared₃ := declared.imp fun _ _ each => each.of_grows grows₃
          have denotes₃ := (denotes₁.of_grows grows₂).of_grows grows₃
          exact typeOfBody_achieves ihBody (denotes₃.extend _ declared₃) ofBody _
  | letrec pos bindings body ihProcedures ihBody =>
      intro w env Γ t denotes derived
      cases derived with
      | letrec procedures ofValues ofBody =>
          refine (achieves_note w _).bind ?_
          intro _ w₁ grows₁ _
          rw [if_pos (List.all_eq_true.mpr procedures)]
          refine (achieves_signatures procedures ofValues w₁).bind ?_
          intro sigs w₂ grows₂ signed
          have inside := ((denotes.of_grows grows₁).of_grows grows₂).extend
            (declaredNames (bindings.map (·.1))) signed
          refine (checkProcedures_achieves ihProcedures procedures inside signed ofValues).bind ?_
          rintro _ w₃ grows₃ ⟨passed, rfl⟩
          refine (achieves_collect passed _).bind ?_
          intro _ w₄ grows₄ _
          exact typeOfBody_achieves ihBody (inside.of_grows (grows₃.trans grows₄)) ofBody _

/-- The empty state has a solution for all types of names. -/
def emptySolved (ρ : String → OpenTy) : SolvedState ρ where
  state := .empty
  types := .var
  wf := State.empty_wellFormed
  solved := by
    constructor
    · intro v ty bound
      simp [State.empty] at bound
    · intro name v found
      simp [State.empty] at found

/-- A type of a closed expression is an instance of the type that inference finds: the solution that
its derivation gives factors through resolution.
-/
theorem instance_of_typeOf {e : Expr} {t : OpenTy} (derived : HasType ρ .empty e t)
    : ∃ u s',
        e.typeOf .empty .empty = .ok u s'
        ∧ ∃ τ : Nat → OpenTy, t = (s'.table.resolve u).subst τ := by
  obtain ⟨u, w, run, _, denotes⟩ :=
    typeOf_achieves e (emptySolved ρ) .empty .empty t (denotesEnv_empty _) derived
  refine ⟨u, w.state, run, w.types, ?_⟩
  rw [w.solved.table.subst_resolve, denotes.equal]

/-- If a closed expression has any type, then its inference in an empty state succeeds. The type
found is one of the expression, and every type of it, whatever its names stand for, is an instance
of that one.
-/
theorem typeOf_principal {e : Expr} {t : OpenTy} (derived : HasType ρ .empty e t)
    : ∃ u s',
        e.typeOf .empty .empty = .ok u s'
        ∧ HasType s'.annotation .empty e (s'.table.resolve u)
        ∧ ∀ ρ' t',
            HasType ρ' .empty e t'
            → ∃ τ : Nat → OpenTy, t' = (s'.table.resolve u).subst τ := by
  obtain ⟨u, s', run, _⟩ := instance_of_typeOf derived
  refine ⟨u, s', run, hasType_resolve State.empty_wellFormed run, ?_⟩
  intro ρ' t' derived'
  -- Both runs are the same one: what the names stand for is no part of it.
  obtain ⟨u', s'', run', isInstance⟩ := instance_of_typeOf derived'
  rw [run] at run'
  cases run'
  exact isInstance

/-- Applies a procedure twice; the type of its first argument is written as a name. -/
def twice : Expr :=
  .lambda none [⟨⟨"f", none⟩, .missing⟩, ⟨⟨"x", none⟩, .named none "T"⟩] .missing
    [.application none (.var none ⟨"f", none⟩)
      [.application none (.var none ⟨"f", none⟩) [.var none ⟨"x", none⟩]]]

/-- One derivation, with numbers, is enough to know that all types of the procedure are found. -/
theorem typeOf_principal_twice
    : HasType (fun _ => .atomic .number) .empty twice
          (.procedure
            [.procedure [.atomic .number] (.atomic .number), .atomic .number] (.atomic .number))
      ∧ ∃ u s',
          twice.typeOf .empty .empty = .ok u s'
          ∧ s'.table.resolve u = .procedure [.procedure [.var 4] (.var 4), .var 4] (.var 4)
          ∧ HasType s'.annotation .empty twice (s'.table.resolve u)
          ∧ ∀ ρ' t',
              HasType ρ' .empty twice t'
              → ∃ τ : Nat → OpenTy, t' = (s'.table.resolve u).subst τ := by
  have derived
      : HasType (fun _ => .atomic .number) .empty twice
          (.procedure
            [.procedure [.atomic .number] (.atomic .number), .atomic .number]
            (.atomic .number)) :=
    .lambda (.cons (.wildcard _) (.cons (.named "T") .nil)) (.wildcard _)
      (.last (.application (.var rfl)
        (.cons (.application (.var rfl) (.cons (.var rfl) .nil)) .nil)))
  have shape
      : SucceededWith
          (fun u s' =>
            s'.table.resolve u = .procedure [.procedure [.var 4] (.var 4), .var 4] (.var 4))
          (twice.typeOf .empty .empty) := by
    decide +kernel
  obtain ⟨u, s', run, typed, instances⟩ := typeOf_principal derived
  rw [run] at shape
  obtain ⟨resolved⟩ := shape
  exact ⟨derived, u, s', run, resolved, typed, instances⟩

end Expr

end TypedScheme
