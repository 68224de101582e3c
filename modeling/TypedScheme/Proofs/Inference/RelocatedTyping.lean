import TypedScheme.Proofs.Inference.Relocation

/-! The typing rules run alike in a state and in one that holds a copy of it, rule by rule.
The two environments give each name a type and the moved type. All names in annotations must be own
ones of the two inferences.
-/

namespace TypedScheme

open Infer TypedScheme.Expr

namespace Relocation

variable {r : Relocation} {s₀ s s₀' s' : State} {env₀ env : TypeEnv}

/-- The second environment gives each name the moved type. -/
def EnvMoved (r : Relocation) (s₀ : State) (env₀ env : TypeEnv) : Prop :=
  ∀ name, Option.Rel (r.Moved s₀) (env₀.get? name) (env.get? name)

/-- The types of the environments stay copies of each other in later states. -/
theorem EnvMoved.later (moved : r.EnvMoved s₀ env₀ env) (step : r.Step s₀ s s₀' s')
    : r.EnvMoved s₀' env₀ env := by
  intro name
  have found := moved name
  generalize env₀.get? name = u₀, env.get? name = u at found ⊢
  cases found with
  | none => exact .none
  | some moved => exact .some (moved.later step)

/-- New layers bind the same names to types and moved types. -/
theorem EnvMoved.extend_zip (moved : r.EnvMoved s₀ env₀ env) (names : List String)
    {us₀ us : List OpenTy} (types : List.Forall₂ (r.Moved s₀) us₀ us)
    : r.EnvMoved s₀ (env₀.extend (names.zip us₀)) (env.extend (names.zip us)) :=
  Environment.rel_get?_extend moved (Environment.rel_zip names types)

/-- Inferring the type of the expression runs alike. -/
def Typing (r : Relocation) (e : Expr) : Prop :=
  ∀ {s₀ s : State} {env₀ env : TypeEnv}, r.Copied s₀ s
    → r.EnvMoved s₀ env₀ env
    → r.Owns e.typeNames
    → r.Runs s₀ s (e.typeOf env₀) (e.typeOf env) fun s₀' _ => r.Moved s₀'

/-- A kept type stays a copy in later states. -/
theorem Kept.laterType {x₀ x : Except TypeError OpenTy} (kept : r.Kept s₀ s (r.Moved s₀) x₀ x)
    (copied : r.Copied s₀ s) (step : r.Step s₀ s s₀' s')
    : r.Kept s₀' s' (r.Moved s₀') x₀ x :=
  kept.later copied step fun _ _ moved => moved.later step

/-- A body runs alike if its expressions do, by induction on the expressions. -/
theorem typeOfBody_runs {es : List Expr} (each : ∀ e ∈ es, r.Typing e) (copied : r.Copied s₀ s)
    (moved : r.EnvMoved s₀ env₀ env) (owns : r.Owns (typeNamesOfAll es))
    (context : Expr)
    : r.Runs s₀ s (typeOfBody env₀ context es) (typeOfBody env context es)
        fun s₀' _ => r.Moved s₀' := by
  induction es generalizing s₀ s with
  | nil => exact runs_throw copied (.unsupported _ _ _ _)
  | cons e es ih =>
      rw [typeNamesOfAll, owns_append] at owns
      have head := each e (.head _) copied moved owns.1
      cases es with
      | nil => exact head
      | cons next rest =>
          refine head.bind fun first _ => ?_
          exact ih (fun e member => each e (.tail _ member)) first.copied (moved.later first) owns.2

/-- Expressions one after the other run alike if each of them does, by induction on the expressions.
-/
theorem typeOfEach_runs {es : List Expr} (each : ∀ e ∈ es, r.Typing e) (copied : r.Copied s₀ s)
    (moved : r.EnvMoved s₀ env₀ env) (owns : r.Owns (typeNamesOfAll es))
    : r.Runs s₀ s (typeOfEach env₀ es) (typeOfEach env es)
        fun s₀' s' => List.Forall₂ (r.Kept s₀' s' (r.Moved s₀')) := by
  induction es generalizing s₀ s with
  | nil => exact runs_pure copied .nil
  | cons e es ih =>
      rw [typeNamesOfAll, owns_append] at owns
      refine (each e (.head _) copied moved owns.1).attempt.bind fun first kept => ?_
      refine (ih (fun e member => each e (.tail _ member)) first.copied (moved.later first)
        owns.2).bind fun second others => ?_
      exact runs_pure second.copied (.cons (kept.laterType first.copied second) others)

/-- A name and the type bound to it. -/
structure BindingMoved (r : Relocation) (s₀ : State) (b₀ b : String × OpenTy) : Prop where
  name : b₀.1 = b.1
  type : r.Moved s₀ b₀.2 b.2

/-- Bindings run alike if their values do, by induction on the bindings. -/
theorem checkBindings_runs {bindings : List (Declaration × Expr)}
    (each : ∀ binding ∈ bindings, r.Typing binding.2) (copied : r.Copied s₀ s)
    (moved : r.EnvMoved s₀ env₀ env)
    (owns : r.Owns (typeNamesOfBindings bindings))
    : r.Runs s₀ s (checkBindings env₀ bindings) (checkBindings env bindings)
        fun s₀' s' => List.Forall₂ (r.Kept s₀' s' (r.BindingMoved s₀')) := by
  induction bindings generalizing s₀ s with
  | nil => exact runs_pure copied .nil
  | cons binding rest ih =>
      obtain ⟨declaration, value⟩ := binding
      rw [typeNamesOfBindings, owns_append, owns_append] at owns
      obtain ⟨⟨inType, inValue⟩, inRest⟩ := owns
      refine (runs_convert _ inType copied).bind fun first declared => ?_
      have value := each (declaration, value) (.head _) first.copied (moved.later first) inValue
      refine value.attempt.bind fun second inferred => ?_
      refine (runs_checkEqual second.copied (declared.later second) inferred _).attempt.bind ?_
      intro s₀₃ s₃ _ _ third checked
      have moved₃ := ((moved.later first).later second).later third
      refine (ih (fun binding member => each binding (.tail _ member)) third.copied moved₃
        inRest).bind ?_
      intro s₀₄ s₄ _ _ fourth others
      refine runs_pure fourth.copied (.cons ?_ others)
      cases checked with
      | ok _ => exact .ok ⟨rfl, ((declared.later second).later third).later fourth⟩
      | error alike => exact .error (alike.later third.copied fourth.later₀ fourth.later)

/-- Bound procedures run alike if the expressions of their bodies do, by induction on the bindings.
-/
theorem checkProcedures_runs {bindings : List (Declaration × Expr)}
    {sigs₀ sigs : List (List OpenTy × OpenTy)}
    (each : ∀ binding ∈ bindings, ∀ e ∈ binding.2.procedureBody, r.Typing e)
    (copied : r.Copied s₀ s) (moved : r.EnvMoved s₀ env₀ env)
    (signed : List.Forall₂ (r.SignatureMoved s₀) sigs₀ sigs)
    (owns : ∀ binding ∈ bindings, r.Owns binding.2.typeNames)
    : r.Runs s₀ s (checkProcedures env₀ bindings sigs₀) (checkProcedures env bindings sigs)
        fun s₀' s' => List.Forall₂ (r.Kept s₀' s' fun _ _ => True) := by
  induction bindings generalizing s₀ s sigs₀ sigs with
  | nil => exact runs_pure copied .nil
  | cons binding rest ih =>
      obtain ⟨declaration, value⟩ := binding
      have here := owns (declaration, value) (.head _)
      cases value with
      | lambda pos params result body =>
          cases signed with
          | nil => exact runs_pure copied .nil
          | cons sig others =>
              rw [typeNames, owns_append] at here
              have inBody := moved.extend_zip (declaredNames params) sig.params
              have ofBody := typeOfBody_runs (each _ (.head _)) copied inBody here.2
                (.lambda pos params result body)
              refine ofBody.attempt.bind fun first inferred => ?_
              have check := runs_checkEqual first.copied (sig.result.later first) inferred
                (.lambda pos params result body)
              refine check.attempt.bind ?_
              intro s₀₂ s₂ _ _ second checked
              have both := first.trans second
              refine (ih (fun binding member => each binding (.tail _ member)) second.copied
                (moved.later both) (others.imp fun _ _ sig => sig.later both)
                fun binding member => owns binding (.tail _ member)).bind ?_
              intro s₀₃ s₃ _ _ third checks
              refine runs_pure third.copied (.cons ?_ checks)
              exact checked.later second.copied third fun _ _ => id
      | number | boolean | string | primitive | var | conditional | application | letIn | letrec
      | define | program | quote | assign => exact runs_pure copied .nil

/-- Inference runs alike, by induction over the expression. -/
theorem typeOf_runs (e : Expr) : r.Typing e := by
  induction e using partsInduction with
  | number | boolean | string | define =>
      intro s₀ s env₀ env copied _ _
      exact (runs_note copied _).bind fun step _ => runs_pure step.copied (moved_atomic _ _)
  | program | quote | assign =>
      intro s₀ s env₀ env copied _ _
      exact (runs_note copied _).bind fun step _ => runs_throw step.copied (.unsupported _ _ _ _)
  | primitive pos op =>
      intro s₀ s env₀ env copied _ _
      exact (runs_note copied _).bind fun step _ => runs_instantiate step.copied op
  | var pos id =>
      intro s₀ s env₀ env copied moved _
      refine (runs_note copied _).bind fun step _ => ?_
      have found := moved.later step id.name
      generalize env₀.get? id.name = u₀, env.get? id.name = u at found ⊢
      cases found with
      | some moved => exact runs_pure step.copied moved
      | none => exact runs_throw step.copied (.unboundIdentifier _ _)
  | conditional pos test yes no ihTest ihYes ihNo =>
      intro s₀ s env₀ env copied moved owns
      rw [typeNames, owns_append, owns_append] at owns
      obtain ⟨⟨inTest, inYes⟩, inNo⟩ := owns
      refine (runs_note copied _).bind fun first _ => ?_
      have moved₁ := moved.later first
      refine (ihTest first.copied moved₁ inTest).attempt.bind fun second ofTest => ?_
      have moved₂ := moved₁.later second
      refine (ihYes second.copied moved₂ inYes).attempt.bind fun third ofYes => ?_
      refine (ihNo third.copied (moved₂.later third) inNo).attempt.bind fun fourth ofNo => ?_
      have ofTest₄ := ofTest.laterType second.copied (third.trans fourth)
      refine (runs_checkEqual fourth.copied (moved_atomic _ .boolean) ofTest₄ _).bind ?_
      intro s₀₅ s₅ _ _ fifth _
      have ofYes₅ := ofYes.laterType third.copied (fourth.trans fifth)
      refine (runs_ofExcept fifth.copied ofYes₅).bind fun sixth isYes => ?_
      have isYes₆ := isYes.later sixth
      have ofNo₆ := ofNo.laterType fourth.copied (fifth.trans sixth)
      refine (runs_checkEqual sixth.copied isYes₆ ofNo₆ _).bind fun last _ => ?_
      exact runs_pure last.copied (isYes₆.later last)
  | lambda pos params result body ihBody =>
      intro s₀ s env₀ env copied moved owns
      rw [typeNames, owns_append, owns_append] at owns
      obtain ⟨⟨inParams, inResult⟩, inBody⟩ := owns
      refine (runs_note copied _).bind fun first _ => ?_
      refine (runs_signature inParams inResult first.copied).bind fun second sig => ?_
      have inside := (moved.later (first.trans second)).extend_zip (declaredNames params) sig.params
      have ofBody := typeOfBody_runs ihBody second.copied inside inBody
        (.lambda pos params result body)
      refine ofBody.attempt.bind fun third inferred => ?_
      have sig₃ := sig.later third
      refine (runs_checkEqual third.copied sig₃.result inferred _).bind fun last _ => ?_
      have sig₄ := sig₃.later last
      exact runs_pure last.copied (.procedure sig₄.params sig₄.result)
  | application pos operator operands ihOperator ihOperands =>
      intro s₀ s env₀ env copied moved owns
      rw [typeNames, owns_append] at owns
      refine (runs_note copied _).bind fun first _ => ?_
      have moved₁ := moved.later first
      refine (ihOperator first.copied moved₁ owns.1).bind fun second ofOperator => ?_
      have each := typeOfEach_runs ihOperands second.copied (moved₁.later second) owns.2
      refine each.bind fun third kept => ?_
      refine (runs_collect third.copied kept _).bind fun fourth ofOperands => ?_
      refine (runs_fresh fourth.copied).bind fun fifth ofResult => ?_
      have operator₅ := ofOperator.later (third.trans (fourth.trans fifth))
      have operands₅ := ofOperands.imp fun _ _ moved => moved.later (fourth.trans fifth)
      refine (runs_unify fifth.copied operator₅ (.procedure operands₅ ofResult) _).bind ?_
      intro s₀₆ s₆ _ _ last _
      exact runs_pure last.copied (ofResult.later last)
  | letIn pos bindings body ihBindings ihBody =>
      intro s₀ s env₀ env copied moved owns
      rw [typeNames, owns_append] at owns
      refine (runs_note copied _).bind fun first _ => ?_
      have moved₁ := moved.later first
      refine (checkBindings_runs ihBindings first.copied moved₁ owns.1).bind fun second kept => ?_
      refine (runs_collect second.copied kept _).bind fun third declared => ?_
      have bindings₃ := declared.imp fun _ _ bound => And.intro bound.name (bound.type.later third)
      have inside := Environment.rel_get?_extend (moved₁.later (second.trans third)) bindings₃
      exact typeOfBody_runs ihBody third.copied inside owns.2 _
  | letrec pos bindings body ihProcedures ihBody =>
      intro s₀ s env₀ env copied moved owns
      rw [typeNames, owns_append] at owns
      obtain ⟨inBindings, inBody⟩ := owns
      have inValues binding (member : binding ∈ bindings) : r.Owns binding.2.typeNames :=
        fun name inValue => inBindings name
          (mem_typeNamesOfBindings.mpr ⟨binding, member, List.mem_append_right _ inValue⟩)
      refine (runs_note copied _).bind fun first _ => ?_
      dsimp only
      split
      · refine (runs_signatures inValues first.copied).bind ?_
        intro s₀₂ s₂ sigs₀ sigs second signed
        have procedures
            : List.Forall₂ (r.Moved s₀₂) (sigs₀.map fun sig => .procedure sig.1 sig.2)
                (sigs.map fun sig => .procedure sig.1 sig.2) := by
          rw [List.forall₂_map_left_iff, List.forall₂_map_right_iff]
          exact signed.imp fun _ _ sig => .procedure sig.params sig.result
        have inside := (moved.later (first.trans second)).extend_zip
          (declaredNames (bindings.map (·.1))) procedures
        have checks := checkProcedures_runs ihProcedures second.copied inside signed inValues
        refine checks.bind fun third kept => ?_
        refine (runs_collect third.copied kept _).bind fun fourth _ => ?_
        exact typeOfBody_runs ihBody fourth.copied (inside.later (third.trans fourth)) inBody _
      · exact runs_throw first.copied (.unsupported _ _ _ _)

end Relocation

end TypedScheme
