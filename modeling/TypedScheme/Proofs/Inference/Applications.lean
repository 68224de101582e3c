import TypedScheme.Proofs.Inference.Allocations
import TypedScheme.Proofs.Inference.Equalities
import TypedScheme.Proofs.Inference.HeldTypes
import TypedScheme.Proofs.Inference.Rollback
import TypedScheme.Proofs.Inference.SolvedStates
import TypedScheme.Proofs.Unification.Frame
import TypedScheme.Proofs.Unification.Occurrences

/-! The variable that an application allocates for its result.
All types inferred before are over earlier variables, so that the variable is new when the type of
the operator is unified with a procedure type that ends with it. Main statement: the variable of a
successful application is bound exactly if the type of the application resolves to no type variable,
and the variable of a failed one is unbound.
-/

namespace TypedScheme

-----------------------------------------------------------------------------------------
-- Inferred types are over the variables of the state
-----------------------------------------------------------------------------------------

namespace State

variable {s s₁ s₂ s' : State} {env : TypeEnv} {us : List OpenTy}

/-- All types of the environment are over the variables of the state. -/
def Covers (s : State) (env : TypeEnv) : Prop := ∀ u ∈ env.values, u.Below s.table.size

/-- The later state is well formed, keeps what there was, and has the variables of the types. -/
structure Leads (s : State) (us : List OpenTy) (s' : State) : Prop where
  wf : s'.WellFormed
  later : s.Extends s'
  below : ∀ u ∈ us, u.Below s'.table.size

/-- An environment that is covered stays so in every later state. -/
theorem Covers.of_extends (covers : s.Covers env) (later : s.Extends s') : s'.Covers env :=
  fun u member => (covers u member).mono later.table.size

/-- An environment stays covered with new bindings whose types have variables of the state. -/
theorem Covers.extend (covers : s.Covers env) {bindings : List (String × OpenTy)}
    (each : ∀ binding ∈ bindings, binding.2.Below s.table.size)
    : s.Covers (env.extend bindings) :=
  Environment.forall_values_extend covers each

/-- An environment stays covered with parameters of such types. -/
theorem Covers.extend_zip (covers : s.Covers env) (names : List String)
    (each : ∀ u ∈ us, u.Below s.table.size)
    : s.Covers (env.extend (names.zip us)) :=
  covers.extend fun binding member => each binding.2 (List.of_mem_zip (b := binding.2) member).2

/-- An environment stays covered with procedures of such signatures. -/
theorem Covers.extend_procedures (covers : s.Covers env) (bindings : List (Declaration × Expr))
    {sigs : List (List OpenTy × OpenTy)}
    (each : ∀ sig ∈ sigs, ∀ u ∈ sig.2 :: sig.1, u.Below s.table.size)
    : s.Covers (env.extend (Expr.declaredProcedures bindings sigs)) := by
  apply covers.extend_zip
  intro u member
  obtain ⟨sig, isSig, rfl⟩ := List.mem_map.mp member
  obtain ⟨belowResult, belowParams⟩ := List.forall_mem_cons.mp (each sig isSig)
  exact OpenTy.below_procedure.mpr ⟨belowParams, belowResult⟩

/-- Two runs one after the other lead to the types of both. -/
theorem Leads.trans {us' : List OpenTy} (first : s.Leads us s₁) (second : s₁.Leads us' s₂)
    : s.Leads (us ++ us') s₂ := by
  refine ⟨second.wf, first.later.trans second.later, ?_⟩
  intro u member
  rcases List.mem_append.mp member with early | late
  · exact (first.below u early).mono second.later.table.size
  · exact second.below u late

/-- A run that leads to some types leads to any of them. -/
theorem Leads.sub {us' : List OpenTy} (leads : s.Leads us s') (among : ∀ u ∈ us', u ∈ us)
    : s.Leads us' s' :=
  ⟨leads.wf, leads.later, fun u member => leads.below u (among u member)⟩

/-- A run that only moves the state leads to where it ends. -/
theorem leads_of_run {α : Type} {x : Infer α} (moving : Infer.OnlyMoves x) (wf : s.WellFormed)
    {a : α} (run : x s = .ok a s')
    : s.Leads [] s' := by
  obtain ⟨wf', later⟩ := Moves.wellFormed_extends (moving s) wf
  rw [run] at wf' later
  exact ⟨wf', later, nofun⟩

/-- A unification that succeeds leads to where it ends. -/
theorem leads_unify (wf : s.WellFormed) {a b : OpenTy} {context : Expr}
    (run : Infer.unify a b context s = .ok () s')
    : s.Leads [] s' :=
  leads_of_run (Infer.onlyMoves_unify a b context) wf run

/-- A run leads to the types that its result holds. -/
theorem leads_of_gives {α : Type} {x : Infer α} {P : State → α → Prop}
    (gives : Infer.Gives s x P fun _ _ => True) {a : α} (run : x s = .ok a s')
    (held : P s' a → ∀ u ∈ us, s'.Holds u)
    : s.Leads us s' := by
  obtain ⟨s₁, wf, later, ⟨a', given, holds⟩ | ⟨e, given, _⟩⟩ := gives
  · rw [run] at given
    cases given
    exact ⟨wf, later, fun u member => (held holds u member).below⟩
  · rw [run] at given
    cases given

/-- A run that gives a held type leads to it. -/
theorem leads_of_gives_one {x : Infer OpenTy} {u : OpenTy}
    (gives : Infer.Gives s x Holds fun _ _ => True) (run : x s = .ok u s')
    : s.Leads [u] s' :=
  leads_of_gives gives run fun holds => by simpa using holds

/-- A fresh variable is led to. -/
theorem leads_fresh (wf : s.WellFormed) : s.Leads [s.fresh.1] s.fresh.2 :=
  leads_of_gives_one (Infer.gives_fresh wf) rfl

/-- A converted type is led to. -/
theorem leads_convert (wf : s.WellFormed) (ty : Ty) : s.Leads [(s.convert ty).1] (s.convert ty).2 :=
  leads_of_gives_one (Infer.gives_convert ty s wf) rfl

/-- The types of a signature are led to. -/
theorem leads_signature (wf : s.WellFormed) {params : List Declaration} {result : TypeExpr}
    {u : OpenTy} (run : Infer.signature params result s = .ok (us, u) s')
    : s.Leads (u :: us) s' :=
  leads_of_gives (Infer.gives_signature params result wf) run
    fun holds => List.forall_mem_cons.mpr holds.symm

/-- The types of several signatures are led to. -/
theorem leads_signatures (wf : s.WellFormed) {bindings : List (Declaration × Expr)}
    {sigs : List (List OpenTy × OpenTy)} (run : Infer.signatures bindings s = .ok sigs s')
    : s.Leads (sigs.flatMap fun sig => sig.2 :: sig.1) s' := by
  apply leads_of_gives (Infer.gives_signatures bindings wf) run
  intro holds u member
  obtain ⟨sig, isSig, inSig⟩ := List.mem_flatMap.mp member
  exact List.forall_mem_cons.mpr (holds sig isSig).symm u inSig

end State

namespace Expr

open Infer

mutual
/-- A derivation leads to its type, by induction on the derivation. -/
theorem Infers.leads {env : TypeEnv} {e : Expr} {s s' : State} {u : OpenTy} (wf : s.WellFormed)
    (covers : s.Covers env)
    : Infers env e s u s' → s.Leads [u] s'
  | .noted byRule => by
      have noted : s.Leads [] (s.typing e) := State.leads_of_run (onlyMoves_note e.shape) wf rfl
      exact noted.trans (byRule.leads noted.wf (covers.of_extends noted.later))

/-- So does the rule of an expression. -/
theorem RuleInfers.leads {env : TypeEnv} {e : Expr} {s s' : State} {u : OpenTy}
    (wf : s.WellFormed) (covers : s.Covers env)
    : RuleInfers env e s u s' → s.Leads [u] s'
  | .number | .boolean | .string | .define => ⟨wf, .refl s, by simp⟩
  | .primitive => State.leads_of_gives_one (gives_instantiate _ wf) rfl
  | .var found => ⟨wf, .refl s, by simpa using covers _ (Environment.mem_values_of_get? found)⟩
  | .conditional inTest inYes inNo sameTest sameNo => by
      have test := inTest.leads wf covers
      have yes := test.trans (inYes.leads test.wf (covers.of_extends test.later))
      have no := yes.trans (inNo.leads yes.wf (covers.of_extends yes.later))
      have checked := no.trans (State.leads_unify no.wf sameTest)
      exact (checked.trans (State.leads_unify checked.wf sameNo)).sub (by simp)
  | .lambda signed inBody same => by
      have declared := State.leads_signature wf signed
      obtain ⟨_, belowParams⟩ := List.forall_mem_cons.mp declared.below
      have body := declared.trans (inBody.leads declared.wf
        ((covers.of_extends declared.later).extend_zip _ belowParams))
      have checked := body.trans (State.leads_unify body.wf same)
      refine ⟨checked.wf, checked.later, ?_⟩
      simp only [List.mem_singleton, forall_eq, OpenTy.below_procedure]
      exact ⟨fun u member => checked.below u (by simp [member]), checked.below _ (by simp)⟩
  | .application inOperator inOperands same => by
      have operator := inOperator.leads wf covers
      have operands :=
        operator.trans (inOperands.leads operator.wf (covers.of_extends operator.later))
      have allocated := operands.trans (State.leads_fresh operands.wf)
      exact (allocated.trans (State.leads_unify allocated.wf same)).sub (by simp)
  | .letIn inBindings inBody => by
      have bindings := inBindings.leads wf covers
      have inside := (covers.of_extends bindings.later).extend
        fun binding member => bindings.below _ (List.mem_map_of_mem member)
      exact (bindings.trans (inBody.leads bindings.wf inside)).sub (by simp)
  | .letrec _ signed inProcedures inBody => by
      have declared := State.leads_signatures wf signed
      have ofSigs := List.forall_mem_flatMap.mp declared.below
      have inside bindings := (covers.of_extends declared.later).extend_procedures bindings ofSigs
      have procedures := inProcedures.leads declared.wf (inside _)
        fun sig member u inSig => ofSigs sig member u (.tail _ inSig)
      have body := inBody.leads procedures.wf ((inside _).of_extends procedures.later)
      exact ((declared.trans procedures).trans body).sub (by simp)

/-- So does a body. -/
theorem BodyInfers.leads {env : TypeEnv} {es : List Expr} {s s' : State} {u : OpenTy}
    (wf : s.WellFormed) (covers : s.Covers env)
    : BodyInfers env es s u s' → s.Leads [u] s'
  | .last inLast => inLast.leads wf covers
  | .next inFirst inRest => by
      have first := inFirst.leads wf covers
      have rest := inRest.leads first.wf (covers.of_extends first.later)
      exact (first.trans rest).sub (by simp)

/-- Several expressions lead to their types. -/
theorem EachInfers.leads {env : TypeEnv} {es : List Expr} {s s' : State} {us : List OpenTy}
    (wf : s.WellFormed) (covers : s.Covers env)
    : EachInfers env es s us s' → s.Leads us s'
  | .nil => ⟨wf, .refl s, nofun⟩
  | .cons inFirst inRest => by
      have first := inFirst.leads wf covers
      exact first.trans (inRest.leads first.wf (covers.of_extends first.later))

/-- Bindings lead to their declared types. -/
theorem BindingsInfer.leads {env : TypeEnv} {bindings : List (Declaration × Expr)}
    {s s' : State} {declared : List (String × OpenTy)} (wf : s.WellFormed)
    (covers : s.Covers env)
    : BindingsInfer env bindings s declared s' → s.Leads (declared.map (·.2)) s'
  | .nil => ⟨wf, .refl s, nofun⟩
  | .cons inValue same inRest => by
      have converted ty := State.leads_convert wf ty
      have value := (converted _).trans
        (inValue.leads (converted _).wf (covers.of_extends (converted _).later))
      have checked := value.trans (State.leads_unify value.wf same)
      have rest := inRest.leads checked.wf (covers.of_extends checked.later)
      apply (checked.trans rest).sub
      intro u member
      rcases List.mem_cons.mp member with rfl | later
      · simp
      · exact List.mem_append_right _ later

/-- Bound procedures lead to where they end, without a new type. -/
theorem ProceduresInfer.leads {env : TypeEnv} {bindings : List (Declaration × Expr)}
    {sigs : List (List OpenTy × OpenTy)} {s s' : State} (wf : s.WellFormed)
    (covers : s.Covers env) (signed : ∀ sig ∈ sigs, ∀ u ∈ sig.1, u.Below s.table.size)
    : ProceduresInfer env bindings sigs s s' → s.Leads [] s'
  | .nil => ⟨wf, .refl s, nofun⟩
  | .cons inBody same inRest => by
      obtain ⟨ofFirst, ofRest⟩ := List.forall_mem_cons.mp signed
      have body := inBody.leads wf (covers.extend_zip _ ofFirst)
      have checked := body.trans (State.leads_unify body.wf same)
      have rest := inRest.leads checked.wf (covers.of_extends checked.later)
        fun sig member u inSig => (ofRest sig member u inSig).mono checked.later.table.size
      exact (checked.trans rest).sub nofun
end

end Expr

-----------------------------------------------------------------------------------------
-- Applications
-----------------------------------------------------------------------------------------

namespace State

variable {s s' : State} {f : OpenTy} {us : List OpenTy} {context : Expr}

/-- No binding mentions a variable that has just been allocated. -/
theorem WellFormed.spreads_fresh (wf : s.WellFormed)
    : s.fresh.2.table.snapshot.2.Spreads (OpenTy.Below s.table.size) where
  inside below := by
    have inside := OpenTy.below_var.mp below
    simp only [table_fresh, Table.size_snapshot, Table.size_allocate]
    omega
  parts below := OpenTy.below_procedure.mp below
  bound bound := wf.table.allocated (by simpa using bound)

/-- A fresh variable is unbound. -/
theorem unbound_fresh (s : State) : s.fresh.2.table.binding? s.table.size = none := by
  rw [table_fresh, Table.binding?_allocate]
  cases bound : s.table.binding? s.table.size with
  | none => rfl
  | some ty => exact absurd (Table.lt_size_of_binding? bound) (Nat.lt_irrefl _)

/-- The new variable is bound only if the operator is known to be a procedure, and then to a type
that is no variable.
-/
theorem new_result_of_unify (wf : s.WellFormed) (below : f.Below s.table.size)
    (belowUs : ∀ u ∈ us, u.Below s.table.size)
    (run : Infer.unify f (.procedure us (.var s.table.size)) context s.fresh.2 = .ok () s')
    : s'.table.binding? s.table.size = none
      ∨ ∃ params result ty,
          s.table.root f = .procedure params result
          ∧ s'.table.binding? s.table.size = some ty
          ∧ ∀ w, ty ≠ .var w := by
  obtain ⟨t, unified, table, _, _⟩ :=
    Infer.transaction_ok (Unify.types_onlyBinds f _) wf.fresh run
  have grown : s.table.size ≤ s.fresh.2.table.snapshot.2.size := by simp
  have belowNew : (OpenTy.var s.table.size).Below s.fresh.2.table.snapshot.2.size := by simp
  have ends := Unify.types_ends wf.fresh.table.snapshot.toGrounded (below.mono grown)
    (OpenTy.below_procedure.mpr ⟨fun u member => (belowUs u member).mono grown, belowNew⟩)
  rw [unified] at ends
  rw [table, Table.binding?_commit]
  have unbound : s.fresh.2.table.snapshot.2.binding? s.table.size = none := s.unbound_fresh
  rcases ends.new_result unbound wf.spreads_fresh below belowUs with
    unbound | ⟨params, result, ty, root, bound, notVar⟩
  · exact .inl unbound
  · have rootNow := (wf.table.root_ends below).of_same
      (fun v => by rw [Table.binding?_snapshot, table_fresh, Table.binding?_allocate]) grown
    exact .inr ⟨params, result, ty, rootNow.unique root, bound, notVar⟩

/-- After the unification of an application the operator is a procedure from the operands' types to
the result's variable.
-/
theorem resolve_operator_of_unify (wf : s.WellFormed)
    (run : Infer.unify f (.procedure us (.var s.table.size)) context s.fresh.2 = .ok () s')
    : s'.table.resolve f
      = .procedure (us.map s'.table.resolve) (s'.table.resolve (.var s.table.size)) := by
  obtain ⟨_, _, _, wf', _⟩ := Infer.transaction_ok (Unify.types_onlyBinds f _) wf.fresh run
  rw [wf'.table.resolve_eq_of_equal fun σ => Infer.equal_of_unify wf.fresh run,
    Table.resolve_procedure]

/-- The result of an operator known before stands for the same type as the new variable. -/
theorem resolve_result_of_unify (wf : s.WellFormed)
    (run : Infer.unify f (.procedure us (.var s.table.size)) context s.fresh.2 = .ok () s')
    {params : List OpenTy} {result : OpenTy} (root : s.table.root f = .procedure params result)
    : s'.table.resolve result = s'.table.resolve (.var s.table.size) := by
  obtain ⟨_, _, _, wf', later⟩ := Infer.transaction_ok (Unify.types_onlyBinds f _) wf.fresh run
  have solved := wf'.table.solvedBy_resolve.of_extends (s.extends_fresh.trans later).table
  have same := solved.subst_root f
  rw [root, ← Table.resolve_eq_subst, ← Table.resolve_eq_subst, resolve_operator_of_unify wf run,
    Table.resolve_procedure] at same
  exact (OpenTy.procedure.inj same).2

/-- The result's variable is bound exactly if it stands for something else than a variable: it is
never bound to one.
-/
theorem bound_iff_of_unify (wf : s.WellFormed) (below : f.Below s.table.size)
    (belowUs : ∀ u ∈ us, u.Below s.table.size)
    (run : Infer.unify f (.procedure us (.var s.table.size)) context s.fresh.2 = .ok () s')
    : (s'.table.binding? s.table.size).isSome
      ↔ ∀ v, s'.table.resolve (.var s.table.size) ≠ .var v := by
  obtain ⟨_, _, _, wf', _⟩ := Infer.transaction_ok (Unify.types_onlyBinds f _) wf.fresh run
  constructor
  · intro isBound
    rcases new_result_of_unify wf below belowUs run with unbound | ⟨_, _, ty, _, bound, notVar⟩
    · rw [unbound] at isBound
      cases isBound
    · rw [wf'.table.resolve_bound bound]
      exact Table.resolve_ne_var notVar
  · intro notVar
    cases bound : s'.table.binding? s.table.size with
    | none => exact absurd (Table.resolve_unbound bound) (notVar _)
    | some ty => rfl

/-- What a successful application leaves: one variable more, the operator as a procedure that
returns it, and the variable bound exactly if it stands for no type variable. This can be told from
the result of the operator, where that was known before.
-/
structure Applied (s : State) (f : OpenTy) (us : List OpenTy) (s' : State) : Prop where
  size : s'.table.size = s.table.size + 1
  operator
    : s'.table.resolve f
      = .procedure (us.map s'.table.resolve) (s'.table.resolve (.var s.table.size))
  bound_iff
    : (s'.table.binding? s.table.size).isSome
      ↔ ∀ v, s'.table.resolve (.var s.table.size) ≠ .var v
  bound_iff_known
    : (s'.table.binding? s.table.size).isSome
      ↔ ∃ params result,
          s.table.root f = .procedure params result ∧ ∀ v, s'.table.resolve result ≠ .var v

/-- The unification of an application leaves what an application leaves. -/
theorem applied_of_unify (wf : s.WellFormed) (below : f.Below s.table.size)
    (belowUs : ∀ u ∈ us, u.Below s.table.size)
    (run : Infer.unify f (.procedure us (.var s.table.size)) context s.fresh.2 = .ok () s')
    : s.Applied f us s' := by
  have bound_iff := bound_iff_of_unify wf below belowUs run
  refine ⟨?_, resolve_operator_of_unify wf run, bound_iff, ?_⟩
  · rw [(Infer.kept_of_unify run).1, table_fresh, Table.size_allocate]
  · constructor
    · intro isBound
      rcases new_result_of_unify wf below belowUs run with
        unbound | ⟨params, result, _, root, _, _⟩
      · rw [unbound] at isBound
        cases isBound
      · refine ⟨params, result, root, ?_⟩
        rw [resolve_result_of_unify wf run root]
        exact bound_iff.mp isBound
    · rintro ⟨params, result, root, notVar⟩
      apply bound_iff.mpr
      rw [← resolve_result_of_unify wf run root]
      exact notVar

end State

namespace Expr

open Infer

variable {env : TypeEnv} {pos : Position} {operator : Expr} {operands : List Expr}

/-- After the inferences of its operator and operands, an application allocates its variable and
unifies.
-/
theorem typeOf_application_eq {s s₁ s₂ : State} {f : OpenTy} {us : List OpenTy}
    (inOperator
      : operator.typeOf env (s.typing (.application pos operator operands)) = .ok f s₁)
    (inOperands : typeOfEach env operands s₁ = .ok (us.map .ok) s₂)
    : typeOf env (.application pos operator operands) s
      = (unify f (.procedure us (.var s₂.table.size)) (.application pos operator operands)
          >>= fun _ => pure (.var s₂.table.size)) s₂.fresh.2 := by
  have collected
      : collect (us.map .ok) (.application pos operator operands) s₂ = .ok us s₂ := by
    rw [collect, partition_map_ok]
    rfl
  have noted
      : note (.typing (application pos operator operands).shape) s
        = .ok () (s.typing (.application pos operator operands)) :=
    rfl
  rw [typeOf, run_bind_ok noted, run_bind_ok inOperator, run_bind_ok inOperands,
    run_bind_ok collected]
  rfl

/-- The state is reachable, the types of the environment are over its variables, and the inferences
of the operator and of all operands succeed. Then the application allocates the next variable and no
other. If the application succeeds, its type is that variable, which is bound exactly if the type
resolves to no type variable; if it fails, the variable is unbound.
-/
theorem typeOf_application_result {s s₁ s₂ : State} (reachable : s.Reachable)
    (covers : s.Covers env) {f : OpenTy} {us : List OpenTy}
    (inOperator
      : operator.typeOf env (s.typing (.application pos operator operands)) = .ok f s₁)
    (inOperands : typeOfEach env operands s₁ = .ok (us.map .ok) s₂)
    : (∃ s₃,
        typeOf env (.application pos operator operands) s = .ok (.var s₂.table.size) s₃
        ∧ s₂.Applied f us s₃)
      ∨ ∃ e s₃,
          typeOf env (.application pos operator operands) s = .error e s₃
          ∧ s₃.table.size = s₂.table.size + 1
          ∧ s₃.table.binding? s₂.table.size = none := by
  have noted : s.Leads [] (s.typing (.application pos operator operands)) :=
    State.leads_of_run (onlyMoves_note _) reachable.wellFormed rfl
  have afterOperator := (infers_of_typeOf operator _ _ _ _ inOperator).leads noted.wf
    (covers.of_extends noted.later)
  have afterOperands :=
    (eachInfers_of_typeOfEach (fun e _ => infers_of_typeOf e) inOperands).leads
      afterOperator.wf ((covers.of_extends noted.later).of_extends afterOperator.later)
  have wf := afterOperands.wf
  have below := (afterOperator.below f (.head _)).mono afterOperands.later.table.size
  have application := typeOf_application_eq inOperator inOperands
  cases run : unify f (.procedure us (.var s₂.table.size)) (.application pos operator operands)
      s₂.fresh.2 with
  | ok _ s₃ =>
      rw [run_bind_ok run] at application
      exact .inl ⟨s₃, application, State.applied_of_unify wf below afterOperands.below run⟩
  | error e s₃ =>
      rw [run_bind_error run] at application
      obtain ⟨table, _⟩ := transaction_error (Unify.types_onlyBinds f _) wf.fresh run
      refine .inr ⟨e, s₃, application, ?_, ?_⟩
      · rw [table, State.table_fresh, Table.size_allocate]
      · rw [table, State.unbound_fresh]

/-- The environment of one operator with the given type. -/
def operatorEnv (u : OpenTy) : TypeEnv := Environment.empty.extend [("f", u)]

def operatorVar : Expr := .var none ⟨"f", none⟩

/-- The operator applied to a boolean. -/
def operatorCall : Expr := .application none operatorVar [.boolean none true]

/-- The environment of one operator is covered by a state with one variable. -/
theorem covers_operatorEnv {u : OpenTy} (below : u.Below 1)
    : (State.empty.freshMany 1).Covers (operatorEnv u) := by
  intro v member
  cases List.mem_singleton.mp member
  exact below

/-- The type of procedures that return a procedure without parameters. -/
def thunkMaker : OpenTy := .procedure [.var 0] (.procedure [] (.var 0))

/-- An operator that is known to return a procedure. -/
theorem typeOf_application_result_thunk
    : ∃ s s₁ s₂ s₃ : State,
        s.Reachable
        ∧ s.Covers (operatorEnv thunkMaker)
        ∧ typeOf (operatorEnv thunkMaker) operatorVar (s.typing operatorCall) = .ok thunkMaker s₁
        ∧ typeOfEach (operatorEnv thunkMaker) [.boolean none true] s₁
          = .ok ([OpenTy.atomic .boolean].map .ok) s₂
        ∧ typeOf (operatorEnv thunkMaker) operatorCall s = .ok (.var 1) s₃
        ∧ s₃.table.binding? 1 = some (.procedure [] (.var 0))
        ∧ s₂.Applied thunkMaker [.atomic .boolean] s₃ := by
  have reachable : (State.empty.freshMany 1).Reachable := ⟨[.fresh], [], rfl⟩
  have covers : (State.empty.freshMany 1).Covers (operatorEnv thunkMaker) :=
    covers_operatorEnv (by decide)
  have inOperator
      : typeOf (operatorEnv thunkMaker) operatorVar
          ((State.empty.freshMany 1).typing operatorCall)
        = .ok thunkMaker (((State.empty.freshMany 1).typing operatorCall).typing operatorVar) :=
    rfl
  have inOperands
      : typeOfEach (operatorEnv thunkMaker) [.boolean none true]
          (((State.empty.freshMany 1).typing operatorCall).typing operatorVar)
        = .ok ([OpenTy.atomic .boolean].map .ok)
            ((((State.empty.freshMany 1).typing operatorCall).typing operatorVar).typing
              (.boolean none true)) :=
    rfl
  rcases typeOf_application_result reachable covers inOperator inOperands with
    ⟨s₃, run, applied⟩ | ⟨e, s₃, run, _⟩
  · cases run
    exact ⟨_, _, _, _, reachable, covers, inOperator, inOperands, rfl, rfl, applied⟩
  · cases run

/-- An operator of this type is applied, and the variable of the result stays unbound. -/
def ResultUnbound (u : OpenTy) : Prop :=
  ∃ s s₁ s₂ s₃ : State,
    s.Reachable
    ∧ s.Covers (operatorEnv u)
    ∧ typeOf (operatorEnv u) operatorVar (s.typing operatorCall) = .ok u s₁
    ∧ typeOfEach (operatorEnv u) [.boolean none true] s₁
      = .ok ([OpenTy.atomic .boolean].map .ok) s₂
    ∧ typeOf (operatorEnv u) operatorCall s = .ok (.var s₂.table.size) s₃
    ∧ s₃.table.binding? s₂.table.size = none

/-- The operator returns a type variable, which is bound to the new one, or is a type variable
itself, which is bound to a procedure type that ends with the new one.
-/
theorem typeOf_application_unbound
    : ResultUnbound (.procedure [.atomic .boolean] (.var 0)) ∧ ResultUnbound (.var 0) := by
  have reachable : (State.empty.freshMany 1).Reachable := ⟨[.fresh], [], rfl⟩
  constructor
  · exact ⟨_, _, _, _, reachable, covers_operatorEnv (by decide), rfl, rfl, rfl, rfl⟩
  · exact ⟨_, _, _, _, reachable, covers_operatorEnv (by decide), rfl, rfl, rfl, rfl⟩

end Expr

end TypedScheme
