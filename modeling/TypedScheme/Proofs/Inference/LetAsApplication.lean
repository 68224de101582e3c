import TypedScheme.Proofs.Inference.Completeness
import TypedScheme.Proofs.Inference.HeldTypes
import TypedScheme.Proofs.Unification.Renaming

/-! A `let` and the immediate application of the corresponding `lambda` infer the same type.
The two inferences allocate and unify differently, but the expressions have the same typings. Each
inference finds a most general one, so that the types found are instances of each other.
-/

namespace TypedScheme

namespace Expr

variable {s s₁ : State} {env : TypeEnv} {e e' : Expr}

/-- A run that succeeded solves the state it started in, by what it resolves the variables to. -/
def solvedStart (wf : s.WellFormed) (wf₁ : s₁.WellFormed) (later : s.Extends s₁)
    : SolvedState s₁.annotation where
  state := s
  types v := s₁.table.resolve (.var v)
  wf := wf
  solved := wf₁.solvedBy_resolve.of_extends later

/-- What a run that succeeded resolves the types of its environment to is what these denote at its
start.
-/
theorem denotesEnv_resolve (wf : s.WellFormed) (wf₁ : s₁.WellFormed) (later : s.Extends s₁)
    (holds : s.HoldsEnv env)
    : (solvedStart wf wf₁ later).DenotesEnv env (env.map s₁.table.resolve) := by
  have layers : (env.map s₁.table.resolve).layers
      = env.layers.map (List.map (Prod.map id s₁.table.resolve)) := rfl
  rw [SolvedState.DenotesEnv, layers]
  refine List.forall₂_map_right_iff.mpr (List.forall₂_same.mpr fun layer isLayer => ?_)
  refine List.forall₂_map_right_iff.mpr (List.forall₂_same.mpr fun binding inLayer => ?_)
  have held := holds binding.2
    (List.mem_map_of_mem (List.mem_flatten.mpr ⟨layer, isLayer, inLayer⟩))
  exact ⟨rfl, held.below, held.plain, (Table.resolve_eq_subst _ _).symm⟩

/-- If one expression has all typings of another one and that one can be inferred, then it can be
inferred too, and what the other one resolves types to is an instance of what it resolves them to.
-/
theorem instance_of_typings (wf : s.WellFormed) (holds : s.HoldsEnv env)
    (typings : ∀ ρ Γ t, HasType ρ Γ e t → HasType ρ Γ e' t) {u : OpenTy}
    (run : e.typeOf env s = .ok u s₁)
    : ∃ u' s₂ τ,
        e'.typeOf env s = .ok u' s₂
        ∧ (s₂.table.resolve u').subst τ = s₁.table.resolve u
        ∧ ∀ v < s.table.size,
            (s₂.table.resolve (.var v)).subst τ = s₁.table.resolve (.var v) := by
  have moves := e.typeOf_onlyMoves env s
  rw [run] at moves
  obtain ⟨wf₁, later⟩ := moves.wellFormed_extends wf
  have derived := typings _ _ _ (hasType_resolve wf run)
  obtain ⟨u', w, run', grows, denotes⟩ :=
    e'.typeOf_achieves _ env _ _ (denotesEnv_resolve wf wf₁ later holds) derived
  refine ⟨u', w.state, w.types, run', ?_, ?_⟩
  · rw [w.solved.table.subst_resolve, denotes.equal]
  · intro v inside
    rw [w.solved.table.subst_resolve, OpenTy.subst_var, grows.agree v inside]
    rfl

/-- One procedure type of what the first variables stand for and a type, all resolved. -/
def resolvedTogether (size : Nat) (t : Table) (u : OpenTy) : OpenTy :=
  .procedure ((List.range size).map fun v => t.resolve (.var v)) (t.resolve u)

/-- Instances of the single types are instances of all of them together. -/
theorem resolvedTogether_subst {size : Nat} {t t' : Table} {u u' : OpenTy} {τ : Nat → OpenTy}
    (ofType : (t.resolve u).subst τ = t'.resolve u')
    (each : ∀ v < size, (t.resolve (.var v)).subst τ = t'.resolve (.var v))
    : (resolvedTogether size t u).subst τ = resolvedTogether size t' u' := by
  rw [resolvedTogether, OpenTy.subst_procedure, List.map_map, ofType]
  have same := List.map_congr_left fun v member => each v (List.mem_range.mp member)
  exact congrArg (OpenTy.procedure · (t'.resolve u')) same

/-- Expressions with the same typings infer alike: one succeeds where the other does, and then one
renaming turns the type found and what the variables of the start stand for into each other.
-/
theorem alike_of_typings (wf : s.WellFormed) (holds : s.HoldsEnv env)
    (typings : ∀ ρ Γ t, HasType ρ Γ e t ↔ HasType ρ Γ e' t) {u : OpenTy}
    (run : e.typeOf env s = .ok u s₁)
    : ∃ u' s₂ π,
        e'.typeOf env s = .ok u' s₂
        ∧ (s₁.table.resolve u).rename π = s₂.table.resolve u'
        ∧ ∀ v < s.table.size,
            (s₁.table.resolve (.var v)).rename π = s₂.table.resolve (.var v) := by
  obtain ⟨u', s₂, τ, run', back, backEach⟩ :=
    instance_of_typings wf holds (fun ρ Γ t => (typings ρ Γ t).mp) run
  obtain ⟨u'', s₁', τ', run'', forth, forthEach⟩ :=
    instance_of_typings wf holds (fun ρ Γ t => (typings ρ Γ t).mpr) run'
  rw [run] at run''
  cases run''
  -- The types are renamed together, so that one renaming does for all of them.
  obtain ⟨π, renamed⟩ := OpenTy.exists_rename_of_instances
    (resolvedTogether_subst forth forthEach) (resolvedTogether_subst back backEach)
  rw [resolvedTogether, OpenTy.rename_procedure, List.map_map] at renamed
  obtain ⟨each, result⟩ := OpenTy.procedure.inj renamed
  refine ⟨u', s₂, π, run', result, ?_⟩
  intro v inside
  exact List.map_inj_left.mp each v (List.mem_range.mpr inside)

/-- Declaring variables by a `let` and by a `lambda` applied at once has the same typings. -/
theorem hasType_letIn_iff_application (bindings : List (Declaration × Expr)) (body : List Expr)
    {result : TypeExpr} (unwritten : result.ty = .wildcard) (pos pos' pos'' : Position)
    (ρ : String → OpenTy) (Γ : TypeEnv) (t : OpenTy)
    : HasType ρ Γ (.letIn pos bindings body) t
      ↔ HasType ρ Γ
          (.application pos' (.lambda pos'' (bindings.map (·.1)) result body)
            (bindings.map (·.2)))
          t := by
  constructor
  · intro typed
    cases typed with
    | letIn eachDeclared ofValues ofBody =>
        refine .application (.lambda eachDeclared ?_ ofBody) ofValues
        rw [unwritten]
        exact .wildcard t
  · intro typed
    cases typed with
    | application ofOperator ofOperands =>
        cases ofOperator with
        | lambda eachParam _ ofBody => exact .letIn eachParam ofOperands ofBody

/-- For all bindings, all bodies and an environment converted into a new state: a `let` and the
application of a `lambda` with the same variables, no result type and the same body to the values
both have a type or both have none. If they have, then one renaming of variables turns the type of
the first into that of the second, and each type over the variables of the environment, as resolved
after the first, into the same type as resolved after the second.
-/
theorem letIn_infers_as_application (env : TypeEnv) (s : State) (converted : env.ConvertedInto s)
    (bindings : List (Declaration × Expr)) (body : List Expr) (result : TypeExpr)
    (unwritten : result.ty = .wildcard) (pos pos' pos'' : Position)
    : ((∃ u s', (Expr.letIn pos bindings body).typeOf env s = .ok u s')
        ↔ ∃ u s',
            (Expr.application pos' (.lambda pos'' (bindings.map (·.1)) result body)
              (bindings.map (·.2))).typeOf env s = .ok u s')
      ∧ ∀ u s' u' s'',
          (Expr.letIn pos bindings body).typeOf env s = .ok u s'
          → (Expr.application pos' (.lambda pos'' (bindings.map (·.1)) result body)
              (bindings.map (·.2))).typeOf env s = .ok u' s''
          → ∃ π : Equiv.Perm Nat,
              (s'.table.resolve u).rename π = s''.table.resolve u'
              ∧ ∀ v < s.table.size,
                  (s'.table.resolve (.var v)).rename π = s''.table.resolve (.var v) := by
  obtain ⟨wf, holds⟩ := converted.wellFormed_holdsEnv
  have typings := hasType_letIn_iff_application bindings body unwritten pos pos' pos''
  refine ⟨⟨?_, ?_⟩, ?_⟩
  · rintro ⟨u, s', run⟩
    obtain ⟨u', s'', _, run', _⟩ := alike_of_typings wf holds typings run
    exact ⟨u', s'', run'⟩
  · rintro ⟨u, s', run⟩
    obtain ⟨u', s'', _, run', _⟩ :=
      alike_of_typings wf holds (fun ρ Γ t => (typings ρ Γ t).symm) run
    exact ⟨u', s'', run'⟩
  · intro u s' u' s'' run run'
    obtain ⟨_, _, π, again, renamed⟩ := alike_of_typings wf holds typings run
    rw [run'] at again
    cases again
    exact ⟨π, renamed⟩

/-- A procedure and a value whose written type is shared with the environment are bound to one
variable, so that the second hides the first.
-/
def hidingBindings : List (Declaration × Expr) :=
  [(⟨⟨"x", none⟩, .missing⟩, .var none ⟨"f", none⟩),
    (⟨⟨"x", none⟩, .named none "T"⟩, .boolean none true)]

def hidingBody : List Expr :=
  [.lambda none [⟨⟨"y", none⟩, .missing⟩] .missing
    [.application none (.var none ⟨"f", none⟩) [.var none ⟨"x", none⟩]]]

/-- The two types found differ in their variables, and one renaming turns the first into the second.
-/
theorem letIn_infers_as_application_hiding
    : identityEnv.ConvertedInto identityState
      ∧ ∃ u s' u' s'' π,
          (Expr.letIn none hidingBindings hidingBody).typeOf identityEnv identityState = .ok u s'
          ∧ (Expr.application none
              (.lambda none (hidingBindings.map (·.1)) .missing hidingBody)
              (hidingBindings.map (·.2))).typeOf identityEnv identityState = .ok u' s''
          ∧ s'.table.resolve u = .procedure [.var 2] (.atomic .boolean)
          ∧ s''.table.resolve u' = .procedure [.var 3] (.atomic .boolean)
          ∧ (s'.table.resolve u).rename π = s''.table.resolve u'
          ∧ ∀ v < identityState.table.size,
              (s'.table.resolve (.var v)).rename π = s''.table.resolve (.var v) := by
  have asLet
      : SucceededWith
          (fun u s' => s'.table.resolve u = .procedure [.var 2] (.atomic .boolean))
          ((Expr.letIn none hidingBindings hidingBody).typeOf identityEnv identityState) := by
    decide +kernel
  have asApplication
      : SucceededWith
          (fun u s' => s'.table.resolve u = .procedure [.var 3] (.atomic .boolean))
          ((Expr.application none (.lambda none (hidingBindings.map (·.1)) .missing hidingBody)
            (hidingBindings.map (·.2))).typeOf identityEnv identityState) := by
    decide +kernel
  obtain ⟨u, s', run, shape⟩ := asLet.exists_ok
  obtain ⟨u', s'', run', shape'⟩ := asApplication.exists_ok
  obtain ⟨π, renamed⟩ := (letIn_infers_as_application identityEnv identityState
    identityEnv_convertedInto hidingBindings hidingBody .missing rfl none none none).2
    u s' u' s'' run run'
  exact ⟨identityEnv_convertedInto, u, s', u', s'', π, run, run', shape, shape', renamed⟩

end Expr

end TypedScheme
