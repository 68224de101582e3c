import TypedScheme.Proofs.Inference.Session

/-! Types that a state holds: over the variables of its table, without names and wildcards.
Conversion gives such types, and all computations of an inference are given and give such types
only. A computation is described by what it gives where it succeeds and by its errors.
-/

namespace TypedScheme

namespace Environment

variable {α : Type} {env : Environment α}

/-- What holds of all values of an environment and of all new ones holds of those of the extended
one.
-/
theorem forall_values_extend {P : α → Prop} (holds : ∀ a ∈ env.values, P a)
    {bindings : List (String × α)} (each : ∀ binding ∈ bindings, P binding.2)
    : ∀ a ∈ (env.extend bindings).values, P a := by
  intro a member
  obtain ⟨binding, inside, rfl⟩ := List.mem_map.mp member
  obtain ⟨layer, isLayer, inLayer⟩ := List.mem_flatten.mp inside
  rcases List.mem_cons.mp isLayer with rfl | outer
  · exact each binding (List.mem_reverse.mp inLayer)
  · exact holds _ (List.mem_map_of_mem (List.mem_flatten.mpr ⟨layer, outer, inLayer⟩))

/-- What an environment gives for a name is one of its values. -/
theorem mem_values_of_get? {name : String} {a : α} (found : env.get? name = some a)
    : a ∈ env.values := by
  obtain ⟨layer, isLayer, inLayer⟩ := List.exists_of_findSome?_eq_some found
  obtain ⟨before, after, rfl, _⟩ := List.lookup_eq_some_iff.mp inLayer
  have member : (name, a) ∈ before ++ (name, a) :: after := by simp
  exact List.mem_map.mpr ⟨(name, a), List.mem_flatten.mpr ⟨_, isLayer, member⟩, rfl⟩

end Environment

namespace State

/-- The type is over the variables of the state and holds no name and no wildcard. -/
structure Holds (s : State) (u : OpenTy) : Prop where
  below : u.Below s.table.size
  plain : u.isPlain = true

/-- A type that is held stays so in every later state. -/
theorem Holds.of_extends {s s' : State} {u : OpenTy} (holds : s.Holds u) (later : s.Extends s')
    : s'.Holds u :=
  ⟨holds.below.mono later.table.size, holds.plain⟩

/-- Atomic types have no variables and are held by every state. -/
theorem holds_atomic (s : State) (a : Atomic) : s.Holds (.atomic a) := ⟨by simp, by simp⟩

/-- A procedure type is held exactly if its parameters and its result are. -/
theorem holds_procedure_iff {s : State} {params : List OpenTy} {result : OpenTy}
    : s.Holds (.procedure params result) ↔ (∀ param ∈ params, s.Holds param) ∧ s.Holds result := by
  constructor
  · rintro ⟨below, plain⟩
    obtain ⟨belowParams, belowResult⟩ := OpenTy.below_procedure.mp below
    obtain ⟨plainParams, plainResult⟩ := OpenTy.isPlain_procedure.mp plain
    exact ⟨fun param member => ⟨belowParams param member, plainParams param member⟩,
      belowResult, plainResult⟩
  · rintro ⟨ofParams, ofResult⟩
    refine ⟨OpenTy.below_procedure.mpr ⟨?_, ofResult.below⟩,
      OpenTy.isPlain_procedure.mpr ⟨?_, ofResult.plain⟩⟩
    · intro param member
      exact (ofParams param member).below
    · intro param member
      exact (ofParams param member).plain

/-- All types of the environment, hidden ones too. -/
def HoldsEnv (s : State) (env : TypeEnv) : Prop := ∀ u ∈ env.values, s.Holds u

/-- An environment whose types are held keeps them held in every later state. -/
theorem HoldsEnv.of_extends {s s' : State} {env : TypeEnv} (holds : s.HoldsEnv env)
    (later : s.Extends s')
    : s'.HoldsEnv env :=
  fun u member => (holds u member).of_extends later

/-- The empty environment has no types. -/
theorem holdsEnv_empty (s : State) : s.HoldsEnv .empty := by
  intro u member
  cases member

/-- New bindings with held types keep an environment held. -/
theorem HoldsEnv.extend {s : State} {env : TypeEnv} (holds : s.HoldsEnv env)
    {bindings : List (String × OpenTy)} (each : ∀ binding ∈ bindings, s.Holds binding.2)
    : s.HoldsEnv (env.extend bindings) :=
  Environment.forall_values_extend holds each

/-- So do parameters with held types. -/
theorem HoldsEnv.extend_zip {s : State} {env : TypeEnv} (holds : s.HoldsEnv env)
    (names : List String) {us : List OpenTy} (each : ∀ u ∈ us, s.Holds u)
    : s.HoldsEnv (env.extend (names.zip us)) :=
  holds.extend fun binding member => each binding.2 (List.of_mem_zip (b := binding.2) member).2

/-- The type that a held environment gives for a name is held. -/
theorem HoldsEnv.get? {s : State} {env : TypeEnv} (holds : s.HoldsEnv env) {name : String}
    {u : OpenTy} (found : env.get? name = some u)
    : s.Holds u :=
  holds u (Environment.mem_values_of_get? found)

end State

-----------------------------------------------------------------------------------------
-- What computations give
-----------------------------------------------------------------------------------------

namespace Infer

variable {α β : Type} {s : State} {E E' : State → TypeError → Prop}

/-- From the state the computation comes to a later well-formed state, with a value as told or with
an error as told.
-/
def Gives (s : State) (x : Infer α) (P : State → α → Prop) (E : State → TypeError → Prop) : Prop :=
  ∃ s',
    s'.WellFormed
    ∧ s.Extends s'
    ∧ ((∃ a, x s = .ok a s' ∧ P s' a) ∨ ∃ e, x s = .error e s' ∧ E s' e)

/-- The value of a success is as told. -/
theorem Gives.value {x : Infer α} {P : State → α → Prop} (gives : Gives s x P E) {a : α}
    {s' : State} (succeeded : x s = .ok a s')
    : P s' a := by
  obtain ⟨_, _, _, ⟨a', run, holds⟩ | ⟨e, run, _⟩⟩ := gives
  · rw [succeeded] at run
    cases run
    exact holds
  · rw [succeeded] at run
    cases run

/-- The error of a failure is as told. -/
theorem Gives.error {x : Infer α} {P : State → α → Prop} (gives : Gives s x P E) {e : TypeError}
    {s' : State} (failed : x s = .error e s')
    : E s' e := by
  obtain ⟨_, _, _, ⟨a, run, _⟩ | ⟨e', run, holds⟩⟩ := gives
  · rw [failed] at run
    cases run
  · rw [failed] at run
    cases run
    exact holds

/-- A computation that cannot fail gives what it computes. -/
theorem gives_ofState (wf : s.WellFormed) {f : State → α × State} (moving : OnlyMoves (ofState f))
    {P : State → α → Prop} (holds : P (f s).2 (f s).1)
    : Gives s (ofState f) P E := by
  obtain ⟨wf', later⟩ := State.Moves.wellFormed_extends (moving s) wf
  exact ⟨(f s).2, wf', later, .inl ⟨(f s).1, rfl, holds⟩⟩

/-- A value is given if it is as told already. -/
theorem gives_pure (wf : s.WellFormed) {a : α} {P : State → α → Prop} (holds : P s a)
    : Gives s (pure a) P E :=
  ⟨s, wf, .refl s, .inl ⟨a, rfl, holds⟩⟩

/-- An error is given if it is as told already. -/
theorem gives_throw (wf : s.WellFormed) {e : TypeError} {P : State → α → Prop} (holds : E s e)
    : Gives s (throw e) P E :=
  ⟨s, wf, .refl s, .inr ⟨e, rfl, holds⟩⟩

/-- A sequence gives what its second part gives, in every later state and for every value that its
first part gives.
-/
theorem Gives.bind {x : Infer α} {f : α → Infer β} {P : State → α → Prop} {Q : State → β → Prop}
    (first : Gives s x P E)
    (next : ∀ a s', s'.WellFormed → s.Extends s' → P s' a → Gives s' (f a) Q E)
    : Gives s (x >>= f) Q E := by
  obtain ⟨s', wf', later, ⟨a, run, holds⟩ | ⟨e, run, holds⟩⟩ := first
  · obtain ⟨s'', wf'', latest, rest⟩ := next a s' wf' later holds
    refine ⟨s'', wf'', later.trans latest, ?_⟩
    rw [run_bind_ok run]
    exact rest
  · exact ⟨s', wf', later, .inr ⟨e, run_bind_error run, holds⟩⟩

/-- What is told of values and errors may be weakened. -/
theorem Gives.imp {x : Infer α} {P Q : State → α → Prop} (gives : Gives s x P E)
    (values : ∀ s' a, P s' a → Q s' a) (errors : ∀ s' e, E s' e → E' s' e)
    : Gives s x Q E' := by
  obtain ⟨s', wf', later, ⟨a, run, holds⟩ | ⟨e, run, holds⟩⟩ := gives
  · exact ⟨s', wf', later, .inl ⟨a, run, values s' a holds⟩⟩
  · exact ⟨s', wf', later, .inr ⟨e, run, errors s' e holds⟩⟩

/-- A result kept for later: a value as told or an error as told. -/
def Kept (P : α → Prop) (E : TypeError → Prop) : Except TypeError α → Prop
  | .ok a => P a
  | .error e => E e

/-- What is told of a kept result may be weakened. -/
theorem Kept.imp {P Q : α → Prop} {F F' : TypeError → Prop} {r : Except TypeError α}
    (kept : Kept P F r) (values : ∀ a, P a → Q a) (errors : ∀ e, F e → F' e)
    : Kept Q F' r := by
  cases r with
  | ok a => exact values a kept
  | error e => exact errors e kept

/-- An attempt gives the result of the computation, unless that is a fatal error. -/
theorem Gives.attempt {x : Infer α} {P : State → α → Prop} (gives : Gives s x P E)
    (notFatal : ∀ s' e, E s' e → e.isFatal = false)
    : Gives s x.attempt (fun s' => Kept (P s') (E s')) E' := by
  obtain ⟨s', wf', later, ⟨a, run, holds⟩ | ⟨e, run, holds⟩⟩ := gives
  · refine ⟨s', wf', later, .inl ⟨.ok a, ?_, holds⟩⟩
    simp only [Infer.attempt, run]
  · refine ⟨s', wf', later, .inl ⟨.error e, ?_, holds⟩⟩
    simp [Infer.attempt, run, notFatal s' e holds]

/-- A kept result gives what was told of it. -/
theorem gives_ofExcept (wf : s.WellFormed) {P : α → Prop} {r : Except TypeError α}
    (kept : Kept P (E s) r)
    : Gives s (ofExcept r) (fun _ => P) E := by
  cases r with
  | ok a => exact gives_pure wf kept
  | error e => exact gives_throw wf kept

/-- A note in the log gives nothing in particular. -/
theorem gives_note (wf : s.WellFormed) (shape : String)
    : Gives s (note (.typing shape)) (fun _ _ => True) E := by
  obtain ⟨wf', later⟩ := State.Moves.wellFormed_extends (onlyMoves_note shape s) wf
  exact ⟨_, wf', later, .inl ⟨(), rfl, trivial⟩⟩

-----------------------------------------------------------------------------------------
-- New variables and written types
-----------------------------------------------------------------------------------------

/-- A fresh variable is held. -/
theorem gives_fresh (wf : s.WellFormed) : Gives s fresh State.Holds E := by
  refine gives_ofState wf onlyMoves_fresh ⟨?_, by simp [State.fresh]⟩
  rw [State.table_fresh, Table.size_allocate]
  simp [State.fresh, Table.allocate]

/-- The variable of a name is held. -/
theorem gives_named (wf : s.WellFormed) (name : String)
    : Gives s (ofState (·.named name)) State.Holds E := by
  refine gives_ofState wf (fun _ => .single (.named name)) ?_
  obtain ⟨v, isVar, known⟩ := s.lookup_named name
  rw [isVar]
  exact ⟨by simpa using (wf.afterNamed name).named known, by simp⟩

/-- Converted types are held if each of them is, by induction on the types. -/
theorem gives_convertAll_of {tys : List Ty}
    (each : ∀ ty ∈ tys, ∀ s : State, s.WellFormed → Gives s (convert ty) State.Holds E)
    (wf : s.WellFormed)
    : Gives s (convertAll tys) (fun s' us => ∀ u ∈ us, s'.Holds u) E := by
  induction tys generalizing s with
  | nil => exact gives_pure wf (by simp)
  | cons ty tys ih =>
      rw [convertAll_cons]
      refine (each ty (by simp) s wf).bind ?_
      intro u s₁ wf₁ _ holds
      refine (ih (fun ty member => each ty (List.mem_cons_of_mem _ member)) wf₁).bind ?_
      intro us s₂ wf₂ later others
      exact gives_pure wf₂ (List.forall_mem_cons.mpr ⟨holds.of_extends later, others⟩)

/-- A written type is converted to one that the state holds, by induction over its parts. -/
theorem gives_convert (ty : Ty) (s : State) (wf : s.WellFormed)
    : Gives s (convert ty) State.Holds E := by
  induction ty using Ty.partsInduction generalizing s with
  | atomic a => exact gives_pure wf (s.holds_atomic a)
  | named name => exact gives_named wf name
  | wildcard => exact gives_fresh wf
  | procedure params result ihParams ihResult =>
      rw [convert_procedure]
      refine (gives_convertAll_of ihParams wf).bind ?_
      intro params s₁ wf₁ _ ofParams
      refine (ihResult s₁ wf₁).bind ?_
      intro result s₂ wf₂ later ofResult
      exact gives_pure wf₂ (State.holds_procedure_iff.mpr
        ⟨fun param member => (ofParams param member).of_extends later, ofResult⟩)

/-- Converted types are held. -/
theorem gives_convertAll (tys : List Ty) (wf : s.WellFormed)
    : Gives s (convertAll tys) (fun s' us => ∀ u ∈ us, s'.Holds u) E :=
  gives_convertAll_of (fun ty _ => gives_convert ty) wf

/-- The types of a signature are held. -/
theorem gives_signature (params : List Declaration) (result : TypeExpr) (wf : s.WellFormed)
    : Gives s (signature params result)
        (fun s' sig => (∀ u ∈ sig.1, s'.Holds u) ∧ s'.Holds sig.2) E := by
  refine (gives_convertAll _ wf).bind ?_
  intro us s₁ wf₁ _ ofParams
  refine (gives_convert _ s₁ wf₁).bind ?_
  intro u s₂ wf₂ later ofResult
  exact gives_pure wf₂ ⟨fun u member => (ofParams u member).of_extends later, ofResult⟩

/-- The types of several signatures are held, by induction on the bindings. -/
theorem gives_signatures (bindings : List (Declaration × Expr)) (wf : s.WellFormed)
    : Gives s (signatures bindings)
        (fun s' sigs => ∀ sig ∈ sigs, (∀ u ∈ sig.1, s'.Holds u) ∧ s'.Holds sig.2) E := by
  fun_induction signatures bindings generalizing s with
  | case1 => exact gives_pure wf (by simp)
  | case2 _ _ params result _ _ ih =>
      refine (gives_signature params result wf).bind ?_
      intro sig s₁ wf₁ _ first
      refine (ih wf₁).bind ?_
      intro sigs s₂ wf₂ later others
      refine gives_pure wf₂ (List.forall_mem_cons.mpr ⟨⟨?_, first.2.of_extends later⟩, others⟩)
      intro u member
      exact (first.1 u member).of_extends later
  | case3 _ _ _ ih => exact ih wf

/-- Several fresh variables are as many more, by induction on their number. -/
theorem size_freshMany (n : Nat) (s : State) : (s.freshMany n).table.size = s.table.size + n := by
  induction n generalizing s with
  | zero => rfl
  | succ n ih =>
      rw [State.freshMany, ih, State.table_fresh, Table.size_allocate]
      omega

/-- The type of a primitive over fresh variables is held. -/
theorem gives_instantiate (op : Primitive) (wf : s.WellFormed)
    : Gives s (ofState (·.instantiate op)) State.Holds E := by
  refine gives_ofState wf (onlyMoves_instantiate op) ⟨?_, ?_⟩
  · intro v occurs
    obtain ⟨i, inScheme, isNew⟩ := OpenTy.mem_vars_subst occurs
    have inside := scheme_below op i inScheme
    have same : v = s.table.size + i := by simpa using isNew
    have grown : (s.instantiate op).2.table.size = s.table.size + op.quantified :=
      size_freshMany op.quantified s
    omega
  · exact OpenTy.isPlain_subst (fun _ => OpenTy.isPlain_var _) (scheme_isPlain op)

end Infer

-----------------------------------------------------------------------------------------
-- Environments converted into a new state
-----------------------------------------------------------------------------------------

/-- The types of the environment were written types, which were converted one after the other in a
new state and left it as `s`.
-/
def Environment.ConvertedInto (env : TypeEnv) (s : State) : Prop :=
  ∃ tys, (State.empty.convertAll tys).2 = s ∧ ∀ u ∈ env.values, u ∈ (State.empty.convertAll tys).1

/-- No types are converted into a new state by doing nothing. -/
theorem Environment.convertedInto_empty : (Environment.empty : TypeEnv).ConvertedInto .empty :=
  ⟨[], rfl, by simp [Environment.values, Environment.layers, Environment.empty]⟩

/-- The state after the conversion of a procedure type from a named type to itself. -/
def Expr.identityState : State := (State.empty.convertAll [.procedure [.named "T"] (.named "T")]).2

/-- One variable of that type. -/
def Expr.identityEnv : TypeEnv := .ofList [("f", .procedure [.var 0] (.var 0))]

/-- The environment was converted as the one type that it binds. -/
theorem Expr.identityEnv_convertedInto : identityEnv.ConvertedInto identityState :=
  ⟨[.procedure [.named "T"] (.named "T")], rfl, by decide⟩

/-- Converted types are held by the state that they were converted into, which is well formed. -/
theorem Environment.ConvertedInto.wellFormed_holdsEnv {env : TypeEnv} {s : State}
    (converted : env.ConvertedInto s)
    : s.WellFormed ∧ s.HoldsEnv env := by
  obtain ⟨tys, rfl, among⟩ := converted
  obtain ⟨s', wf, _, ⟨us, run, holds⟩ | ⟨e, _, impossible⟩⟩ :=
    Infer.gives_convertAll (E := fun _ _ => False) tys State.empty_wellFormed
  · cases run
    exact ⟨wf, fun u member => holds u (among u member)⟩
  · exact impossible.elim

end TypedScheme
