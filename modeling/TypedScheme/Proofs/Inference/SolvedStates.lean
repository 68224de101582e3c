import Mathlib.Logic.Function.Basic
import TypedScheme.Proofs.Inference.Typing
import TypedScheme.Proofs.Unification.Completeness

/-! Computations in a state with a solution.
The solution is carried along a run that must succeed: new variables get the types that they are
meant for, and a unification of types that the solution makes equal keeps it.
-/

namespace TypedScheme

/-- A well-formed state with a solution in which names stand for the types that `ρ` gives. -/
structure SolvedState (ρ : String → OpenTy) where
  state : State
  types : Nat → OpenTy
  wf : state.WellFormed
  solved : state.SolvedBy types ρ

namespace SolvedState

variable {ρ : String → OpenTy}

abbrev size (w : SolvedState ρ) : Nat := w.state.table.size

/-- A later state, whose solution gives the variables of the earlier one the same types. -/
structure Grows (w w' : SolvedState ρ) : Prop where
  size : w.size ≤ w'.size
  agree : ∀ v, v < w.size → w'.types v = w.types v

/-- A solved state grows from itself. -/
theorem Grows.refl (w : SolvedState ρ) : w.Grows w := ⟨Nat.le_refl _, fun _ _ => rfl⟩

/-- Growth of solved states is transitive. -/
theorem Grows.trans {w w' w'' : SolvedState ρ} (first : w.Grows w') (second : w'.Grows w'')
    : w.Grows w'' := by
  refine ⟨Nat.le_trans first.size second.size, ?_⟩
  intro v inside
  rw [second.agree v (Nat.lt_of_lt_of_le inside first.size), first.agree v inside]

/-- A plain type over the variables of the state, which the solution makes equal to `t`. -/
structure Denotes (w : SolvedState ρ) (u t : OpenTy) : Prop where
  below : u.Below w.size
  plain : u.isPlain = true
  equal : u.subst w.types = t

/-- A type denotes the same in every state that has grown. -/
theorem Denotes.of_grows {w w' : SolvedState ρ} {u t : OpenTy} (denotes : w.Denotes u t)
    (grows : w.Grows w')
    : w'.Denotes u t := by
  refine ⟨denotes.below.mono grows.size, denotes.plain, ?_⟩
  rw [← denotes.equal]
  apply OpenTy.subst_congr
  intro v occurs
  exact grows.agree v (denotes.below v occurs)

/-- An atomic type denotes itself. -/
theorem denotes_atomic (w : SolvedState ρ) (a : Atomic) : w.Denotes (.atomic a) (.atomic a) :=
  ⟨by simp, by simp, by simp⟩

/-- A list denotes a list if its types denote the types there, by induction on the list. -/
theorem forall₂_denotes_iff {w : SolvedState ρ} {us ts : List OpenTy}
    : List.Forall₂ w.Denotes us ts
      ↔ (∀ u ∈ us, u.Below w.size)
        ∧ (∀ u ∈ us, u.isPlain = true)
        ∧ us.map (OpenTy.subst w.types) = ts := by
  constructor
  · intro denote
    induction denote with
    | nil => simp
    | cons first _ ih =>
        obtain ⟨below, plain, equal⟩ := ih
        refine ⟨?_, ?_, ?_⟩
        · exact List.forall_mem_cons.mpr ⟨first.below, below⟩
        · exact List.forall_mem_cons.mpr ⟨first.plain, plain⟩
        · rw [List.map_cons, first.equal, equal]
  · rintro ⟨below, plain, rfl⟩
    refine List.forall₂_map_right_iff.mpr (List.forall₂_same.mpr ?_)
    intro u member
    exact ⟨below u member, plain u member, rfl⟩

/-- A procedure type denotes what its parts denote. -/
theorem denotes_procedure_iff {w : SolvedState ρ} {us ts : List OpenTy} {u t : OpenTy}
    : w.Denotes (.procedure us u) (.procedure ts t)
      ↔ List.Forall₂ w.Denotes us ts ∧ w.Denotes u t := by
  rw [forall₂_denotes_iff]
  constructor
  · rintro ⟨below, plain, equal⟩
    obtain ⟨belowParams, belowResult⟩ := OpenTy.below_procedure.mp below
    obtain ⟨plainParams, plainResult⟩ := OpenTy.isPlain_procedure.mp plain
    rw [OpenTy.subst_procedure] at equal
    obtain ⟨equalParams, equalResult⟩ := OpenTy.procedure.inj equal
    exact ⟨⟨belowParams, plainParams, equalParams⟩, belowResult, plainResult, equalResult⟩
  · rintro ⟨⟨belowParams, plainParams, rfl⟩, belowResult, plainResult, rfl⟩
    exact ⟨OpenTy.below_procedure.mpr ⟨belowParams, belowResult⟩,
      OpenTy.isPlain_procedure.mpr ⟨plainParams, plainResult⟩, OpenTy.subst_procedure _ _ _⟩

/-- The environments bind the same names, and the types of one denote those of the other. -/
def DenotesEnv (w : SolvedState ρ) (env Γ : TypeEnv) : Prop :=
  List.Forall₂
    (List.Forall₂ fun binding binding' : String × OpenTy =>
      binding.1 = binding'.1 ∧ w.Denotes binding.2 binding'.2)
    env.layers Γ.layers

/-- An environment denotes the same in every state that has grown. -/
theorem DenotesEnv.of_grows {w w' : SolvedState ρ} {env Γ : TypeEnv} (denotes : w.DenotesEnv env Γ)
    (grows : w.Grows w')
    : w'.DenotesEnv env Γ :=
  denotes.imp fun _ _ layers => layers.imp fun _ _ related =>
    ⟨related.1, related.2.of_grows grows⟩

/-- The empty environment denotes itself. -/
theorem denotesEnv_empty (w : SolvedState ρ) : w.DenotesEnv .empty .empty := .cons .nil .nil

/-- An environment with parameters denotes one with what the parameters denote. -/
theorem DenotesEnv.extend {w : SolvedState ρ} {env Γ : TypeEnv} (denotes : w.DenotesEnv env Γ)
    (names : List String) {us ts : List OpenTy} (denote : List.Forall₂ w.Denotes us ts)
    : w.DenotesEnv (env.extend (names.zip us)) (Γ.extend (names.zip ts)) :=
  .cons (List.forall₂_reverse_iff.mpr (Environment.rel_zip names denote)) denotes

/-- What one environment gives a name denotes what the other gives it, by induction on the layers.
-/
theorem DenotesEnv.rel_get? {w : SolvedState ρ} {env Γ : TypeEnv} (denotes : w.DenotesEnv env Γ)
    (name : String)
    : Option.Rel w.Denotes (env.get? name) (Γ.get? name) := by
  rw [Environment.get?, Environment.get?]
  rw [DenotesEnv] at denotes
  generalize env.layers = layers, Γ.layers = layers' at denotes ⊢
  induction denotes with
  | nil => exact .none
  | @cons layer layer' _ _ first _ ih =>
      have here := Environment.rel_lookup name first
      rw [List.findSome?_cons, List.findSome?_cons]
      generalize layer.lookup name = found, layer'.lookup name = found' at here ⊢
      cases here with
      | some denotes => exact .some denotes
      | none => exact ih

end SolvedState

-----------------------------------------------------------------------------------------
-- Computations that must succeed
-----------------------------------------------------------------------------------------

namespace Infer

open SolvedState

variable {ρ : String → OpenTy} {α β : Type}

/-- The computation succeeds, in a later state whose solution is as told. -/
def Achieves (w : SolvedState ρ) (x : Infer α) (P : SolvedState ρ → α → Prop) : Prop :=
  ∃ a w', x w.state = .ok a w'.state ∧ w.Grows w' ∧ P w' a

/-- A value is achieved if it is as told already. -/
theorem achieves_pure {w : SolvedState ρ} {a : α} {P : SolvedState ρ → α → Prop} (holds : P w a)
    : Achieves w (pure a) P :=
  ⟨a, w, rfl, .refl w, holds⟩

/-- A sequence achieves what its second part does, from every value and state that its first part
achieves.
-/
theorem Achieves.bind {w : SolvedState ρ} {x : Infer α} {f : α → Infer β}
    {P : SolvedState ρ → α → Prop} {Q : SolvedState ρ → β → Prop} (first : Achieves w x P)
    (next : ∀ a w', w.Grows w' → P w' a → Achieves w' (f a) Q)
    : Achieves w (x >>= f) Q := by
  obtain ⟨a, w', run, grows, holds⟩ := first
  obtain ⟨b, w'', runNext, growsNext, holdsNext⟩ := next a w' grows holds
  exact ⟨b, w'', (run_bind_ok run).trans runNext, grows.trans growsNext, holdsNext⟩

/-- An attempt achieves the value that the computation does. -/
theorem Achieves.attempt {w : SolvedState ρ} {x : Infer α} {P : SolvedState ρ → α → Prop}
    (achieves : Achieves w x P)
    : Achieves w x.attempt fun w' r => ∃ a, r = .ok a ∧ P w' a := by
  obtain ⟨a, w', run, grows, holds⟩ := achieves
  exact ⟨.ok a, w', by simp only [Infer.attempt, run], grows, a, rfl, holds⟩

/-- A note changes neither table nor names. -/
theorem achieves_note (w : SolvedState ρ) (event : Event)
    : Achieves w (note event) fun _ _ => True := by
  let logged : State := { w.state with log := w.state.log.push event }
  exact ⟨(), ⟨logged, w.types, ⟨w.wf.table, w.wf.named⟩, ⟨w.solved.table, w.solved.names⟩⟩, rfl,
    ⟨Nat.le_refl _, fun _ _ => rfl⟩, trivial⟩

/-- Types that denote the same can be unified, and the solution stays a solution. -/
theorem achieves_unify {w : SolvedState ρ} {a b t : OpenTy} (left : w.Denotes a t)
    (right : w.Denotes b t) (context : Expr)
    : Achieves w (unify a b context) fun _ _ => True := by
  have eqn : Unify.Equation w.types w.state.table.snapshot.2 a b :=
    ⟨w.solved.table, left.equal.trans right.equal.symm, ⟨left.below, right.below⟩,
      ⟨left.plain, right.plain⟩⟩
  obtain ⟨table, unified, binds, solved⟩ := Unify.types_succeeds w.wf.table.snapshot eqn
  have run := State.transaction_run_ok unified binds context
  obtain ⟨wf, later⟩ := State.transaction_extends (Unify.types_onlyBinds a b) context w.wf
  rw [run, finalState_ok] at wf later
  exact ⟨(), ⟨_, w.types, wf, ⟨solved, w.solved.names⟩⟩, run,
    ⟨later.table.size, fun _ _ => rfl⟩, trivial⟩

/-- Types that denote the same are equal, so that their comparison succeeds. -/
theorem achieves_checkEqual {w : SolvedState ρ} {a b t : OpenTy} (left : w.Denotes a t)
    (right : w.Denotes b t) (context : Expr)
    : Achieves w (checkEqual (.ok a) (.ok b) context) fun _ _ => True :=
  achieves_unify left right context

/-- Among values only there is no error, by induction on the values. -/
theorem partition_map_ok (values : List α) : partition (values.map .ok) = (values, []) := by
  induction values with
  | nil => rfl
  | cons a values ih => rw [List.map_cons, partition, ih]

/-- Collecting values achieves just these. -/
theorem achieves_collect {w : SolvedState ρ} (values : List α) (context : Expr)
    : Achieves w (collect (values.map .ok) context) fun _ collected => collected = values := by
  rw [collect, partition_map_ok]
  exact achieves_pure rfl

end Infer

-----------------------------------------------------------------------------------------
-- New variables
-----------------------------------------------------------------------------------------

namespace SolvedState

variable {ρ : String → OpenTy}

/-- A solution may give any type to a new variable: no binding holds the variable yet. -/
theorem solvedBy_allocate (w : SolvedState ρ) (name : Option String) (t : OpenTy)
    : (w.state.table.allocate name).2.SolvedBy (Function.update w.types w.size t) := by
  intro v ty bound
  rw [Table.binding?_allocate] at bound
  have inside := Table.lt_size_of_binding? bound
  rw [Function.update_of_ne (Nat.ne_of_lt inside), w.solved.table v ty bound]
  apply OpenTy.subst_congr
  intro x occurs
  exact (Function.update_of_ne (Nat.ne_of_lt (w.wf.table.allocated bound x occurs)) _ _).symm

/-- A type for the next variable leaves those of the names as they are. -/
theorem names_allocate (w : SolvedState ρ) (t : OpenTy) {name : String} {v : Nat}
    (found : w.state.names.lookup name = some v)
    : Function.update w.types w.size t v = ρ name := by
  rw [Function.update_of_ne (Nat.ne_of_lt (w.wf.named found)), w.solved.names found]

/-- The new variable denotes the type that the solution was extended with. -/
theorem grows_allocate {w w' : SolvedState ρ} (name : Option String) {t : OpenTy}
    (table : w'.state.table = (w.state.table.allocate name).2)
    (types : w'.types = Function.update w.types w.size t)
    : w'.size = w.size + 1 ∧ w.Grows w' ∧ w'.Denotes (.var w.size) t := by
  have size : w'.size = w.size + 1 := by rw [SolvedState.size, table, Table.size_allocate]
  refine ⟨size, ⟨by omega, ?_⟩, ⟨by rw [size]; simp, by simp, by simp [types]⟩⟩
  intro v inside
  rw [types, Function.update_of_ne (Nat.ne_of_lt inside)]

/-- The next variable gets the type `t`. -/
def afterFresh (w : SolvedState ρ) (t : OpenTy) : SolvedState ρ where
  state := w.state.fresh.2
  types := Function.update w.types w.size t
  wf := w.wf.fresh
  solved := ⟨w.solvedBy_allocate none t, w.names_allocate t⟩

/-- With a type for the next variable, the state has grown by it and the variable denotes the type.
-/
theorem grows_afterFresh (w : SolvedState ρ) (t : OpenTy)
    : (w.afterFresh t).size = w.size + 1
      ∧ w.Grows (w.afterFresh t)
      ∧ (w.afterFresh t).Denotes (.var w.size) t :=
  grows_allocate none rfl rfl

/-- A name met for the first time: its variable gets the type of the name. -/
def afterNamed (w : SolvedState ρ) {name : String} (unknown : w.state.names.lookup name = none)
    : SolvedState ρ where
  state := (w.state.named name).2
  types := Function.update w.types w.size (ρ name)
  wf := w.wf.afterNamed name
  solved := by
    obtain ⟨_, table, names⟩ := State.named_of_unknown unknown
    refine ⟨by rw [table]; exact w.solvedBy_allocate _ _, ?_⟩
    intro other v found
    rw [names] at found
    by_cases same : other = name
    · rw [same, State.lookup_cons_self] at found
      cases found
      rw [Function.update_self, same]
    · rw [State.lookup_cons_of_ne same] at found
      exact w.names_allocate _ found

/-- The next variables get the types that `τ` lists, by induction on their number. -/
theorem exists_freshMany (w : SolvedState ρ) (n : Nat) (τ : Nat → OpenTy)
    : ∃ w',
        w'.state = w.state.freshMany n
        ∧ w'.size = w.size + n
        ∧ w.Grows w'
        ∧ ∀ i, i < n → w'.types (w.size + i) = τ i := by
  induction n generalizing w τ with
  | zero => exact ⟨w, rfl, rfl, .refl w, fun i none => absurd none (Nat.not_lt_zero i)⟩
  | succ n ih =>
      obtain ⟨size, grows, denotes⟩ := w.grows_afterFresh (τ 0)
      obtain ⟨w', state, size', grows', types⟩ := ih (w.afterFresh (τ 0)) fun i => τ (i + 1)
      refine ⟨w', state, by omega, grows.trans grows', ?_⟩
      intro i inside
      cases i with
      | zero =>
          rw [Nat.add_zero, grows'.agree w.size (by omega)]
          simpa using denotes.equal
      | succ i =>
          rw [← types i (by omega), size]
          congr 1
          omega

end SolvedState

namespace Infer

open SolvedState

variable {ρ : String → OpenTy}

/-- A fresh variable can denote any type. -/
theorem achieves_fresh (w : SolvedState ρ) (t : OpenTy)
    : Achieves w fresh fun w' u => w'.Denotes u t := by
  obtain ⟨_, grows, denotes⟩ := w.grows_afterFresh t
  exact ⟨.var w.size, w.afterFresh t, rfl, grows, denotes⟩

/-- The variable of a name gets the type of the name, unless it has it already. -/
theorem achieves_named (w : SolvedState ρ) (name : String)
    : Achieves w (ofState (·.named name)) fun w' u => w'.Denotes u (ρ name) := by
  cases known : w.state.names.lookup name with
  | some v =>
      refine ⟨.var v, w, ?_, .refl w, ⟨by simpa using w.wf.named known, by simp, ?_⟩⟩
      · rw [ofState, State.named_of_known known]
      · simpa using w.solved.names known
  | none =>
      obtain ⟨isVar, table, _⟩ := State.named_of_unknown known
      have allocated : (w.afterNamed known).state.table = _ := table
      obtain ⟨_, grows, denotes⟩ := grows_allocate (some name) allocated rfl
      refine ⟨.var w.size, w.afterNamed known, ?_, grows, denotes⟩
      rw [ofState, ← isVar]
      rfl

end Infer

end TypedScheme
