import TypedScheme.Inference.Rules
import TypedScheme.Proofs.Induction
import TypedScheme.Proofs.Unification.Growth
import TypedScheme.Proofs.Unification.Soundness

/-! What an inference can do to its state: it writes to the log, allocates variables, and runs
unifications as transactions. Every invariant of inference is derived from these moves, whether the
inference succeeds or fails.
-/

namespace TypedScheme

/-- A unification that does nothing to a well-formed table but bind variables. -/
def Unify.OnlyBinds (x : Unify Unit) : Prop :=
  ∀ t : Table, t.WellFormed → t.Binds (finalState (x t))

/-- The unification of two types only binds. -/
theorem Unify.types_onlyBinds (a b : OpenTy) : (types a b).OnlyBinds :=
  fun t wf => (types_unifies a b t wf.toGrounded).binds

/-- The unification of types pair by pair only binds. -/
theorem Unify.allTypes_onlyBinds (as bs : List OpenTy) : (allTypes as bs).OnlyBinds :=
  fun t wf => (allTypes_unifiesAll as bs t wf.toGrounded).binds

namespace State

/-- The table is well formed, and the variables of names are variables of the table. -/
structure WellFormed (s : State) : Prop where
  table : s.table.WellFormed
  named : ∀ {name v}, s.names.lookup name = some v → v < s.table.size

/-- A later state, which keeps all variables, all bindings and all names. -/
structure Extends (s s' : State) : Prop where
  table : s.table.Extends s'.table
  names : ∀ {name v}, s.names.lookup name = some v → s'.names.lookup name = some v

/-- The new state is well formed: it has no variables and no names. -/
theorem empty_wellFormed : empty.WellFormed where
  table := Table.empty_wellFormed
  named := by
    intro name v found
    simp [empty] at found

/-- A state keeps what it has. -/
theorem Extends.refl (s : State) : s.Extends s := ⟨.refl _, id⟩

/-- What is kept in two steps is kept in the whole. -/
theorem Extends.trans {s s' s'' : State} (first : s.Extends s') (second : s'.Extends s'')
    : s.Extends s'' :=
  ⟨first.table.trans second.table, fun found => second.names (first.names found)⟩

-----------------------------------------------------------------------------------------
-- Moves
-----------------------------------------------------------------------------------------

/-- One thing that an inference can do to its state. -/
inductive Move : State → State → Prop
  | typing {s : State} (shape : String) : Move s { s with log := s.log.push (.typing shape) }
  | fresh {s : State} : Move s s.fresh.2
  | named {s : State} (name : String) : Move s (s.named name).2
  | transaction {s : State} {x : Unify Unit} (onlyBinds : x.OnlyBinds) (context : Expr)
    : Move s (finalState (Infer.transaction x context s))

/-- Any number of moves. -/
abbrev Moves : State → State → Prop := Relation.ReflTransGen Move

/-- A unification that succeeds is committed, since its snapshot can be closed. -/
theorem transaction_run_ok {x : Unify Unit} {s : State} {t : Table}
    (run : x s.table.snapshot.2 = .ok () t) (binds : s.table.snapshot.2.Binds t) (context : Expr)
    : Infer.transaction x context s
      = .ok () ⟨t.commit s.table.snapshot.1, s.names,
          s.log.append (Infer.boundEvents t s.table.snapshot.1).toArray⟩ := by
  simp only [Infer.transaction, run, binds.grows.canClose, if_true]

/-- A unification that fails is rolled back, to the table that there was. -/
theorem transaction_run_error {x : Unify Unit} {s : State} {e : UnifyError} {t : Table}
    (run : x s.table.snapshot.2 = .error e t) (binds : s.table.snapshot.2.Binds t)
    (context : Expr)
    : Infer.transaction x context s
      = .error (e.explain t context) ⟨s.table, s.names,
          s.log.append (Infer.boundEvents t s.table.snapshot.1
            ++ Infer.undoneEvents t s.table.snapshot.1).toArray⟩ := by
  simp only [Infer.transaction, run, binds.grows.canClose, if_true, binds.rollback_snapshot]

/-- A transaction that succeeds keeps the bindings made, and one that fails leaves the table as it
was. Either tells the bindings in the log, and neither changes the names.
-/
theorem transaction_cases {x : Unify Unit} (onlyBinds : x.OnlyBinds) (context : Expr) {s : State}
    (wf : s.table.WellFormed)
    : (∃ t,
        x s.table.snapshot.2 = .ok () t
        ∧ s.table.snapshot.2.Binds t
        ∧ Infer.transaction x context s
          = .ok () ⟨t.commit s.table.snapshot.1, s.names,
              s.log.append (Infer.boundEvents t s.table.snapshot.1).toArray⟩)
      ∨ ∃ e t,
          x s.table.snapshot.2 = .error e t
          ∧ s.table.snapshot.2.Binds t
          ∧ Infer.transaction x context s
            = .error (e.explain t context) ⟨s.table, s.names,
                s.log.append (Infer.boundEvents t s.table.snapshot.1
                  ++ Infer.undoneEvents t s.table.snapshot.1).toArray⟩ := by
  have binds := onlyBinds _ wf.snapshot
  cases run : x s.table.snapshot.2 with
  | ok _ t =>
      rw [run] at binds
      exact .inl ⟨t, rfl, binds, transaction_run_ok run binds context⟩
  | error e t =>
      rw [run] at binds
      exact .inr ⟨e, t, rfl, binds, transaction_run_error run binds context⟩

/-- A committed table keeps all variables and bindings from before its snapshot. -/
theorem extends_commit {t t' : Table} (binds : t.snapshot.2.Binds t')
    : t.Extends (t'.commit t.snapshot.1) :=
  ⟨binds.extends.size, binds.extends.kept, binds.extends.named⟩

/-- The table in which a transaction ends is well formed and keeps what there was. -/
theorem transaction_extends {x : Unify Unit} (onlyBinds : x.OnlyBinds) (context : Expr)
    {s : State} (wf : s.WellFormed)
    : (finalState (Infer.transaction x context s)).WellFormed
      ∧ s.Extends (finalState (Infer.transaction x context s)) := by
  rcases transaction_cases onlyBinds context wf.table with
    ⟨t, _, binds, ends⟩ | ⟨e, t, _, _, ends⟩
  · have later := extends_commit binds
    rw [ends, finalState_ok]
    refine ⟨⟨(binds.wellFormed wf.table.snapshot).commit s.table.snapshot.1, ?_⟩, ⟨later, id⟩⟩
    intro name v found
    exact Nat.lt_of_lt_of_le (wf.named found) later.size
  · rw [ends, finalState_error]
    exact ⟨⟨wf.table, wf.named⟩, ⟨.refl _, id⟩⟩

-----------------------------------------------------------------------------------------
-- Allocation
-----------------------------------------------------------------------------------------

/-- A fresh variable is allocated without a name. -/
@[simp]
theorem table_fresh (s : State) : s.fresh.2.table = (s.table.allocate none).2 := rfl

/-- A fresh variable adds no name. -/
@[simp]
theorem names_fresh (s : State) : s.fresh.2.names = s.names := rfl

/-- A known name leads to its variable and changes nothing. -/
theorem named_of_known {s : State} {name : String} {v : Nat}
    (known : s.names.lookup name = some v)
    : s.named name = (.var v, s) := by
  simp only [State.named, known]

/-- A name met for the first time gets the next variable. -/
theorem named_eq_of_unknown {s : State} {name : String} (unknown : s.names.lookup name = none)
    : s.named name
      = (.var s.table.size,
          ⟨(s.table.allocate (some name)).2, (name, s.table.size) :: s.names,
            s.log.push (.named s.table.size name)⟩) := by
  rw [State.named, unknown]
  rfl

/-- A new name leads to a new variable and is known from then on. -/
theorem named_of_unknown {s : State} {name : String} (unknown : s.names.lookup name = none)
    : (s.named name).1 = .var s.table.size
      ∧ (s.named name).2.table = (s.table.allocate (some name)).2
      ∧ (s.named name).2.names = (name, s.table.size) :: s.names := by
  rw [named_eq_of_unknown unknown]
  exact ⟨rfl, rfl, rfl⟩

/-- The name added last is found first. -/
theorem lookup_cons_self (names : List (String × Nat)) (name : String) (v : Nat)
    : List.lookup name ((name, v) :: names) = some v := by
  simp

/-- Adding a name hides no other one. -/
theorem lookup_cons_of_ne {names : List (String × Nat)} {name other : String} {v : Nat}
    (distinct : other ≠ name)
    : List.lookup other ((name, v) :: names) = names.lookup other := by
  rw [List.lookup_cons, beq_false_of_ne distinct]

/-- Afterwards the name is known by the variable returned. -/
theorem lookup_named (s : State) (name : String)
    : ∃ v, (s.named name).1 = .var v ∧ (s.named name).2.names.lookup name = some v := by
  cases known : s.names.lookup name with
  | some v =>
      rw [named_of_known known]
      exact ⟨v, rfl, known⟩
  | none =>
      obtain ⟨isVar, _, names⟩ := named_of_unknown known
      rw [names, lookup_cons_self]
      exact ⟨s.table.size, isVar, rfl⟩

/-- A fresh variable keeps the state well formed. -/
theorem WellFormed.fresh {s : State} (wf : s.WellFormed) : s.fresh.2.WellFormed where
  table := wf.table.allocate none
  named := by
    intro name v found
    have inside := wf.named found
    simp only [table_fresh, Table.size_allocate]
    omega

/-- A new variable leaves all others as they are. -/
theorem extends_allocate (t : Table) (name : Option String) : t.Extends (t.allocate name).2 where
  size := by simp
  kept := by simp
  named inside := by rw [Table.name?_allocate, if_neg (Nat.ne_of_lt inside)]

/-- A fresh variable keeps what there was. -/
theorem extends_fresh (s : State) : s.Extends s.fresh.2 :=
  ⟨extends_allocate s.table none, id⟩

/-- Meeting a name keeps the state well formed. -/
theorem WellFormed.afterNamed {s : State} (wf : s.WellFormed) (name : String)
    : (s.named name).2.WellFormed := by
  cases known : s.names.lookup name with
  | some v =>
      rw [named_of_known known]
      exact wf
  | none =>
      obtain ⟨_, table, names⟩ := named_of_unknown known
      refine ⟨by rw [table]; exact wf.table.allocate _, ?_⟩
      intro other v found
      rw [table, Table.size_allocate]
      rw [names] at found
      by_cases same : other = name
      · rw [same, lookup_cons_self] at found
        cases found
        omega
      · rw [lookup_cons_of_ne same] at found
        have inside := wf.named found
        omega

/-- Meeting a name keeps what there was. -/
theorem extends_named (s : State) (name : String) : s.Extends (s.named name).2 := by
  cases known : s.names.lookup name with
  | some v =>
      rw [named_of_known known]
      exact .refl s
  | none =>
      obtain ⟨_, table, names⟩ := named_of_unknown known
      refine ⟨table ▸ extends_allocate s.table (some name), ?_⟩
      intro other v found
      have distinct : other ≠ name := by
        intro same
        rw [same, known] at found
        cases found
      rw [names, lookup_cons_of_ne distinct]
      exact found

-----------------------------------------------------------------------------------------
-- What moves preserve
-----------------------------------------------------------------------------------------

/-- Every move keeps the state well formed and keeps what there was, by cases on the move. -/
theorem Move.wellFormed_extends {s s' : State} (move : Move s s') (wf : s.WellFormed)
    : s'.WellFormed ∧ s.Extends s' := by
  cases move with
  | typing shape => exact ⟨⟨wf.table, wf.named⟩, ⟨.refl _, id⟩⟩
  | fresh => exact ⟨wf.fresh, extends_fresh s⟩
  | named name => exact ⟨wf.afterNamed name, extends_named s name⟩
  | transaction onlyBinds context => exact transaction_extends onlyBinds context wf

/-- A run of moves keeps the state well formed and everything in it, by induction on the moves. -/
theorem Moves.wellFormed_extends {s s' : State} (moves : s.Moves s') (wf : s.WellFormed)
    : s'.WellFormed ∧ s.Extends s' := by
  induction moves with
  | refl => exact ⟨wf, .refl s⟩
  | tail _ move ih =>
      obtain ⟨wf', later⟩ := ih
      obtain ⟨wf'', latest⟩ := move.wellFormed_extends wf'
      exact ⟨wf'', later.trans latest⟩

/-- What every move keeps in a well-formed state, a run of moves keeps. -/
theorem Moves.preserves {P : State → Prop} {s s' : State} (moves : s.Moves s')
    (step : ∀ {s s'}, Move s s' → s.WellFormed → P s → P s') (wf : s.WellFormed) (holds : P s)
    : P s' := by
  induction moves with
  | refl => exact holds
  | tail before move ih => exact step move (Moves.wellFormed_extends before wf).1 ih

end State

-----------------------------------------------------------------------------------------
-- Computations that only move
-----------------------------------------------------------------------------------------

namespace Infer

/-- The computation does nothing to its state but moves, whether it fails or not. -/
def OnlyMoves {α : Type} (x : Infer α) : Prop := ∀ s : State, s.Moves (finalState (x s))

variable {α β : Type}

/-- A value moves nothing. -/
theorem onlyMoves_pure (a : α) : OnlyMoves (pure a) := fun _ => .refl

/-- Nor does an error. -/
theorem onlyMoves_throw (e : TypeError) : OnlyMoves (throw e : Infer α) := fun _ => .refl

/-- A sequence only moves if both of its parts do. -/
theorem OnlyMoves.bind {x : Infer α} {f : α → Infer β} (first : OnlyMoves x)
    (next : ∀ a, OnlyMoves (f a))
    : OnlyMoves (x >>= f) := by
  intro s
  have moves := first s
  cases run : x s with
  | error e s' =>
      rw [run] at moves
      rw [run_bind_error run]
      exact moves
  | ok a s' =>
      rw [run] at moves
      rw [run_bind_ok run]
      exact moves.trans (next a s')

/-- An attempt only moves if the computation does. -/
theorem OnlyMoves.attempt {x : Infer α} (moving : OnlyMoves x) : OnlyMoves x.attempt := by
  intro s
  have moves := moving s
  cases run : x s with
  | ok a s' =>
      rw [run] at moves
      simp only [Infer.attempt, run]
      exact moves
  | error e s' =>
      rw [run] at moves
      simp only [Infer.attempt, run]
      split
      · exact moves
      · exact moves

/-- A note is a move. -/
theorem onlyMoves_note (shape : String) : OnlyMoves (note (.typing shape)) :=
  fun _ => .single (.typing shape)

/-- A fresh variable is a move. -/
theorem onlyMoves_fresh : OnlyMoves fresh := fun _ => .single .fresh

/-- A unification is a move, whether it succeeds or fails. -/
theorem onlyMoves_unify (a b : OpenTy) (context : Expr) : OnlyMoves (unify a b context) :=
  fun _ => .single (.transaction (Unify.types_onlyBinds a b) context)

/-- Passing on a result moves nothing. -/
theorem onlyMoves_ofExcept (r : Except TypeError α) : OnlyMoves (ofExcept r : Infer α) := by
  cases r with
  | ok a => exact onlyMoves_pure a
  | error e => exact onlyMoves_throw e

/-- A comparison of results only moves. -/
theorem onlyMoves_checkEqual (a b : Except TypeError OpenTy) (context : Expr)
    : OnlyMoves (checkEqual a b context) :=
  (onlyMoves_ofExcept a).bind fun a =>
    (onlyMoves_ofExcept b).bind fun b => onlyMoves_unify a b context

/-- Collecting results moves nothing. -/
theorem onlyMoves_collect (results : List (Except TypeError α)) (context : Expr)
    : OnlyMoves (collect results context) := by
  rw [collect]
  split
  · exact onlyMoves_pure _
  · exact onlyMoves_throw _
  · exact onlyMoves_throw _

/-- Types are converted from left to right. -/
theorem convertAll_cons (ty : Ty) (tys : List Ty)
    : convertAll (ty :: tys)
      = (do
          let first ← convert ty
          let others ← convertAll tys
          pure (first :: others)) :=
  rfl

/-- A procedure type is converted from its parameters to its result. -/
theorem convert_procedure (params : List Ty) (result : Ty)
    : convert (.procedure params result)
      = (do
          let params ← convertAll params
          let result ← convert result
          pure (.procedure params result)) :=
  rfl

/-- Conversions only move if each of them does, by induction on the types. -/
theorem onlyMoves_convertAll_of {tys : List Ty} (each : ∀ ty ∈ tys, OnlyMoves (convert ty))
    : OnlyMoves (convertAll tys) := by
  induction tys with
  | nil => exact onlyMoves_pure []
  | cons ty tys ih =>
      rw [convertAll_cons]
      exact (each ty (by simp)).bind fun _ =>
        (ih fun ty member => each ty (List.mem_cons_of_mem _ member)).bind fun _ =>
          onlyMoves_pure _

/-- A conversion only moves, by induction on the parts of the type. -/
theorem onlyMoves_convert (ty : Ty) : OnlyMoves (convert ty) := by
  induction ty using Ty.partsInduction with
  | atomic a => exact onlyMoves_pure _
  | named name => exact fun _ => .single (.named name)
  | wildcard => exact onlyMoves_fresh
  | procedure params result ihParams ihResult =>
      rw [convert_procedure]
      exact (onlyMoves_convertAll_of ihParams).bind fun _ => ihResult.bind fun _ => onlyMoves_pure _

/-- Conversions only move. -/
theorem onlyMoves_convertAll (tys : List Ty) : OnlyMoves (convertAll tys) :=
  onlyMoves_convertAll_of fun ty _ => onlyMoves_convert ty

/-- Several fresh variables are as many moves, by induction on their number. -/
theorem freshMany_moves (n : Nat) (s : State) : s.Moves (s.freshMany n) := by
  induction n generalizing s with
  | zero => exact .refl
  | succ n ih => exact .head .fresh (ih _)

/-- The type of a primitive is over its own variables. -/
theorem scheme_below (op : Primitive) : op.scheme.Below op.quantified := by
  cases op <;> decide

/-- The type of a primitive has no names and no wildcards. -/
theorem scheme_isPlain (op : Primitive) : op.scheme.isPlain = true := by
  cases op <;> rfl

/-- Taking a primitive with fresh variables only moves. -/
theorem onlyMoves_instantiate (op : Primitive) : OnlyMoves (ofState (·.instantiate op)) :=
  fun s => freshMany_moves op.quantified s

/-- The signature of a procedure only moves. -/
theorem onlyMoves_signature (params : List Declaration) (result : TypeExpr)
    : OnlyMoves (signature params result) :=
  (onlyMoves_convertAll _).bind fun _ => (onlyMoves_convert _).bind fun _ => onlyMoves_pure _

/-- The signatures of bound procedures only move, by induction on the bindings. -/
theorem onlyMoves_signatures (bindings : List (Declaration × Expr))
    : OnlyMoves (signatures bindings) := by
  fun_induction signatures bindings with
  | case1 => exact onlyMoves_pure _
  | case2 _ _ params result _ _ ih =>
      exact (onlyMoves_signature params result).bind fun _ => ih.bind fun _ => onlyMoves_pure _
  | case3 _ _ _ ih => exact ih

end Infer

-----------------------------------------------------------------------------------------
-- The typing rules
-----------------------------------------------------------------------------------------

namespace Expr

open Infer

/-- Inferring the type of the expression only moves, in every environment. -/
def TypingMoves (e : Expr) : Prop := ∀ env, OnlyMoves (e.typeOf env)

/-- A body only moves if its expressions do, by induction on the expressions. -/
theorem typeOfBody_onlyMoves {es : List Expr} (each : ∀ e ∈ es, e.TypingMoves) (env : TypeEnv)
    (context : Expr)
    : OnlyMoves (typeOfBody env context es) := by
  induction es with
  | nil => exact onlyMoves_throw _
  | cons e es ih =>
      have head := each e (by simp) env
      cases es with
      | nil => exact head
      | cons next rest =>
          exact head.bind fun _ => ih fun e member => each e (List.mem_cons_of_mem _ member)

/-- Expressions one after the other only move if each of them does, by induction on the expressions.
-/
theorem typeOfEach_onlyMoves {es : List Expr} (each : ∀ e ∈ es, e.TypingMoves) (env : TypeEnv)
    : OnlyMoves (typeOfEach env es) := by
  induction es with
  | nil => exact onlyMoves_pure _
  | cons e es ih =>
      have tail := ih fun e member => each e (List.mem_cons_of_mem _ member)
      exact (each e (by simp) env).attempt.bind fun _ => tail.bind fun _ => onlyMoves_pure _

/-- Bindings only move if their values do, by induction on the bindings. -/
theorem checkBindings_onlyMoves {bindings : List (Declaration × Expr)}
    (each : ∀ binding ∈ bindings, binding.2.TypingMoves) (env : TypeEnv)
    : OnlyMoves (checkBindings env bindings) := by
  induction bindings with
  | nil => exact onlyMoves_pure _
  | cons binding rest ih =>
      have tail := ih fun binding member => each binding (List.mem_cons_of_mem _ member)
      exact (onlyMoves_convert _).bind fun _ =>
        (each binding (by simp) env).attempt.bind fun _ =>
          (onlyMoves_checkEqual _ _ _).attempt.bind fun _ =>
            tail.bind fun _ => onlyMoves_pure _

/-- The check stops at the first value that is no lambda expression, by induction on the bindings.
-/
theorem checkProcedures_onlyMoves {bindings : List (Declaration × Expr)}
    (each : ∀ binding ∈ bindings, ∀ e ∈ binding.2.procedureBody, e.TypingMoves)
    (recEnv : TypeEnv) (sigs : List (List OpenTy × OpenTy))
    : OnlyMoves (checkProcedures recEnv bindings sigs) := by
  induction bindings generalizing sigs with
  | nil => exact onlyMoves_pure _
  | cons binding rest ih =>
      obtain ⟨declaration, value⟩ := binding
      have here := each (declaration, value) (by simp)
      have tail := ih fun binding member => each binding (List.mem_cons_of_mem _ member)
      cases value with
      | lambda pos params result body =>
          cases sigs with
          | nil => exact onlyMoves_pure _
          | cons sig sigs =>
              exact (typeOfBody_onlyMoves here _ _).attempt.bind fun _ =>
                (onlyMoves_checkEqual _ _ _).attempt.bind fun _ =>
                  (tail sigs).bind fun _ => onlyMoves_pure _
      | number | boolean | string | primitive | var | conditional | application | letIn | letrec
      | define | program | quote | assign => exact onlyMoves_pure _

/-- Inference only moves, by induction over the expression. -/
theorem typeOf_onlyMoves (e : Expr) : e.TypingMoves := by
  induction e using partsInduction with
  | number | boolean | string | define =>
      intro env
      exact (onlyMoves_note _).bind fun _ => onlyMoves_pure _
  | program | quote | assign =>
      intro env
      exact (onlyMoves_note _).bind fun _ => onlyMoves_throw _
  | primitive pos op =>
      intro env
      exact (onlyMoves_note _).bind fun _ => onlyMoves_instantiate op
  | var pos id =>
      intro env
      refine (onlyMoves_note _).bind fun _ => ?_
      cases found : env.get? id.name with
      | some ty => simpa only [found] using onlyMoves_pure ty
      | none => simpa only [found] using onlyMoves_throw _
  | conditional pos test yes no ihTest ihYes ihNo =>
      intro env
      exact (onlyMoves_note _).bind fun _ =>
        (ihTest env).attempt.bind fun _ =>
          (ihYes env).attempt.bind fun _ =>
            (ihNo env).attempt.bind fun _ =>
              (onlyMoves_checkEqual _ _ _).bind fun _ =>
                (onlyMoves_ofExcept _).bind fun _ =>
                  (onlyMoves_checkEqual _ _ _).bind fun _ => onlyMoves_pure _
  | lambda pos params result body ihBody =>
      intro env
      exact (onlyMoves_note _).bind fun _ =>
        (onlyMoves_signature params result).bind fun _ =>
          (typeOfBody_onlyMoves ihBody _ _).attempt.bind fun _ =>
            (onlyMoves_checkEqual _ _ _).bind fun _ => onlyMoves_pure _
  | application pos operator operands ihOperator ihOperands =>
      intro env
      exact (onlyMoves_note _).bind fun _ =>
        (ihOperator env).bind fun _ =>
          (typeOfEach_onlyMoves ihOperands env).bind fun _ =>
            (onlyMoves_collect _ _).bind fun _ =>
              onlyMoves_fresh.bind fun _ =>
                (onlyMoves_unify _ _ _).bind fun _ => onlyMoves_pure _
  | letIn pos bindings body ihBindings ihBody =>
      intro env
      exact (onlyMoves_note _).bind fun _ =>
        (checkBindings_onlyMoves ihBindings env).bind fun _ =>
          (onlyMoves_collect _ _).bind fun _ => typeOfBody_onlyMoves ihBody _ _
  | letrec pos bindings body ihProcedures ihBody =>
      intro env
      refine (onlyMoves_note _).bind fun _ => ?_
      dsimp only
      split
      · exact (onlyMoves_signatures bindings).bind fun _ =>
          (checkProcedures_onlyMoves ihProcedures _ _).bind fun _ =>
            (onlyMoves_collect _ _).bind fun _ => typeOfBody_onlyMoves ihBody _ _
      · exact onlyMoves_throw _

/-- Every inference only moves: to resolve its type changes nothing. -/
theorem inferIn_onlyMoves (e : Expr) (env : TypeEnv) : OnlyMoves (e.inferIn env) := by
  refine (typeOf_onlyMoves e env).bind fun u s => ?_
  split
  · exact .refl
  · exact .refl

end Expr

end TypedScheme
