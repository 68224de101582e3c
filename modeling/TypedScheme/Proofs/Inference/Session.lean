import TypedScheme.Proofs.Inference.Moves

/-! Sessions: a state, the snapshots open in it, and any sequence of operations on them.
Main statement: in every run the bindings stay acyclic, in range and free of names and wildcards,
whatever types are unified, in or out of a transaction, and whether that succeeds or fails.
-/

namespace TypedScheme

/-- The values of all bindings of an environment, hidden ones too. -/
def Environment.values {α : Type} (env : Environment α) : List α :=
  env.layers.flatten.map Prod.snd

/-- What can be done with a state. Unifications come as transactions and bare; a bare one keeps its
bindings when it fails.
-/
inductive Operation where
  | fresh
  | named (name : String)
  | convert (ty : Ty)
  | instantiate (op : Primitive)
  | unify (a b : OpenTy) (context : Expr)
  | unifyAll (as bs : List OpenTy) (context : Expr)
  | checkEqual (a b : Except TypeError OpenTy) (context : Expr)
  | bareTypes (a b : OpenTy)
  | bareAllTypes (as bs : List OpenTy)
  | bareAssign (v : Nat) (target : OpenTy)
  | typeOf (env : TypeEnv) (e : Expr)
  | snapshot
  | commit
  | rollback

/-- The types that an operation is given. -/
def Operation.types : Operation → List OpenTy
  | .unify a b _ | .bareTypes a b => [a, b]
  | .unifyAll as bs _ | .bareAllTypes as bs => as ++ bs
  | .checkEqual a b _ => a.toOption.toList ++ b.toOption.toList
  | .bareAssign v target => [.var v, target]
  | .typeOf env _ => env.values
  | .fresh | .named _ | .convert _ | .instantiate _ | .snapshot | .commit | .rollback => []

/-- A state and the snapshots open in it, last first. -/
structure Session where
  state : State
  marks : List Snapshot

namespace Session

def start : Session := ⟨.empty, []⟩

def withTable (session : Session) (t : Table) : Session :=
  { session with state := { session.state with table := t } }

/-- The session after an operation. Only the last open snapshot can be closed. -/
def perform (session : Session) : Operation → Option Session
  | .fresh => some { session with state := session.state.fresh.2 }
  | .named name => some { session with state := (session.state.named name).2 }
  | .convert ty => some { session with state := (session.state.convert ty).2 }
  | .instantiate op => some { session with state := (session.state.instantiate op).2 }
  | .unify a b context =>
      some { session with state := finalState (Infer.unify a b context session.state) }
  | .unifyAll as bs context =>
      some { session with state := finalState (Infer.unifyAll as bs context session.state) }
  | .checkEqual a b context =>
      some { session with state := finalState (Infer.checkEqual a b context session.state) }
  | .bareTypes a b =>
      some (session.withTable (finalState (Unify.types a b session.state.table)))
  | .bareAllTypes as bs =>
      some (session.withTable (finalState (Unify.allTypes as bs session.state.table)))
  | .bareAssign v target =>
      some (session.withTable (finalState (Unify.assign v target session.state.table)))
  | .typeOf env e => some { session with state := finalState (e.typeOf env session.state) }
  | .snapshot =>
      let (mark, table) := session.state.table.snapshot
      some { session.withTable table with marks := mark :: session.marks }
  | .commit =>
      match session.marks with
      | [] => none
      | mark :: marks =>
          some { session.withTable (session.state.table.commit mark) with marks := marks }
  | .rollback =>
      match session.marks with
      | [] => none
      | mark :: marks =>
          some { session.withTable (session.state.table.rollback mark) with marks := marks }

/-- An operation may only be given types over the variables of the table. -/
def step (session : Session) (op : Operation) : Option Session :=
  if ∀ ty ∈ op.types, ty.Below session.state.table.size then session.perform op else none

def run (session : Session) : List Operation → Option Session
  | [] => some session
  | op :: ops => (session.step op).bind (·.run ops)

end Session

/-- Some run from the empty state leads to this one, perhaps with snapshots still open. -/
def State.Reachable (s : State) : Prop :=
  ∃ ops marks, Session.start.run ops = some ⟨s, marks⟩

-----------------------------------------------------------------------------------------
-- Each operation, and so each run, keeps states well formed
-----------------------------------------------------------------------------------------

/-- A state stays well formed with another table that is well formed and not smaller. -/
theorem State.WellFormed.withTable {s : State} (wf : s.WellFormed) {t : Table}
    (wfTable : t.WellFormed) (le : s.table.size ≤ t.size)
    : ({ s with table := t } : State).WellFormed :=
  ⟨wfTable, fun found => Nat.lt_of_lt_of_le (wf.named found) le⟩

/-- A state stays well formed if its table only binds. -/
theorem State.WellFormed.withBinds {s : State} (wf : s.WellFormed) {t : Table}
    (binds : s.table.Binds t)
    : ({ s with table := t } : State).WellFormed :=
  wf.withTable (binds.wellFormed wf.table) binds.extends.size

namespace Session

/-- One thing that an operation can do to a session. -/
inductive Change : Session → Session → Prop
  | moves {s s' : State} (moves : s.Moves s') (marks : List Snapshot)
    : Change ⟨s, marks⟩ ⟨s', marks⟩
  | binds {s : State} {t : Table} (binds : s.table.Binds t) (marks : List Snapshot)
    : Change ⟨s, marks⟩ ⟨{ s with table := t }, marks⟩
  | snapshot (s : State) (marks : List Snapshot)
    : Change ⟨s, marks⟩
        ⟨{ s with table := s.table.snapshot.2 }, s.table.snapshot.1 :: marks⟩
  | commit (s : State) (mark : Snapshot) (marks : List Snapshot)
    : Change ⟨s, mark :: marks⟩ ⟨{ s with table := s.table.commit mark }, marks⟩
  | rollback (s : State) (mark : Snapshot) (marks : List Snapshot)
    : Change ⟨s, mark :: marks⟩ ⟨{ s with table := s.table.rollback mark }, marks⟩

/-- Every operation that is performed is a change of the session. -/
theorem perform_change {session session' : Session} {op : Operation}
    (wf : session.state.WellFormed) (performed : session.perform op = some session')
    : Change session session' := by
  obtain ⟨s, marks⟩ := session
  cases op with
  | fresh =>
      cases performed
      exact .moves (.single .fresh) marks
  | named name =>
      cases performed
      exact .moves (.single (.named name)) marks
  | convert ty =>
      cases performed
      exact .moves (Infer.onlyMoves_convert ty s) marks
  | instantiate op =>
      cases performed
      exact .moves (Infer.freshMany_moves op.quantified s) marks
  | unify a b context =>
      cases performed
      exact .moves (Infer.onlyMoves_unify a b context s) marks
  | unifyAll as bs context =>
      cases performed
      exact .moves (.single (.transaction (Unify.allTypes_onlyBinds as bs) context)) marks
  | checkEqual a b context =>
      cases performed
      exact .moves (Infer.onlyMoves_checkEqual a b context s) marks
  | bareTypes a b =>
      cases performed
      exact .binds (Unify.types_onlyBinds a b _ wf.table) marks
  | bareAllTypes as bs =>
      cases performed
      exact .binds (Unify.allTypes_onlyBinds as bs _ wf.table) marks
  | bareAssign v target =>
      cases performed
      exact .binds (Unify.assign_binds v target _ wf.table.toGrounded) marks
  | typeOf env e =>
      cases performed
      exact .moves (e.typeOf_onlyMoves env s) marks
  | snapshot =>
      cases performed
      exact .snapshot s marks
  | commit =>
      cases marks with
      | nil => cases performed
      | cons mark marks =>
          cases performed
          exact .commit s mark marks
  | rollback =>
      cases marks with
      | nil => cases performed
      | cons mark marks =>
          cases performed
          exact .rollback s mark marks

/-- Every change keeps the state well formed, by cases on the change. -/
theorem Change.wellFormed {session session' : Session} (change : Change session session')
    (wf : session.state.WellFormed)
    : session'.state.WellFormed := by
  cases change with
  | moves moves => exact (moves.wellFormed_extends wf).1
  | binds binds => exact wf.withBinds binds
  | snapshot => exact wf.withTable wf.table.snapshot (Nat.le_refl _)
  | commit s mark => exact wf.withTable (wf.table.commit mark) (by simp)
  | rollback s mark => exact wf.withTable (wf.table.rollback mark) (by simp)

/-- Every step is a change of the session, also one that only opens or closes a snapshot. -/
theorem step_change {session session' : Session} {op : Operation}
    (wf : session.state.WellFormed) (stepped : session.step op = some session')
    : Change session session' := by
  rw [step] at stepped
  split at stepped
  · exact perform_change wf stepped
  · cases stepped

/-- A run keeps the state well formed and every property that each change of a well-formed state
keeps, by induction on the operations.
-/
theorem run_preserves {P : Session → Prop}
    (kept
      : ∀ {before after}, before.state.WellFormed → P before → Change before after → P after)
    {session session' : Session} {ops : List Operation} (wf : session.state.WellFormed)
    (holds : P session) (ran : session.run ops = some session')
    : session'.state.WellFormed ∧ P session' := by
  induction ops generalizing session with
  | nil =>
      cases ran
      exact ⟨wf, holds⟩
  | cons op ops ih =>
      obtain ⟨next, stepped, rest⟩ := Option.bind_eq_some_iff.mp ran
      have change := step_change wf stepped
      exact ih (change.wellFormed wf) (kept wf holds change) rest

/-- Every run keeps the state well formed. -/
theorem run_wellFormed {session session' : Session} {ops : List Operation}
    (wf : session.state.WellFormed) (ran : session.run ops = some session')
    : session'.state.WellFormed :=
  (run_preserves (P := fun _ => True) (fun _ _ _ => trivial) wf trivial ran).1

end Session

/-- Every state that can be reached is well formed. -/
theorem State.Reachable.wellFormed {s : State} (reachable : s.Reachable) : s.WellFormed := by
  obtain ⟨ops, marks, ran⟩ := reachable
  exact Session.run_wellFormed State.empty_wellFormed ran

namespace Session

/-- In every run the graph of bindings has no cycle, every variable in a binding is allocated, and
no binding holds a name or a wildcard.
-/
theorem bindings_acyclic_of_run {ops : List Operation} {session : Session}
    (ran : start.run ops = some session)
    : (∀ v, ¬ Relation.TransGen session.state.table.Edge v v)
      ∧ ∀ v ty,
          session.state.table.binding? v = some ty
          → ty.Below session.state.table.size ∧ ty.isPlain = true := by
  have wf := (run_wellFormed State.empty_wellFormed ran).table
  exact ⟨wf.acyclic, fun v ty bound => ⟨wf.allocated bound, wf.plain bound⟩⟩

/-- A bare unification that fails half-way, its rollback, a binding that is refused because its type
holds a name, a binding that is refused because it would close a cycle, and an inference.
-/
def troubledRun : List Operation :=
  [.fresh, .fresh, .snapshot,
    .bareTypes (.procedure [.var 0, .atomic .number] (.var 1))
      (.procedure [.var 1, .atomic .boolean] (.atomic .void)),
    .rollback, .bareAssign 1 (.procedure [.var 0] (.named "T")),
    .bareTypes (.var 0) (.procedure [.var 1] (.atomic .number)), .bareTypes (.var 1) (.var 0),
    .typeOf (.ofList [("x", .var 1)])
      (.application none (.primitive none .add) [.var none ⟨"x", none⟩, .var none ⟨"x", none⟩])]

/-- One binding of the run is kept, and the bindings are acyclic. -/
theorem bindings_acyclic_of_troubledRun
    : ∃ session,
        start.run troubledRun = some session
        ∧ session.state.table.binding? 0 = some (.procedure [.var 1] (.atomic .number))
        ∧ ((∀ v, ¬ Relation.TransGen session.state.table.Edge v v)
          ∧ ∀ v ty,
              session.state.table.binding? v = some ty
              → ty.Below session.state.table.size ∧ ty.isPlain = true) :=
  ⟨_, rfl, rfl, bindings_acyclic_of_run (show start.run troubledRun = some _ from rfl)⟩

end Session

end TypedScheme
