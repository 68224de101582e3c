import TypedScheme.Proofs.Inference.Session

/-! Failed unifications and rolled back snapshots leave no binding behind.
A run that closes the snapshots it opens does no more to the table than let it grow, whatever is
committed or rolled back inside it, so that a rollback of an outer snapshot finds on the trail what
it has to undo.
-/

namespace TypedScheme

-----------------------------------------------------------------------------------------
-- Failed unifications
-----------------------------------------------------------------------------------------

namespace Infer

/-- A transaction that fails leaves the table and the names as they were. -/
theorem transaction_error {x : Unify Unit} (onlyBinds : x.OnlyBinds) {context : Expr}
    {s s' : State} {e : TypeError} (wf : s.WellFormed)
    (run : transaction x context s = .error e s')
    : s'.table = s.table ∧ s'.names = s.names := by
  rcases State.transaction_cases onlyBinds context wf.table with
    ⟨t, _, _, ends⟩ | ⟨e', t, _, _, ends⟩
  · rw [ends] at run
    cases run
  · rw [ends] at run
    cases run
    exact ⟨rfl, rfl⟩

/-- An error among the types that should be compared is passed on before anything is unified. -/
theorem checkEqual_error {a b : Except TypeError OpenTy} {context : Expr} {s s' : State}
    {e : TypeError} (wf : s.WellFormed) (run : checkEqual a b context s = .error e s')
    : s'.table = s.table ∧ s'.names = s.names := by
  cases a with
  | error =>
      cases run
      exact ⟨rfl, rfl⟩
  | ok a =>
      cases b with
      | error =>
          cases run
          exact ⟨rfl, rfl⟩
      | ok b => exact transaction_error (Unify.types_onlyBinds a b) wf run

/-- In every reachable state, whatever snapshots are open in it, a unification that fails leaves the
table with its slots, its trail and its open snapshots as it was, and the names too.
-/
theorem unchanged_of_error {s : State} (reachable : s.Reachable) (context : Expr)
    : (∀ a b e s',
        unify a b context s = .error e s' → s'.table = s.table ∧ s'.names = s.names)
      ∧ (∀ as bs e s',
          unifyAll as bs context s = .error e s' → s'.table = s.table ∧ s'.names = s.names)
      ∧ ∀ a b e s',
          checkEqual a b context s = .error e s' → s'.table = s.table ∧ s'.names = s.names := by
  have wf := reachable.wellFormed
  refine ⟨?_, ?_, ?_⟩
  · intro a b e s' run
    exact transaction_error (Unify.types_onlyBinds a b) wf run
  · intro as bs e s' run
    exact transaction_error (Unify.allTypes_onlyBinds as bs) wf run
  · intro a b e s' run
    exact checkEqual_error wf run

/-- With a snapshot open and one variable bound, the first pair of parameters would bind a second
variable and the result a third, but the pair in between fails.
-/
theorem unchanged_of_error_between
    : ∃ s e s',
        s.Reachable
        ∧ s.table.trail = [0]
        ∧ s.table.openSnapshots = 1
        ∧ (finalState (Unify.types (.procedure [.var 1, .var 0] (.var 2))
              (.procedure [.var 0, .atomic .void] (.atomic .string)) s.table)).trail
          = [2, 1, 0]
        ∧ unify (.procedure [.var 1, .var 0] (.var 2))
            (.procedure [.var 0, .atomic .void] (.atomic .string)) (.boolean none true) s
          = .error e s'
        ∧ (s'.table = s.table ∧ s'.names = s.names) := by
  have reachable
      : (finalState (unify (.var 0) (.atomic .number) (.boolean none true)
          ⟨(State.empty.freshMany 3).table.snapshot.2, [],
            (State.empty.freshMany 3).log⟩)).Reachable :=
    ⟨[.fresh, .fresh, .fresh, .snapshot,
      .unify (.var 0) (.atomic .number) (.boolean none true)], _, rfl⟩
  obtain ⟨alone, _, _⟩ := unchanged_of_error reachable (.boolean none true)
  have unchanged := alone (.procedure [.var 1, .var 0] (.var 2))
    (.procedure [.var 0, .atomic .void] (.atomic .string)) _ _ rfl
  exact ⟨_, _, _, reachable, rfl, rfl, rfl, rfl, unchanged⟩

end Infer

-----------------------------------------------------------------------------------------
-- Growing tables
-----------------------------------------------------------------------------------------

namespace State

/-- A move lets the table grow: a transaction that succeeds leaves its bindings, and one that fails
leaves nothing.
-/
theorem Move.grows {s s' : State} (move : Move s s') (wf : s.WellFormed)
    (settled : s.table.Settled)
    : s.table.Grows s'.table := by
  cases move with
  | typing => exact .refl
  | fresh => exact .single (.allocate none)
  | named name =>
      cases known : s.names.lookup name with
      | some v =>
          rw [named_of_known known]
      | none =>
          rw [(named_of_unknown known).2.1]
          exact .single (.allocate (some name))
  | transaction onlyBinds context =>
      rcases transaction_cases onlyBinds context wf.table with
        ⟨t, _, binds, ends⟩ | ⟨e, t, _, _, ends⟩
      · rw [ends]
        exact binds.grows.commit settled
      · rw [ends]
        exact .refl

/-- The moves of a state make its table grow, by induction on the moves. -/
theorem Moves.grows {s s' : State} (moves : s.Moves s') (wf : s.WellFormed)
    (settled : s.table.Settled)
    : s.table.Grows s'.table := by
  induction moves with
  | refl => exact .refl
  | tail earlier move ih =>
      have wfNow := (Moves.wellFormed_extends earlier wf).1
      exact ih.trans (move.grows wfNow (Table.Grows.settled ih settled))

end State

-----------------------------------------------------------------------------------------
-- Levels of open snapshots
-----------------------------------------------------------------------------------------

/-- The table has grown from `base` through a level for each open snapshot: up to a table in which
the snapshot was taken, and on from there.
-/
inductive Table.Levels (base : Table) : List Snapshot → Table → Prop
  | ground {t : Table} (grows : base.Grows t) : Levels base [] t
  | above {marks : List Snapshot} {t t' : Table} (lower : Levels base marks t)
    (grows : t.snapshot.2.Grows t')
    : Levels base (t.snapshot.1 :: marks) t'

namespace Table

variable {base : Table} {marks : List Snapshot} {t t' : Table}

/-- A table that grows stays above the same open snapshots. -/
theorem Levels.grow (levels : base.Levels marks t) (grows : t.Grows t') : base.Levels marks t' := by
  cases levels with
  | ground earlier => exact .ground (earlier.trans grows)
  | above lower earlier => exact .above lower (earlier.trans grows)

/-- There is one open snapshot for each mark, by induction on the levels. -/
theorem Levels.openSnapshots (levels : base.Levels marks t)
    : t.openSnapshots = base.openSnapshots + marks.length := by
  induction levels with
  | ground grows => exact Grows.openSnapshots grows
  | above _ grows ih =>
      rw [Grows.openSnapshots grows, List.length_cons, ← Nat.add_assoc, ← ih]
      rfl

/-- Nothing is on the trail of a table without an open snapshot, whatever levels it went through. -/
theorem Levels.settled (levels : base.Levels marks t) (settled : base.Settled) : t.Settled := by
  cases levels with
  | ground grows => exact Grows.settled grows settled
  | above _ grows =>
      intro closed
      rw [Grows.openSnapshots grows] at closed
      exact absurd closed (Nat.succ_ne_zero _)

end Table

namespace Session

/-- Each change of a session keeps the levels of its snapshots. Closing the last snapshot, in
either way, leaves a table that has grown at the level below.
-/
theorem Change.levels {base : Table} (settled : base.Settled) {before after : Session}
    (wf : before.state.WellFormed) (levels : base.Levels before.marks before.state.table)
    (change : Change before after)
    : base.Levels after.marks after.state.table := by
  cases change with
  | moves moves => exact levels.grow (moves.grows wf (levels.settled settled))
  | binds binds => exact levels.grow binds.grows
  | snapshot => exact .above levels .refl
  | commit s mark marks =>
      cases levels with
      | above lower grows => exact lower.grow (grows.commit (lower.settled settled))
  | rollback s mark marks =>
      cases levels with
      | above lower grows => exact lower.grow grows.rollback

/-- A run keeps the levels of its session. -/
theorem run_levels {base : Table} (settled : base.Settled) {session session' : Session}
    {ops : List Operation} (wf : session.state.WellFormed)
    (levels : base.Levels session.marks session.state.table)
    (ran : session.run ops = some session')
    : base.Levels session'.marks session'.state.table :=
  (run_preserves (P := fun session => base.Levels session.marks session.state.table)
    (Change.levels settled) wf levels ran).2

/-- Nothing is on the trail of the empty table. -/
theorem empty_settled : Table.empty.Settled := fun _ => rfl

/-- The marks of every session from the start are the levels of its table. -/
theorem start_levels {ops : List Operation} {session : Session}
    (ran : start.run ops = some session)
    : Table.empty.Levels session.marks session.state.table :=
  run_levels empty_settled State.empty_wellFormed (.ground .refl) ran

-----------------------------------------------------------------------------------------
-- Runs above open snapshots
-----------------------------------------------------------------------------------------

/-- An operation does not see the snapshots that were open before those it may close. -/
theorem perform_above {s s' : State} {marks marks' : List Snapshot} {op : Operation}
    (performed : perform ⟨s, marks⟩ op = some ⟨s', marks'⟩) (outer : List Snapshot)
    : perform ⟨s, marks ++ outer⟩ op = some ⟨s', marks' ++ outer⟩ := by
  cases op with
  | fresh | named | convert | instantiate | unify | unifyAll | checkEqual | bareTypes
  | bareAllTypes | bareAssign | typeOf | snapshot =>
      cases performed
      rfl
  | commit | rollback =>
      cases marks with
      | nil => cases performed
      | cons mark marks =>
          cases performed
          rfl

/-- A step does not depend on the marks below its own. -/
theorem step_above {s s' : State} {marks marks' : List Snapshot} {op : Operation}
    (stepped : step ⟨s, marks⟩ op = some ⟨s', marks'⟩) (outer : List Snapshot)
    : step ⟨s, marks ++ outer⟩ op = some ⟨s', marks' ++ outer⟩ := by
  rw [step] at stepped ⊢
  split at stepped
  · next inRange =>
      rw [if_pos inRange]
      exact perform_above stepped outer
  · cases stepped

/-- Nor does a run, by induction on its operations. -/
theorem run_above {s s' : State} {marks marks' : List Snapshot} {ops : List Operation}
    (ran : run ⟨s, marks⟩ ops = some ⟨s', marks'⟩) (outer : List Snapshot)
    : run ⟨s, marks ++ outer⟩ ops = some ⟨s', marks' ++ outer⟩ := by
  induction ops generalizing s marks with
  | nil =>
      cases ran
      rfl
  | cons op ops ih =>
      obtain ⟨next, stepped, rest⟩ := Option.bind_eq_some_iff.mp ran
      rw [run, step_above stepped outer]
      exact ih rest

/-- A run of more operations goes on where the first ones ended, by induction on these. -/
theorem run_append {session middle : Session} {ops : List Operation}
    (ran : session.run ops = some middle) (more : List Operation)
    : session.run (ops ++ more) = middle.run more := by
  induction ops generalizing session with
  | nil =>
      cases ran
      rfl
  | cons op ops ih =>
      obtain ⟨next, stepped, rest⟩ := Option.bind_eq_some_iff.mp ran
      rw [List.cons_append, run, stepped]
      exact ih rest

/-- The session in which a snapshot was taken, without the snapshots that are open in it: a run from
here closes only those that it opens.
-/
def afterSnapshot (session : Session) : Session :=
  ⟨{ session.state with table := session.state.table.snapshot.2 }, []⟩

/-- The run is one that a snapshot and its rollback can enclose. -/
theorem run_enclosed {session : Session} {inner : List Operation} {s' : State}
    (ran : session.afterSnapshot.run inner = some ⟨s', []⟩)
    : session.run (.snapshot :: (inner ++ [.rollback]))
      = some ⟨{ s' with table := s'.table.rollback session.state.table.snapshot.1 },
          session.marks⟩ := by
  have opened : session.step .snapshot
      = some ⟨session.afterSnapshot.state, session.state.table.snapshot.1 :: session.marks⟩ :=
    if_pos nofun
  have enclosed
      : run ⟨session.afterSnapshot.state, session.state.table.snapshot.1 :: session.marks⟩ inner
        = some ⟨s', session.state.table.snapshot.1 :: session.marks⟩ :=
    run_above ran _
  rw [run, opened, Option.bind_some, run_append enclosed, run]
  exact congrArg (Option.bind · _) (if_pos nofun)

/-- In every run the table knows how many snapshots are open, and its trail is empty while there are
none. A snapshot taken then may be followed by any run that closes the snapshots it opens: its
rollback gives back the variables of the snapshot as they were, leaves the newer ones unbound with
their names, and gives back the trail and the open snapshots.
-/
theorem rollback_restores {ops : List Operation} {session : Session}
    (ran : start.run ops = some session)
    : session.state.table.openSnapshots = session.marks.length
      ∧ (session.marks = [] → session.state.table.trail = [])
      ∧ ∀ inner s',
          session.afterSnapshot.run inner = some ⟨s', []⟩
          → ∃ back,
              session.run (.snapshot :: (inner ++ [.rollback]))
                = some ⟨{ s' with table := back }, session.marks⟩
              ∧ session.state.table.Restores s'.table back := by
  have wf := run_wellFormed State.empty_wellFormed ran
  have levels := start_levels ran
  have openSnapshots : session.state.table.openSnapshots = session.marks.length :=
    levels.openSnapshots.trans (Nat.zero_add _)
  refine ⟨openSnapshots, ?_, ?_⟩
  · intro none
    apply levels.settled empty_settled
    rw [openSnapshots, none]
    rfl
  · intro inner s' ranInner
    have wfInner : session.afterSnapshot.state.WellFormed :=
      wf.withTable wf.table.snapshot (Nat.le_refl _)
    have settledInner : session.state.table.snapshot.2.Settled := by
      intro closed
      exact absurd closed (Nat.succ_ne_zero _)
    have innerLevels := run_levels settledInner wfInner (.ground .refl) ranInner
    cases innerLevels with
    | ground grows => exact ⟨_, run_enclosed ranInner, grows.restores⟩

/-- A number for one variable, with a snapshot open. -/
def numberedRun : List Operation :=
  [.fresh, .named "T", .snapshot, .bareTypes (.var 0) (.atomic .number)]

/-- A snapshot that is committed, a bare unification that fails after a binding, a snapshot that is
rolled back, and an inference.
-/
def nestedRun : List Operation :=
  [.snapshot, .fresh, .unify (.var 1) (.var 2) (.boolean none true), .commit,
    .bareTypes (.procedure [.var 2] (.atomic .void))
      (.procedure [.atomic .string] (.atomic .number)),
    .snapshot, .named "S", .bareTypes (.var 3) (.var 0), .rollback,
    .typeOf (.ofList [("x", .var 3)])
      (.application none (.primitive none .add) [.var none ⟨"x", none⟩, .var none ⟨"x", none⟩])]

/-- A run with snapshots of its own and five bindings is rolled back as a whole. -/
theorem rollback_restores_nestedRun
    : ∃ session s' back,
        start.run numberedRun = some session
        ∧ session.afterSnapshot.run nestedRun = some ⟨s', []⟩
        ∧ s'.table.trail = [4, 3, 2, 1, 0]
        ∧ session.run (.snapshot :: (nestedRun ++ [.rollback]))
          = some ⟨{ s' with table := back }, session.marks⟩
        ∧ session.state.table.Restores s'.table back := by
  have runs
      : (start.run numberedRun).any (fun session =>
          (session.afterSnapshot.run nestedRun).any fun final =>
            decide (final.marks = [] ∧ final.state.table.trail = [4, 3, 2, 1, 0])) = true := by
    decide +kernel
  obtain ⟨session, ran, inner⟩ := (Option.any_eq_true _ _).mp runs
  obtain ⟨⟨s', marks⟩, ranInner, ends⟩ := (Option.any_eq_true _ _).mp inner
  obtain ⟨rfl, trail⟩ := of_decide_eq_true ends
  obtain ⟨_, _, encloses⟩ := rollback_restores ran
  obtain ⟨back, enclosed, restores⟩ := encloses nestedRun s' ranInner
  exact ⟨session, s', back, ran, ranInner, trail, enclosed, restores⟩

end Session

end TypedScheme
