import TypedScheme.Proofs.Inference.Session

/-! Variables last and are bound at most once.
Only the rollback of a snapshot takes a binding away. Main statement: every other operation, and so
every run of other operations, keeps all variables with their names, all bindings and the variables
of all names, although an inference may bind and roll back in between and may fail.
-/

namespace TypedScheme

namespace Session

variable {session session' : Session} {op : Operation}

/-- A change that neither opens nor closes a snapshot only adds to the state. -/
theorem Change.extends_of_marks (change : Change session session')
    (wf : session.state.WellFormed) (same : session'.marks = session.marks)
    : session.state.Extends session'.state := by
  cases change with
  | moves moves => exact (moves.wellFormed_extends wf).2
  | binds binds => exact ⟨binds.extends, id⟩
  | snapshot => exact absurd same (List.cons_ne_self _ _)
  | commit => exact absurd same.symm (List.cons_ne_self _ _)
  | rollback => exact absurd same.symm (List.cons_ne_self _ _)

/-- A snapshot leaves all slots as they are, and so does its commit. -/
theorem perform_extends (wf : session.state.WellFormed) (keeping : op ≠ .rollback)
    (performed : session.perform op = some session')
    : session.state.Extends session'.state := by
  have change := perform_change wf performed
  cases op with
  | fresh | named | convert | instantiate | unify | unifyAll | checkEqual | bareTypes
  | bareAllTypes | bareAssign | typeOf =>
      apply change.extends_of_marks wf
      cases performed
      rfl
  | snapshot =>
      cases performed
      exact ⟨⟨Nat.le_refl _, id, fun _ => rfl⟩, id⟩
  | commit =>
      obtain ⟨s, marks⟩ := session
      cases marks with
      | nil => cases performed
      | cons mark marks =>
          cases performed
          exact ⟨⟨Nat.le_refl _, id, fun _ => rfl⟩, id⟩
  | rollback => exact absurd rfl keeping

/-- A run without rollbacks only adds to the state, by induction on the operations. -/
theorem run_extends {ops : List Operation} (wf : session.state.WellFormed)
    (keeping : ∀ op ∈ ops, op ≠ .rollback) (ran : session.run ops = some session')
    : session.state.Extends session'.state := by
  induction ops generalizing session with
  | nil =>
      cases ran
      exact .refl _
  | cons op ops ih =>
      obtain ⟨next, stepped, rest⟩ := Option.bind_eq_some_iff.mp ran
      obtain ⟨first, others⟩ := List.forall_mem_cons.mp keeping
      have wfNext := (step_change wf stepped).wellFormed wf
      rw [step] at stepped
      split at stepped
      · exact (perform_extends wf first stepped).trans (ih wfNext others rest)
      · cases stepped

/-- In every session that a run leads to, an operation other than a rollback keeps every variable with
its name, every binding, and the variable of every name, whatever types and environment it is given
and whether it succeeds or fails. So does every run of such operations.
-/
theorem variables_kept {ops : List Operation} (ran : start.run ops = some session)
    : (∀ op session',
        op ≠ .rollback
        → session.perform op = some session'
        → session.state.Extends session'.state)
      ∧ ∀ more session',
          (∀ op ∈ more, op ≠ .rollback)
          → session.run more = some session'
          → session.state.Extends session'.state := by
  have wf := run_wellFormed State.empty_wellFormed ran
  constructor
  · intro op session' keeping performed
    exact perform_extends wf keeping performed
  · intro more session' keeping ranMore
    exact run_extends wf keeping ranMore

/-- One variable of two stands for numbers, with a snapshot open. -/
def openRun : List Operation :=
  [.fresh, .named "T", .snapshot, .bareTypes (.var 0) (.atomic .number)]

/-- A call that gives `T` a number and then a boolean: the number is rolled back. -/
def clashingCall : Operation :=
  .typeOf (.ofList [("f", .procedure [.var 1, .var 1] (.var 0))])
    (.application none (.var none ⟨"f", none⟩)
      [.number none (.zero false), .boolean none true])

/-- A failing call while a snapshot is open, and a binding after its commit. -/
theorem variables_kept_openRun
    : ∃ session session' session'',
        start.run openRun = some session
        ∧ session.perform clashingCall = some session'
        ∧ session.run [clashingCall, .commit, .bareAssign 1 (.var 0)] = some session''
        ∧ session'.state.table.size = 3
        ∧ session'.state.table.binding? 1 = none
        ∧ session''.state.table.binding? 1 = some (.atomic .number)
        ∧ session.state.Extends session'.state
        ∧ session.state.Extends session''.state := by
  have runs
      : (start.run openRun).any (fun session =>
          (session.perform clashingCall).any (fun session' =>
            decide (session'.state.table.size = 3 ∧ session'.state.table.binding? 1 = none))
          && (session.run [clashingCall, .commit, .bareAssign 1 (.var 0)]).any fun session'' =>
            decide (session''.state.table.binding? 1 = some (.atomic .number))) = true := by
    decide +kernel
  obtain ⟨session, ran, both⟩ := (Option.any_eq_true _ _).mp runs
  obtain ⟨called, ranOn⟩ := Bool.and_eq_true_iff.mp both
  obtain ⟨session', performed, ends⟩ := (Option.any_eq_true _ _).mp called
  obtain ⟨session'', ranMore, bound⟩ := (Option.any_eq_true _ _).mp ranOn
  obtain ⟨size, unbound⟩ := of_decide_eq_true ends
  obtain ⟨alone, inRuns⟩ := variables_kept ran
  exact ⟨session, session', session'', ran, performed, ranMore, size, unbound,
    of_decide_eq_true bound, alone clashingCall session' nofun performed,
    inRuns _ session'' (by simp [clashingCall]) ranMore⟩

end Session

end TypedScheme
