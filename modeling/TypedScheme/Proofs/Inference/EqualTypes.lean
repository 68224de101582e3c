import TypedScheme.Proofs.Inference.MostGeneral
import TypedScheme.Proofs.Inference.Rollback

/-! Unification of types that are equal already.
Resolution is a solution of the table, and a unification of equal types keeps it. But no variable
can be bound so that it is kept: an unbound variable resolves to itself, and so would the type that
it is bound to, from which the occurs check then finds the variable. Main statement: types resolve
alike exactly if their unification changes nothing.
-/

namespace TypedScheme

namespace Table

variable {t t' : Table}

/-- Resolution depends on the bindings only. -/
theorem resolve_congr (size : t'.size = t.size) (same : ∀ v, t'.binding? v = t.binding? v)
    (ty : OpenTy)
    : t'.resolve ty = t.resolve ty := by
  have each depth v : t'.resolveVar depth v = t.resolveVar depth v := by
    induction depth generalizing v with
    | zero => rfl
    | succ depth ih => rw [resolveVar, resolveVar, same v, funext ih]
  rw [resolve, resolve, size, funext (each t.size)]

/-- A variable of a resolved variable is reached from it, by induction on the height. -/
theorem Grounded.reaches_of_mem_resolve (grounded : t.Grounded) {v w : Nat}
    (occurs : v ∈ (t.resolve (.var w)).vars)
    : t.Reaches w v := by
  induction height : t.height w using Nat.strongRecOn generalizing w with
  | ind n ih =>
      cases bound : t.binding? w with
      | none =>
          rw [resolve_unbound bound, OpenTy.vars_var, List.mem_singleton] at occurs
          exact occurs ▸ .refl
      | some ty =>
          rw [grounded.resolve_bound bound, resolve_eq_subst] at occurs
          obtain ⟨x, inType, inImage⟩ := OpenTy.mem_vars_subst occurs
          have edge : t.Edge w x := ⟨ty, bound, inType⟩
          exact .head edge (ih _ (height ▸ grounded.height_lt edge) inImage rfl)

/-- Bindings that resolution solves already are no bindings at all. -/
theorem Grounded.eq_of_binds (grounded : t.Grounded) (binds : t.Binds t')
    (solved : t'.SolvedBy fun v => t.resolve (.var v))
    : t' = t := by
  rcases binds.cases_head with rfl | ⟨middle, step, rest⟩
  · rfl
  · cases step with
    | @bind v ty inside unbound passed =>
        have bound : t'.binding? v = some ty := by
          apply (Binds.extends rest).kept
          rw [binding?_bind inside, if_pos rfl]
        have image : t.resolve ty = .var v :=
          calc t.resolve ty
              = ty.subst fun w => t.resolve (.var w) := resolve_eq_subst t ty
            _ = t.resolve (.var v) := (solved v ty bound).symm
            _ = .var v := resolve_unbound unbound
        have occurs : v ∈ (t.resolve ty).vars := by simp [image]
        rw [resolve_eq_subst] at occurs
        obtain ⟨w, inType, inImage⟩ := OpenTy.mem_vars_subst occurs
        obtain ⟨_, _, apart⟩ := apart_of_occursCheck_ok passed
        exact absurd (grounded.reaches_of_mem_resolve inImage) (apart w inType)

end Table

/-- In every state that can be reached nothing is on the trail while no snapshot is open. -/
theorem State.Reachable.settled {s : State} (reachable : s.Reachable) : s.table.Settled := by
  obtain ⟨ops, marks, ran⟩ := reachable
  exact (Session.start_levels ran).settled Session.empty_settled

namespace Infer

/-- Types that resolve alike are unified, and the state stays as it was. -/
theorem unify_of_resolve_eq {s : State} (wf : s.WellFormed) (settled : s.table.Settled)
    {a b : OpenTy} (proper : ∀ ty ∈ [a, b], ty.Below s.table.size ∧ ty.isPlain = true)
    (same : s.table.resolve a = s.table.resolve b) (context : Expr)
    : unify a b context s = .ok () s := by
  obtain ⟨belowA, plainA⟩ := proper a (by simp)
  obtain ⟨belowB, plainB⟩ := proper b (by simp)
  have grounded := wf.table.snapshot.toGrounded
  have resolve : ∀ ty, s.table.snapshot.2.resolve ty = s.table.resolve ty :=
    Table.resolve_congr rfl fun _ => rfl
  rw [← resolve, ← resolve, Table.resolve_eq_subst _ a, Table.resolve_eq_subst _ b] at same
  have equation : Unify.Equation _ s.table.snapshot.2 a b :=
    ⟨grounded.solvedBy_resolve, same, ⟨belowA, belowB⟩, ⟨plainA, plainB⟩⟩
  obtain ⟨t, run, binds, solved⟩ := Unify.types_succeeds wf.table.snapshot equation
  have unchanged := grounded.eq_of_binds binds solved
  subst unchanged
  have silent : boundEvents s.table.snapshot.2 s.table.snapshot.1 = [] := by
    simp [boundEvents, Table.boundSince, Table.snapshot]
  rw [unify, State.transaction_run_ok run binds context, Table.commit_snapshot settled, silent]
  rfl

/-- In every reachable state and for plain types over its variables: the unification succeeds and
leaves the table as it was exactly if the two types resolve to the same type through the table, and
then all of the state is as it was. So after a success the same unification, and the one with the
types exchanged, succeeds again and changes nothing.
-/
theorem unify_unchanged_iff {s : State} (reachable : s.Reachable) {a b : OpenTy}
    (proper : ∀ ty ∈ [a, b], ty.Below s.table.size ∧ ty.isPlain = true) (context : Expr)
    : s.table.ResolvedBy s.table.resolve
      ∧ ((∃ s', unify a b context s = .ok () s' ∧ s'.table = s.table)
          ↔ s.table.resolve a = s.table.resolve b)
      ∧ (s.table.resolve a = s.table.resolve b → unify a b context s = .ok () s)
      ∧ ∀ s',
          unify a b context s = .ok () s'
          → ∀ again, unify a b again s' = .ok () s' ∧ unify b a again s' = .ok () s' := by
  have wf := reachable.wellFormed
  have settled := reachable.settled
  have equal {s'} (run : unify a b context s = .ok () s')
      : s'.WellFormed ∧ s.Extends s' ∧ s'.table.resolve a = s'.table.resolve b := by
    obtain ⟨_, _, _, wf', later⟩ := transaction_ok (Unify.types_onlyBinds a b) wf run
    exact ⟨wf', later, wf'.table.resolve_eq_of_equal fun _ => equal_of_unify wf run⟩
  refine ⟨wf.table.resolvedBy_resolve, ⟨?_, ?_⟩, ?_, ?_⟩
  · rintro ⟨s', run, unchanged⟩
    rw [← unchanged]
    exact (equal run).2.2
  · intro same
    exact ⟨s, unify_of_resolve_eq wf settled proper same context, rfl⟩
  · intro same
    exact unify_of_resolve_eq wf settled proper same context
  · intro s' run again
    obtain ⟨wf', later, same⟩ := equal run
    have moves := onlyMoves_unify a b context s
    rw [run] at moves
    have settled' := (moves.grows wf settled).settled settled
    have proper' ty (member : ty ∈ [a, b]) : ty.Below s'.table.size ∧ ty.isPlain = true :=
      ⟨(proper ty member).1.mono later.table.size, (proper ty member).2⟩
    have exchanged ty (member : ty ∈ [b, a]) := proper' ty (List.mem_reverse.mp member)
    exact ⟨unify_of_resolve_eq wf' settled' proper' same again,
      unify_of_resolve_eq wf' settled' exchanged same.symm again⟩

/-- Variable 0 stands for variable 1, and while a snapshot is open, variable 2 for a procedure type.
-/
def linkedRun : List Operation :=
  [.fresh, .fresh, .fresh, .fresh, .unify (.var 0) (.var 1) (.boolean none true), .snapshot,
    .unify (.var 2) (.procedure [.var 0] (.var 1)) (.boolean none true)]

/-- Two types that are equal through different chains, and a variable that gets bound once only. -/
theorem unify_unchanged_iff_linked
    : ∃ session s',
        Session.start.run linkedRun = some session
        ∧ session.state.table.resolve (.procedure [.var 2] (.var 0))
          = session.state.table.resolve (.procedure [.procedure [.var 1] (.var 0)] (.var 1))
        ∧ unify (.procedure [.var 2] (.var 0)) (.procedure [.procedure [.var 1] (.var 0)] (.var 1))
            (.boolean none true) session.state
          = .ok () session.state
        ∧ unify (.var 3) (.var 2) (.boolean none true) session.state = .ok () s'
        ∧ session.state.table.resolve (.var 3) ≠ session.state.table.resolve (.var 2)
        ∧ s'.table.binding? 3 = some (.procedure [.var 0] (.var 1))
        ∧ unify (.var 3) (.var 2) (.boolean none true) s' = .ok () s'
        ∧ unify (.var 2) (.var 3) (.boolean none true) s' = .ok () s' := by
  have runs
      : ∃ session s',
          Session.start.run linkedRun = some session
          ∧ session.state.table.size = 4
          ∧ session.state.table.resolve (.procedure [.var 2] (.var 0))
            = session.state.table.resolve (.procedure [.procedure [.var 1] (.var 0)] (.var 1))
          ∧ unify (.var 3) (.var 2) (.boolean none true) session.state = .ok () s'
          ∧ session.state.table.resolve (.var 3) ≠ session.state.table.resolve (.var 2)
          ∧ s'.table.binding? 3 = some (.procedure [.var 0] (.var 1)) :=
    ⟨_, _, rfl, rfl, by rfl, rfl, by decide, rfl⟩
  obtain ⟨session, s', ran, size, same, run, different, bound⟩ := runs
  have reachable : session.state.Reachable := ⟨linkedRun, session.marks, ran⟩
  obtain ⟨_, _, unchanged, _⟩ := unify_unchanged_iff reachable (a := .procedure [.var 2] (.var 0))
    (b := .procedure [.procedure [.var 1] (.var 0)] (.var 1)) (by rw [size]; decide)
    (.boolean none true)
  obtain ⟨_, _, _, repeated⟩ := unify_unchanged_iff reachable (a := .var 3) (b := .var 2)
    (by rw [size]; decide) (.boolean none true)
  obtain ⟨again, exchanged⟩ := repeated s' run (.boolean none true)
  exact ⟨session, s', ran, same, unchanged same, run, different, bound, again, exchanged⟩

end Infer

end TypedScheme
