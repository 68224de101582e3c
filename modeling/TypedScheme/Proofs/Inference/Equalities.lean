import TypedScheme.Proofs.Inference.Session

/-! The equalities that a unification in a state brings about.
Main statement: types that were unified resolve to one type, and types that resolved to one type
before still do.
-/

namespace TypedScheme

/-- Two types that every solution makes equal resolve to one type: resolution is a solution. -/
theorem Table.WellFormed.resolve_eq_of_equal {t : Table} (wf : t.WellFormed) {a b : OpenTy}
    (equal : ∀ σ, t.SolvedBy σ → a.subst σ = b.subst σ)
    : t.resolve a = t.resolve b := by
  rw [resolve_eq_subst t a, resolve_eq_subst t b]
  exact equal _ wf.solvedBy_resolve

namespace Infer

/-- A transaction that succeeds ends with the bindings of its unification. -/
theorem transaction_ok {x : Unify Unit} (onlyBinds : x.OnlyBinds) {context : Expr} {s s' : State}
    (wf : s.WellFormed) (run : transaction x context s = .ok () s')
    : ∃ t,
        x s.table.snapshot.2 = .ok () t
        ∧ s'.table = t.commit s.table.snapshot.1
        ∧ s'.WellFormed
        ∧ s.Extends s' := by
  obtain ⟨wf', later⟩ := State.transaction_extends onlyBinds context wf
  rw [run, finalState_ok] at wf' later
  rcases State.transaction_cases onlyBinds context wf.table with
    ⟨t, unified, _, ends⟩ | ⟨e, t, _, _, ends⟩
  · rw [ends] at run
    cases run
    exact ⟨t, unified, rfl, wf', later⟩
  · rw [ends] at run
    cases run

/-- The solutions of the table after a unification make the two types equal. -/
theorem equal_of_unify {s s' : State} {a b : OpenTy} {context : Expr} (wf : s.WellFormed)
    (run : unify a b context s = .ok () s') {σ : Nat → OpenTy} (solved : s'.table.SolvedBy σ)
    : a.subst σ = b.subst σ := by
  obtain ⟨t, unified, table, _, _⟩ := transaction_ok (Unify.types_onlyBinds a b) wf run
  have unifies := Unify.types_unifies a b s.table.snapshot.2 wf.table.snapshot.toGrounded
  rw [unified] at unifies
  rw [table] at solved
  exact unifies.2 σ solved

/-- Types that were unified pair by pair are equally many, and every solution makes each pair equal.
-/
theorem equal_of_unifyAll {s s' : State} {as bs : List OpenTy} {context : Expr}
    (wf : s.WellFormed) (run : unifyAll as bs context s = .ok () s')
    : as.length = bs.length
      ∧ ∀ σ, s'.table.SolvedBy σ → ∀ pair ∈ as.zip bs, pair.1.subst σ = pair.2.subst σ := by
  obtain ⟨t, unified, table, _, _⟩ := transaction_ok (Unify.allTypes_onlyBinds as bs) wf run
  have unifies := Unify.allTypes_unifiesAll as bs s.table.snapshot.2 wf.table.snapshot.toGrounded
  rw [unified] at unifies
  obtain ⟨_, length, equal⟩ := unifies
  refine ⟨length, ?_⟩
  intro σ solved
  rw [table] at solved
  exact equal σ solved

/-- In every reachable state, types that were unified resolve to one type, alone or in lists of one
length, and what resolved to one type before still does. Resolution here follows all bindings of
the table in which the unification ends.
-/
theorem resolve_eq_of_unify {s : State} (reachable : s.Reachable) (context : Expr)
    : (∀ a b s',
        unify a b context s = .ok () s'
        → s'.table.ResolvedBy s'.table.resolve
          ∧ s'.table.resolve a = s'.table.resolve b
          ∧ ∀ x y, s.table.resolve x = s.table.resolve y → s'.table.resolve x = s'.table.resolve y)
      ∧ ∀ as bs s',
          unifyAll as bs context s = .ok () s'
          → s'.table.ResolvedBy s'.table.resolve
            ∧ as.length = bs.length
            ∧ (∀ pair ∈ as.zip bs, s'.table.resolve pair.1 = s'.table.resolve pair.2)
            ∧ ∀ x y,
                s.table.resolve x = s.table.resolve y
                → s'.table.resolve x = s'.table.resolve y := by
  have wf := reachable.wellFormed
  constructor
  · intro a b s' run
    obtain ⟨_, _, _, wf', later⟩ := transaction_ok (Unify.types_onlyBinds a b) wf run
    refine ⟨wf'.table.resolvedBy_resolve,
      wf'.table.resolve_eq_of_equal fun σ => equal_of_unify wf run, ?_⟩
    intro x y same
    exact wf'.table.resolve_eq_of_extends later.table same
  · intro as bs s' run
    obtain ⟨_, _, _, wf', later⟩ := transaction_ok (Unify.allTypes_onlyBinds as bs) wf run
    obtain ⟨length, equal⟩ := equal_of_unifyAll wf run
    refine ⟨wf'.table.resolvedBy_resolve, length, ?_, ?_⟩
    · intro pair member
      exact wf'.table.resolve_eq_of_equal fun σ solved => equal σ solved pair member
    · intro x y same
      exact wf'.table.resolve_eq_of_extends later.table same

/-- A chain of variables, met from both ends by a unification and by one of lists. -/
theorem resolve_eq_of_unify_chain
    : ∃ s s' s'' : State,
        s.Reachable
        ∧ s.table.resolve (.var 0) = s.table.resolve (.var 1)
        ∧ unify (.procedure [.var 2, .var 0] (.var 2))
            (.procedure [.var 1, .atomic .number] (.var 3)) (.boolean none true) s
          = .ok () s'
        ∧ s'.table.resolve (.var 3) = .atomic .number
        ∧ (s'.table.ResolvedBy s'.table.resolve
          ∧ s'.table.resolve (.procedure [.var 2, .var 0] (.var 2))
            = s'.table.resolve (.procedure [.var 1, .atomic .number] (.var 3))
          ∧ s'.table.resolve (.var 0) = s'.table.resolve (.var 1))
        ∧ unifyAll [.var 2, .var 3] [.procedure [.var 1] (.var 3), .var 0] (.boolean none true) s
          = .ok () s''
        ∧ s''.table.resolve (.var 2) = s''.table.resolve (.procedure [.var 1] (.var 3))
        ∧ s''.table.resolve (.var 3) = s''.table.resolve (.var 0) := by
  have reachable
      : (finalState (unify (.var 0) (.var 1) (.boolean none true)
          (State.empty.freshMany 4))).Reachable :=
    ⟨[.fresh, .fresh, .fresh, .fresh, .unify (.var 0) (.var 1) (.boolean none true)], [], rfl⟩
  obtain ⟨alone, inLists⟩ := resolve_eq_of_unify reachable (.boolean none true)
  obtain ⟨resolved, equal, kept⟩ := alone (.procedure [.var 2, .var 0] (.var 2))
    (.procedure [.var 1, .atomic .number] (.var 3)) _ rfl
  obtain ⟨_, _, paired, _⟩ :=
    inLists [.var 2, .var 3] [.procedure [.var 1] (.var 3), .var 0] _ rfl
  exact ⟨_, _, _, reachable, by rfl, rfl, by rfl, ⟨resolved, equal, kept _ _ (by rfl)⟩, rfl,
    paired (_, _) (by simp), paired (_, _) (by simp)⟩

end Infer

end TypedScheme
