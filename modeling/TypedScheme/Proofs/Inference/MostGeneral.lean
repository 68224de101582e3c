import TypedScheme.Proofs.Inference.Equalities
import TypedScheme.Proofs.Unification.Completeness

/-! Unification in a state tells all solutions.
Main statement: a unification fails only where no solution of the table makes the types equal, and
where it succeeds, the solutions of the new table are those of the old one that do.
-/

namespace TypedScheme

namespace Infer

/-- The result tells which solutions of the table meet a condition: after a success they are the
solutions of the new table, and after a failure there is none.
-/
def TellsSolutions (s : State) (condition : (Nat → OpenTy) → Prop)
    : EStateM.Result TypeError State Unit → Prop
  | .ok _ s' => ∀ σ, s'.table.SolvedBy σ ↔ s.table.SolvedBy σ ∧ condition σ
  | .error _ _ => ∀ σ, s.table.SolvedBy σ → ¬ condition σ

/-- A transaction succeeds with a unification that keeps a solution, and keeps the solution. -/
theorem transaction_of_succeeds {x : Unify Unit} {s : State} {σ : Nat → OpenTy}
    (succeeds : Unify.Succeeds σ s.table.snapshot.2 (x s.table.snapshot.2)) (context : Expr)
    : ∃ s', transaction x context s = .ok () s' ∧ s'.table.SolvedBy σ := by
  obtain ⟨t, unified, binds, solved⟩ := succeeds
  exact ⟨_, State.transaction_run_ok unified binds context, solved⟩

/-- A transaction tells the solutions that meet a condition, if its unification succeeds wherever
there is one and a success makes the condition hold.
-/
theorem transaction_tellsSolutions {x : Unify Unit} {s : State}
    {condition : (Nat → OpenTy) → Prop} {context : Expr}
    (complete
      : ∀ σ,
          s.table.SolvedBy σ
          → condition σ
          → Unify.Succeeds σ s.table.snapshot.2 (x s.table.snapshot.2))
    (sound
      : ∀ s',
          transaction x context s = .ok () s'
          → s.table.Extends s'.table ∧ ∀ σ, s'.table.SolvedBy σ → condition σ)
    : TellsSolutions s condition (transaction x context s) := by
  cases run : transaction x context s with
  | error e s' =>
      intro σ solved holds
      obtain ⟨s'', succeeded, _⟩ := transaction_of_succeeds (complete σ solved holds) context
      rw [run] at succeeded
      cases succeeded
  | ok _ s' =>
      obtain ⟨later, met⟩ := sound s' run
      intro σ
      constructor
      · intro solved
        exact ⟨solved.of_extends later, met σ solved⟩
      · intro both
        obtain ⟨s'', succeeded, solved⟩ :=
          transaction_of_succeeds (complete σ both.1 both.2) context
        rw [run] at succeeded
        cases succeeded
        exact solved

/-- In every reachable state and for plain types over its variables, alone or in lists of one
length: if the unification fails, then no solution of the table makes them equal, and if it succeeds,
then the solutions of the new table are the solutions of the old one that make them equal.
-/
theorem unify_tellsSolutions {s : State} (reachable : s.Reachable) (context : Expr)
    : (∀ a b,
        (∀ ty ∈ [a, b], ty.Below s.table.size ∧ ty.isPlain = true)
        → TellsSolutions s (fun σ => a.subst σ = b.subst σ) (unify a b context s))
      ∧ ∀ as bs,
          as.length = bs.length
          → (∀ ty ∈ as ++ bs, ty.Below s.table.size ∧ ty.isPlain = true)
          → TellsSolutions s (fun σ => ∀ pair ∈ as.zip bs, pair.1.subst σ = pair.2.subst σ)
              (unifyAll as bs context s) := by
  have wf := reachable.wellFormed
  constructor
  · intro a b proper
    obtain ⟨belowA, plainA⟩ := proper a (by simp)
    obtain ⟨belowB, plainB⟩ := proper b (by simp)
    apply transaction_tellsSolutions
    · intro σ solved equal
      exact Unify.types_succeeds wf.table.snapshot
        ⟨solved, equal, ⟨belowA, belowB⟩, ⟨plainA, plainB⟩⟩
    · intro s' run
      obtain ⟨_, _, _, _, later⟩ := transaction_ok (Unify.types_onlyBinds a b) wf run
      exact ⟨later.table, fun σ solved => equal_of_unify wf run solved⟩
  · intro as bs length proper
    apply transaction_tellsSolutions
    · intro σ solved equal
      apply Unify.allTypes_succeeds wf.table.snapshot solved length
      intro pair member
      obtain ⟨left, right⟩ := List.of_mem_zip (a := pair.1) (b := pair.2) member
      obtain ⟨belowA, plainA⟩ := proper pair.1 (List.mem_append_left _ left)
      obtain ⟨belowB, plainB⟩ := proper pair.2 (List.mem_append_right _ right)
      exact ⟨solved, equal pair member, ⟨belowA, belowB⟩, ⟨plainA, plainB⟩⟩
    · intro s' run
      obtain ⟨_, _, _, _, later⟩ := transaction_ok (Unify.allTypes_onlyBinds as bs) wf run
      exact ⟨later.table, (equal_of_unifyAll wf run).2⟩

/-- One variable stands for procedures from a second one to numbers. The second one cannot be equal
to the first, be it alone or beside a pair that can; it can be a third one.
-/
theorem unify_tellsSolutions_chain
    : ∃ s : State,
        s.Reachable
        ∧ s.table.binding? 0 = some (.procedure [.var 1] (.atomic .number))
        ∧ (∃ e s',
            unify (.var 1) (.var 0) (.boolean none true) s = .error e s'
            ∧ ∀ σ, s.table.SolvedBy σ → ¬ (OpenTy.var 1).subst σ = (OpenTy.var 0).subst σ)
        ∧ (∃ e s',
            unifyAll [.var 1, .var 1] [.var 2, .var 0] (.boolean none true) s = .error e s'
            ∧ ∀ σ,
                s.table.SolvedBy σ
                → ¬ ∀ pair ∈ [OpenTy.var 1, .var 1].zip [OpenTy.var 2, .var 0],
                    pair.1.subst σ = pair.2.subst σ)
        ∧ ∃ s',
            unify (.var 1) (.var 2) (.boolean none true) s = .ok () s'
            ∧ ∀ σ,
                s'.table.SolvedBy σ
                ↔ s.table.SolvedBy σ ∧ (OpenTy.var 1).subst σ = (OpenTy.var 2).subst σ := by
  have reachable
      : (finalState (unify (.var 0) (.procedure [.var 1] (.atomic .number)) (.boolean none true)
          (State.empty.freshMany 3))).Reachable :=
    ⟨[.fresh, .fresh, .fresh,
      .unify (.var 0) (.procedure [.var 1] (.atomic .number)) (.boolean none true)], [], rfl⟩
  obtain ⟨alone, inLists⟩ := unify_tellsSolutions reachable (.boolean none true)
  have cyclic := alone (.var 1) (.var 0) (by decide)
  have cyclicInList := inLists [.var 1, .var 1] [.var 2, .var 0] rfl (by decide)
  have possible := alone (.var 1) (.var 2) (by decide)
  exact ⟨_, reachable, rfl, ⟨_, _, rfl, cyclic⟩, ⟨_, _, rfl, cyclicInList⟩, ⟨_, rfl, possible⟩⟩

end Infer

end TypedScheme
