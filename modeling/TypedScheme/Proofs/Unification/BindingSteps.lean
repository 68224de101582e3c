import TypedScheme.Proofs.Unification.OccursCheck
import TypedScheme.Proofs.Unification.Resolution

/-! What the unifier can do to a table: it binds unbound variables, one after the other, to types
that passed the occurs check. Every invariant of unification is derived from this.
-/

namespace TypedScheme

namespace Table

/-- An unbound variable of the table is bound to a type that passed the occurs check. -/
inductive BindStep : Table → Table → Prop
  | bind {t : Table} {v : Nat} {ty : OpenTy} (inside : v < t.size)
    (unbound : t.binding? v = none) (passed : t.occursCheck v ty = .ok ())
    : BindStep t (t.bind v ty)

/-- Any number of such steps. -/
abbrev Binds : Table → Table → Prop := Relation.ReflTransGen BindStep

/-- A binding step closes no cycle, since its type passed the occurs check. -/
theorem BindStep.grounded {t t' : Table} (step : BindStep t t') (grounded : t.Grounded)
    : t'.Grounded := by
  cases step with
  | bind inside _ passed =>
      obtain ⟨_, below, apart⟩ := apart_of_occursCheck_ok passed
      exact grounded.bind inside below apart

/-- A binding step keeps the table well formed. -/
theorem BindStep.wellFormed {t t' : Table} (step : BindStep t t') (wf : t.WellFormed)
    : t'.WellFormed := by
  cases step with
  | bind inside _ passed =>
      obtain ⟨plain, below, apart⟩ := apart_of_occursCheck_ok passed
      exact wf.bind inside below plain apart

/-- A binding step adds no variable. -/
theorem BindStep.size {t t' : Table} (step : BindStep t t') : t'.size = t.size := by
  cases step with
  | bind => exact size_bind _ _ _

/-- A binding step keeps all bindings: its variable was unbound. -/
theorem BindStep.kept {t t' : Table} (step : BindStep t t') {w : Nat} {ty : OpenTy}
    (bound : t.binding? w = some ty)
    : t'.binding? w = some ty := by
  cases step with
  | @bind v _ inside unbound _ =>
      rw [binding?_bind inside]
      by_cases same : v = w
      · rw [same, bound] at unbound
        cases unbound
      · rw [if_neg same, bound]

/-- Binding steps close no cycle, by induction on the steps. -/
theorem Binds.grounded {t t' : Table} (binds : t.Binds t') (grounded : t.Grounded)
    : t'.Grounded := by
  induction binds with
  | refl => exact grounded
  | tail _ step ih => exact step.grounded ih

/-- Binding steps keep the table well formed, by induction on the steps. -/
theorem Binds.wellFormed {t t' : Table} (binds : t.Binds t') (wf : t.WellFormed)
    : t'.WellFormed := by
  induction binds with
  | refl => exact wf
  | tail _ step ih => exact step.wellFormed ih

/-- Binding steps add no variable, by induction on the steps. -/
theorem Binds.size {t t' : Table} (binds : t.Binds t') : t'.size = t.size := by
  induction binds with
  | refl => rfl
  | tail _ step ih => rw [step.size, ih]

/-- A binding step keeps variables, bindings and names. -/
theorem BindStep.extends {t t' : Table} (step : BindStep t t') : t.Extends t' := by
  refine ⟨Nat.le_of_eq step.size.symm, step.kept, ?_⟩
  cases step with
  | bind => exact fun _ => name?_bind _ _ _ _

/-- Binding a variable leaves the names of all variables as they are. -/
theorem Binds.name?_eq {t t' : Table} (binds : t.Binds t') (v : Nat) : t'.name? v = t.name? v := by
  induction binds with
  | refl => rfl
  | tail _ step ih =>
      cases step with
      | bind => rw [name?_bind, ih]

/-- Binding steps keep variables, bindings and names, by induction on the steps. -/
theorem Binds.extends {t t' : Table} (binds : t.Binds t') : t.Extends t' := by
  induction binds with
  | refl => exact .refl t
  | tail _ step ih => exact ih.trans step.extends

end Table

end TypedScheme
