import Mathlib.Logic.Equiv.Basic
import TypedScheme.Proofs.Unification.Substitution

/-! Types that are instances of each other differ by a renaming of variables only.
What turns one into the other and back must send variables to variables, no two of them to the same
one; and such a map of finitely many variables extends to a permutation of all.
-/

namespace TypedScheme

namespace OpenTy

/-- The type with its variables exchanged. -/
def rename (π : Equiv.Perm Nat) (ty : OpenTy) : OpenTy := ty.subst fun v => .var (π v)

/-- A procedure type is renamed part by part. -/
theorem rename_procedure (π : Equiv.Perm Nat) (params : List OpenTy) (result : OpenTy)
    : (OpenTy.procedure params result).rename π
      = .procedure (params.map (rename π)) (result.rename π) :=
  subst_procedure _ _ _

/-- What changes nothing in a type keeps its variables, by induction over the parts. -/
theorem eq_var_of_subst_eq_self {σ : Nat → OpenTy} {ty : OpenTy} (same : ty.subst σ = ty) {v : Nat}
    (occurs : v ∈ ty.vars)
    : σ v = .var v := by
  induction ty using partsInduction with
  | var w =>
      have here : v = w := by simpa using occurs
      rw [here]
      simpa using same
  | atomic a => simp at occurs
  | named name => simp [vars] at occurs
  | wildcard => simp [vars] at occurs
  | procedure params result ihParams ihResult =>
      rw [subst_procedure] at same
      obtain ⟨sameParams, sameResult⟩ := procedure.inj same
      rcases mem_vars_procedure.mp occurs with ⟨param, member, inParam⟩ | inResult
      · have each : ∀ param ∈ params, param.subst σ = id param := by
          apply List.map_inj_left.mp
          rw [sameParams, List.map_id]
        exact ihParams param member (each param member) inParam
      · exact ihResult sameResult inResult

/-- The number of a variable; it means nothing for other types. -/
def varId : OpenTy → Nat
  | .var v => v
  | _ => 0

/-- Only a variable becomes a variable. -/
theorem eq_var_of_subst_eq_var {σ : Nat → OpenTy} {ty : OpenTy} {v : Nat}
    (becomes : ty.subst σ = .var v)
    : ty = .var ty.varId := by
  cases ty with
  | var w => rfl
  | atomic => simp at becomes
  | named | wildcard => simp [subst] at becomes
  | procedure => simp at becomes

/-- A map that keeps the variables of a list apart agrees on them with a permutation. The induction
is on the list: a transposition sends the next variable where it belongs and leaves the others.
-/
theorem exists_perm_of_apart {f : Nat → Nat} {vs : List Nat}
    (apart : ∀ v ∈ vs, ∀ w ∈ vs, f v = f w → v = w)
    : ∃ π : Equiv.Perm Nat, ∀ v ∈ vs, π v = f v := by
  induction vs with
  | nil => exact ⟨.refl _, by simp⟩
  | cons x vs ih =>
      obtain ⟨π, agrees⟩ := ih fun v inV w inW => apart v (.tail _ inV) w (.tail _ inW)
      by_cases known : x ∈ vs
      · refine ⟨π, ?_⟩
        intro v member
        rcases List.mem_cons.mp member with rfl | later
        · exact agrees v known
        · exact agrees v later
      · refine ⟨π.trans (Equiv.swap (π x) (f x)), ?_⟩
        intro v member
        rcases List.mem_cons.mp member with rfl | later
        · simp
        · have other : v ≠ x := fun same => known (same ▸ later)
          have otherImage : f v ≠ f x := fun same => other (apart v member x (.head _) same)
          have moved : π v ≠ π x := fun same => other (π.injective same)
          rw [Equiv.trans_apply, agrees v later]
          exact Equiv.swap_apply_of_ne_of_ne (agrees v later ▸ moved) otherImage

/-- Types that are instances of each other are equal up to a renaming. -/
theorem exists_rename_of_instances {a b : OpenTy} {τ τ' : Nat → OpenTy} (forth : a.subst τ = b)
    (back : b.subst τ' = a)
    : ∃ π : Equiv.Perm Nat, a.rename π = b := by
  have returns v (occurs : v ∈ a.vars) : (τ v).subst τ' = .var v := by
    refine eq_var_of_subst_eq_self (σ := fun v => (τ v).subst τ') ?_ occurs
    rw [← subst_subst, forth, back]
  have sentTo v (occurs : v ∈ a.vars) : τ v = .var (τ v).varId :=
    eq_var_of_subst_eq_var (returns v occurs)
  obtain ⟨π, agrees⟩ : ∃ π : Equiv.Perm Nat, ∀ v ∈ a.vars, π v = (τ v).varId := by
    apply exists_perm_of_apart
    intro v inV w inW same
    have joined : (τ v).subst τ' = (τ w).subst τ' := by
      rw [sentTo v inV, sentTo w inW, same]
    rw [returns v inV, returns w inW] at joined
    exact OpenTy.var.inj joined
  refine ⟨π, ?_⟩
  rw [← forth]
  apply subst_congr
  intro v occurs
  rw [sentTo v occurs, agrees v occurs]

end OpenTy

end TypedScheme
