import TypedScheme.Proofs.Unification.BindingGraph

/-! Solutions of a table, and what roots and resolved types are.
A substitution solves a table if it makes every bound variable equal to its type. Resolution is
itself a solution, and every other solution factors through it.
-/

namespace TypedScheme

namespace Table

/-- The substitution makes every bound variable equal to the type it is bound to. -/
def SolvedBy (t : Table) (σ : Nat → OpenTy) : Prop :=
  ∀ v ty, t.binding? v = some ty → σ v = ty.subst σ

/-- A later table, which keeps all variables, their names and all bindings. -/
structure Extends (t t' : Table) : Prop where
  size : t.size ≤ t'.size
  kept : ∀ {v ty}, t.binding? v = some ty → t'.binding? v = some ty
  named : ∀ {v}, v < t.size → t'.name? v = t.name? v

/-- A table keeps what it has. -/
theorem Extends.refl (t : Table) : t.Extends t := ⟨Nat.le_refl _, id, fun _ => rfl⟩

/-- What is kept in two steps is kept in the whole. -/
theorem Extends.trans {t t' t'' : Table} (first : t.Extends t') (second : t'.Extends t'')
    : t.Extends t'' where
  size := Nat.le_trans first.size second.size
  kept bound := second.kept (first.kept bound)
  named inside := (second.named (Nat.lt_of_lt_of_le inside first.size)).trans (first.named inside)

/-- A solution of a later table is one of the earlier table. -/
theorem SolvedBy.of_extends {t t' : Table} {σ : Nat → OpenTy} (solved : t'.SolvedBy σ)
    (later : t.Extends t')
    : t.SolvedBy σ :=
  fun v ty bound => solved v ty (later.kept bound)

-----------------------------------------------------------------------------------------
-- Solutions do not see whether bindings were followed
-----------------------------------------------------------------------------------------

/-- A solution gives a variable and the end of its chain the same type, by induction on the steps
followed.
-/
theorem SolvedBy.subst_follow {t : Table} {σ : Nat → OpenTy} (solved : t.SolvedBy σ)
    (steps v : Nat)
    : (t.follow steps v).subst σ = σ v := by
  induction steps generalizing v with
  | zero => simp [follow]
  | succ steps ih =>
      rw [follow]
      split
      · simp
      · next w bound =>
          rw [ih w, solved v (.var w) bound]
          simp
      · next ty _ bound => exact (solved v ty bound).symm

/-- A solution makes a type and its root equal. -/
theorem SolvedBy.subst_root {t : Table} {σ : Nat → OpenTy} (solved : t.SolvedBy σ)
    (ty : OpenTy)
    : (t.root ty).subst σ = ty.subst σ := by
  cases ty with
  | var v => simpa [root] using solved.subst_follow t.size v
  | atomic | named | wildcard | procedure => rfl

/-- A solution makes a variable and what it is resolved to equal, by induction on the depth. -/
theorem SolvedBy.subst_resolveVar {t : Table} {σ : Nat → OpenTy} (solved : t.SolvedBy σ)
    (depth v : Nat)
    : (t.resolveVar depth v).subst σ = σ v := by
  induction depth generalizing v with
  | zero => simp [resolveVar]
  | succ depth ih =>
      rw [resolveVar]
      split
      · simp
      · next ty bound => rw [OpenTy.subst_subst, funext ih, solved v ty bound]

/-- Every solution factors through resolution. -/
theorem SolvedBy.subst_resolve {t : Table} {σ : Nat → OpenTy} (solved : t.SolvedBy σ)
    (ty : OpenTy)
    : (t.resolve ty).subst σ = ty.subst σ := by
  rw [resolve, OpenTy.subst_subst, funext (solved.subst_resolveVar t.size)]

-----------------------------------------------------------------------------------------
-- Roots
-----------------------------------------------------------------------------------------

/-- The type is no variable, or an unbound variable of the table. -/
def Rooted (t : Table) (ty : OpenTy) : Prop :=
  ∀ v, ty = .var v → v < t.size ∧ t.binding? v = none

/-- A chain that may take more steps than the height of its start ends at a root, by induction on
the steps.
-/
theorem Grounded.rooted_follow {t : Table} (grounded : t.Grounded) {steps v : Nat}
    (inside : v < t.size) (enough : t.height v < steps)
    : t.Rooted (t.follow steps v) := by
  induction steps generalizing v with
  | zero => omega
  | succ steps ih =>
      rw [follow]
      split
      · next unbound =>
          intro w same
          cases same
          exact ⟨inside, unbound⟩
      · next w bound =>
          have edge : t.Edge v w := ⟨_, bound, by simp⟩
          have lower := grounded.height_lt edge
          exact ih (grounded.allocated bound w (by simp)) (by omega)
      · next ty notVar _ =>
          intro w same
          exact (notVar w same).elim

/-- Following variables of the table leads to types over such variables, by induction on the steps.
-/
theorem Grounded.below_follow {t : Table} (grounded : t.Grounded) (steps : Nat) {v : Nat}
    (inside : v < t.size)
    : (t.follow steps v).Below t.size := by
  induction steps generalizing v with
  | zero => simpa [follow] using inside
  | succ steps ih =>
      rw [follow]
      split
      · simpa using inside
      · next w bound => exact ih (grounded.allocated bound w (by simp))
      · next ty _ bound => exact grounded.allocated bound

/-- Following variables leads to plain types, by induction on the steps. -/
theorem WellFormed.plain_follow {t : Table} (wf : t.WellFormed) (steps v : Nat)
    : (t.follow steps v).isPlain = true := by
  induction steps generalizing v with
  | zero => simp [follow]
  | succ steps ih =>
      rw [follow]
      split
      · simp
      · next w _ => exact ih w
      · next ty _ bound => exact wf.plain bound

/-- The root of a type over the variables of the table is one. -/
theorem Grounded.rooted_root_of_below {t : Table} (grounded : t.Grounded) {ty : OpenTy}
    (below : ty.Below t.size)
    : t.Rooted (t.root ty) := by
  cases ty with
  | var v =>
      have inside : v < t.size := by simpa using below
      exact grounded.rooted_follow inside (grounded.height_lt_size inside)
  | atomic | named | wildcard | procedure => intro w same; cases same

/-- An unbound variable is its own root. -/
theorem root_of_unbound {t : Table} {v : Nat} (unbound : t.binding? v = none)
    : t.root (.var v) = .var v := by
  rw [root]
  cases t.size with
  | zero => rfl
  | succ steps => rw [follow, unbound]

/-- It is enough that the table holds the root: a variable that it does not hold is its own root. -/
theorem Grounded.rooted_root {t : Table} (grounded : t.Grounded) {ty : OpenTy}
    (held : ∀ v, t.root ty = .var v → v < t.size)
    : t.Rooted (t.root ty) := by
  cases ty with
  | var v =>
      refine grounded.rooted_root_of_below (OpenTy.below_var.mpr ?_)
      cases bound : t.binding? v with
      | none => exact held v (root_of_unbound bound)
      | some ty => exact lt_size_of_binding? bound
  | atomic | named | wildcard | procedure => intro w same; cases same

/-- It is a type over such variables, too. -/
theorem Grounded.below_root {t : Table} (grounded : t.Grounded) {ty : OpenTy}
    (below : ty.Below t.size)
    : (t.root ty).Below t.size := by
  cases ty with
  | var v => exact grounded.below_follow t.size (by simpa using below)
  | atomic | named | wildcard | procedure => exact below

/-- The root of a plain type is plain. -/
theorem WellFormed.plain_root {t : Table} (wf : t.WellFormed) {ty : OpenTy}
    (plain : ty.isPlain = true)
    : (t.root ty).isPlain = true := by
  cases ty with
  | var v => exact wf.plain_follow t.size v
  | atomic | named | wildcard | procedure => exact plain

-----------------------------------------------------------------------------------------
-- Resolution follows every binding to its end
-----------------------------------------------------------------------------------------

/-- To resolve a type is to substitute what its variables are resolved to. -/
theorem resolve_eq_subst (t : Table) (ty : OpenTy)
    : t.resolve ty = ty.subst fun v => t.resolve (.var v) := by
  simp only [resolve, OpenTy.subst_var]

/-- All depths above the height of a variable resolve it alike, by induction on the depth. -/
theorem Grounded.resolveVar_stable {t : Table} (grounded : t.Grounded) {depth depth' v : Nat}
    (enough : t.height v < depth) (enough' : t.height v < depth')
    : t.resolveVar depth v = t.resolveVar depth' v := by
  induction depth generalizing depth' v with
  | zero => omega
  | succ depth ih =>
      cases depth' with
      | zero => omega
      | succ depth' =>
          rw [resolveVar, resolveVar]
          cases bound : t.binding? v with
          | none => rfl
          | some ty =>
              apply OpenTy.subst_congr
              intro w occurs
              have lower := grounded.height_lt ⟨ty, bound, occurs⟩
              exact ih (by omega) (by omega)

/-- An unbound variable is resolved to itself. -/
theorem resolve_unbound {t : Table} {v : Nat} (unbound : t.binding? v = none)
    : t.resolve (.var v) = .var v := by
  cases size : t.size with
  | zero => simp [resolve, size, resolveVar]
  | succ depth => simp [resolve, size, resolveVar, unbound]

/-- An unbound variable is shown by its name. -/
theorem toTy_unbound {t : Table} {v : Nat} (unbound : t.binding? v = none)
    : t.toTy (.var v) = .named (t.nameOf v) := by
  rw [toTy, resolve_unbound unbound, OpenTy.toTy]

/-- A bound variable resolves to what its type resolves to: the height of the variables in the
type is below that of the variable, so one level less is enough.
-/
theorem Grounded.resolve_bound {t : Table} (grounded : t.Grounded) {v : Nat} {ty : OpenTy}
    (bound : t.binding? v = some ty)
    : t.resolve (.var v) = t.resolve ty := by
  have inside := lt_size_of_binding? bound
  have low := grounded.height_lt_size inside
  cases size : t.size with
  | zero => omega
  | succ depth =>
      have opened : t.resolveVar (depth + 1) v = ty.subst (t.resolveVar depth) := by
        rw [resolveVar, bound]
      rw [resolve, resolve, size, OpenTy.subst_var, opened]
      apply OpenTy.subst_congr
      intro w occurs
      have lower := grounded.height_lt ⟨ty, bound, occurs⟩
      exact grounded.resolveVar_stable (by omega) (by omega)

/-- A variable stands for a plain type, by induction on the level to which bindings are followed. -/
theorem WellFormed.plain_resolveVar {t : Table} (wf : t.WellFormed) (depth v : Nat)
    : (t.resolveVar depth v).isPlain = true := by
  induction depth generalizing v with
  | zero => exact OpenTy.isPlain_var v
  | succ depth ih =>
      rw [resolveVar]
      cases bound : t.binding? v with
      | none => exact OpenTy.isPlain_var v
      | some ty => exact OpenTy.isPlain_subst ih (wf.plain bound)

/-- Resolving brings in no names, since bindings are plain. -/
theorem WellFormed.mem_names_resolve {t : Table} (wf : t.WellFormed) {ty : OpenTy} {name : String}
    (isName : name ∈ (t.resolve ty).names)
    : name ∈ ty.names :=
  OpenTy.mem_names_subst (wf.plain_resolveVar t.size) isName

/-- A resolved variable is over the variables of the table, by induction on its height. -/
theorem Grounded.below_resolveVar {t : Table} (grounded : t.Grounded) {v : Nat}
    (inside : v < t.size)
    : (t.resolve (.var v)).Below t.size := by
  induction height : t.height v using Nat.strongRecOn generalizing v with
  | ind n ih =>
      cases bound : t.binding? v with
      | none => simpa [resolve_unbound bound] using inside
      | some ty =>
          rw [grounded.resolve_bound bound, resolve_eq_subst]
          intro x occurs
          obtain ⟨w, inType, inImage⟩ := OpenTy.mem_vars_subst occurs
          have lower := grounded.height_lt ⟨ty, bound, inType⟩
          exact ih _ (by omega) (grounded.allocated bound w inType) rfl x inImage

/-- A type over the variables of the table is resolved to one. -/
theorem Grounded.below_resolve {t : Table} (grounded : t.Grounded) {ty : OpenTy}
    (below : ty.Below t.size)
    : (t.resolve ty).Below t.size := by
  rw [resolve_eq_subst]
  intro x occurs
  obtain ⟨w, inType, inImage⟩ := OpenTy.mem_vars_subst occurs
  exact grounded.below_resolveVar (below w inType) x inImage

/-- The function replaces a bound variable by what the type of its binding becomes, keeps an unbound
one, and changes nothing else in a type.
-/
structure ResolvedBy (t : Table) (r : OpenTy → OpenTy) : Prop where
  bound : ∀ v ty, t.binding? v = some ty → r (.var v) = r ty
  unbound : ∀ v, t.binding? v = none → r (.var v) = .var v
  parts : ∀ ty, r ty = ty.subst fun v => r (.var v)

/-- Resolution replaces each bound variable by what its binding is resolved to. -/
theorem Grounded.resolvedBy_resolve {t : Table} (grounded : t.Grounded) : t.ResolvedBy t.resolve where
  bound _ _ bound := grounded.resolve_bound bound
  unbound _ unbound := resolve_unbound unbound
  parts := resolve_eq_subst t

/-- Resolution is a solution. -/
theorem Grounded.solvedBy_resolve {t : Table} (grounded : t.Grounded)
    : t.SolvedBy fun v => t.resolve (.var v) := by
  intro v ty bound
  exact (grounded.resolve_bound bound).trans (resolve_eq_subst t ty)

/-- The resolution of a later table solves the earlier table too, and so factors through the earlier
resolution.
-/
theorem Grounded.resolve_of_extends {t t' : Table} (grounded' : t'.Grounded) (later : t.Extends t')
    (a : OpenTy)
    : t'.resolve a = (t.resolve a).subst fun v => t'.resolve (.var v) := by
  have solved : t.SolvedBy fun v => t'.resolve (.var v) := grounded'.solvedBy_resolve.of_extends later
  rw [solved.subst_resolve, ← resolve_eq_subst]

/-- So types that resolve alike still do in every later table. -/
theorem Grounded.resolve_eq_of_extends {t t' : Table} (grounded' : t'.Grounded)
    (later : t.Extends t') {a b : OpenTy} (same : t.resolve a = t.resolve b)
    : t'.resolve a = t'.resolve b := by
  rw [grounded'.resolve_of_extends later a, grounded'.resolve_of_extends later b, same]

end Table

end TypedScheme
