import TypedScheme.Proofs.Unification.Termination

/-! Unification does not depend on the numbers of its variables.
A table may hold a copy of another one behind its other variables: the same names and the same
bindings, with all numbers moved by the same amount. Main statement: in such a table the moved types
are unified in the same way, with a copy of the other table at the end and the moved error if it
fails.
-/

namespace TypedScheme

-----------------------------------------------------------------------------------------
-- Moved types
-----------------------------------------------------------------------------------------

namespace OpenTy

/-- The type with the numbers of its variables moved by `k`. -/
def shift (k : Nat) (ty : OpenTy) : OpenTy := ty.subst fun v => .var (k + v)

variable {k : Nat} {ty : OpenTy}

/-- A shifted variable is the one so many further. -/
@[simp]
theorem shift_var (k v : Nat) : (OpenTy.var v).shift k = .var (k + v) := subst_var _ _

/-- Atomic types are not changed by a shift. -/
@[simp]
theorem shift_atomic (k : Nat) (a : Atomic) : (OpenTy.atomic a).shift k = .atomic a :=
  subst_atomic _ _

/-- Nor are named types. -/
@[simp]
theorem shift_named (k : Nat) (name : String) : (OpenTy.named name).shift k = .named name := by
  rw [shift, subst]

/-- Nor are wildcards. -/
@[simp]
theorem shift_wildcard (k : Nat) : OpenTy.wildcard.shift k = .wildcard := by rw [shift, subst]

/-- A procedure type is shifted part by part. -/
@[simp]
theorem shift_procedure (k : Nat) (params : List OpenTy) (result : OpenTy)
    : (OpenTy.procedure params result).shift k
      = .procedure (params.map (shift k)) (result.shift k) :=
  subst_procedure _ _ _

/-- A type other than a variable is shifted to one other than the shifted variable. -/
theorem shift_ne_var {v : Nat} (other : ty ≠ .var v) : ty.shift k ≠ .var (k + v) := by
  cases ty with
  | var w => simpa using other
  | atomic | named | wildcard | procedure => simp

/-- A type that is no variable is shifted to none. -/
theorem shift_notVar (notVar : ∀ w, ty ≠ .var w) (w : Nat) : ty.shift k ≠ .var w := by
  cases ty with
  | var v => exact absurd rfl (notVar v)
  | atomic | named | wildcard | procedure => simp

/-- A type over the variables of a table is shifted to one over those of its copy. -/
theorem Below.shift {size : Nat} (below : ty.Below size) : (ty.shift k).Below (k + size) := by
  intro v occurs
  obtain ⟨w, inType, isMoved⟩ := mem_vars_subst occurs
  have inside := below w inType
  have same : v = k + w := by simpa using isMoved
  omega

/-- A type without variables stays as it is. -/
theorem shift_of_closed (closed : ty.vars = []) : ty.shift k = ty := by
  induction ty using partsInduction with
  | var v => simp at closed
  | atomic | named | wildcard => simp
  | procedure params result ihParams ihResult =>
      obtain ⟨inParams, inResult⟩ : varsOfAll params = [] ∧ result.vars = [] := by
        simpa [vars] using closed
      have each param (member : param ∈ params) : param.shift k = id param := by
        refine ihParams param member (List.eq_nil_iff_forall_not_mem.mpr fun v occurs => ?_)
        exact List.eq_nil_iff_forall_not_mem.mp inParams v
          (mem_varsOfAll.mpr ⟨param, member, occurs⟩)
      rw [shift_procedure, List.map_congr_left each, List.map_id, ihResult inResult]

/-- A moved type is shown like the type itself, with the names of the moved variables. -/
theorem toTy_shift (nameOf : Nat → String) (ty : OpenTy)
    : (ty.shift k).toTy nameOf = ty.toTy fun v => nameOf (k + v) := by
  induction ty using partsInduction with
  | var v => rw [shift_var, toTy, toTy]
  | atomic => rw [shift_atomic, toTy, toTy]
  | named => rw [shift_named, toTy, toTy]
  | wildcard => rw [shift_wildcard, toTy, toTy]
  | procedure params result ihParams ihResult =>
      rw [shift_procedure, toTy, toTy, toTys_eq_map, toTys_eq_map, List.map_map, ihResult]
      exact congrArg (Ty.procedure · _) (List.map_congr_left ihParams)

end OpenTy

namespace UnifyError

mutual
/-- The error with all its types moved. -/
def shift (k : Nat) : UnifyError → UnifyError
  | .mismatch expected inferred => .mismatch (expected.shift k) (inferred.shift k)
  | .arity n m types => .arity n m (types.map (Prod.map (OpenTy.shift k) (OpenTy.shift k)))
  | .occurs v ty => .occurs (k + v) (ty.shift k)
  | .badType ty => .badType (ty.shift k)
  | .multiple errors => .multiple (shiftAll k errors)
  | .unallocated v => .unallocated (k + v)
  | .rebound v => .rebound (k + v)

def shiftAll (k : Nat) : List UnifyError → List UnifyError
  | [] => []
  | e :: es => e.shift k :: shiftAll k es
end

/-- Errors are shifted one by one, by induction on the errors. -/
theorem shiftAll_eq_map (k : Nat) (errors : List UnifyError)
    : shiftAll k errors = errors.map (shift k) := by
  induction errors with
  | nil => rw [shiftAll, List.map_nil]
  | cons e es ih => rw [shiftAll, List.map_cons, ih]

end UnifyError

-----------------------------------------------------------------------------------------
-- Copies of tables
-----------------------------------------------------------------------------------------

namespace Table

/-- The variables of `t` from `k` on are those of `t₀`, with their names and their moved bindings.
-/
structure CopiedAt (t₀ : Table) (k : Nat) (t : Table) : Prop where
  size : t.size = k + t₀.size
  binding? : ∀ v, t.binding? (k + v) = (t₀.binding? v).map (OpenTy.shift k)
  name? : ∀ v, t.name? (k + v) = t₀.name? v

namespace CopiedAt

variable {t₀ t : Table} {k : Nat}

/-- Behind its last variable every table holds a copy of the empty one. -/
theorem start (t : Table) : Table.empty.CopiedAt t.size t where
  size := rfl
  binding? v := by
    rw [binding?_empty]
    exact binding?_of_size_le (Nat.le_add_right _ _)
  name? v := by
    have absent : t.slots[t.size + v]? = none := Array.getElem?_eq_none (Nat.le_add_right _ _)
    simp [Table.name?, absent, empty]

/-- A variable allocated in both tables keeps one a copy of the other. -/
theorem allocate (copied : t₀.CopiedAt k t) (name : Option String)
    : (t₀.allocate name).2.CopiedAt k (t.allocate name).2 where
  size := by rw [size_allocate, size_allocate, copied.size, Nat.add_assoc]
  binding? v := by rw [binding?_allocate, binding?_allocate, copied.binding?]
  name? v := by
    rw [name?_allocate, name?_allocate, copied.size, copied.name?]
    simp

/-- So does a binding with the shifted variable and the shifted type. -/
theorem bind (copied : t₀.CopiedAt k t) {v : Nat} (inside : v < t₀.size) (ty : OpenTy)
    : (t₀.bind v ty).CopiedAt k (t.bind (k + v) (ty.shift k)) where
  size := by rw [size_bind, size_bind, copied.size]
  binding? w := by
    rw [binding?_bind (by rw [copied.size]; omega), binding?_bind inside, copied.binding?]
    by_cases same : v = w
    · simp [same]
    · simp [same]
  name? w := by rw [name?_bind, name?_bind, copied.name?]

/-- A binding has a copy. -/
theorem bound (copied : t₀.CopiedAt k t) {v : Nat} {ty : OpenTy} (bound : t₀.binding? v = some ty)
    : t.binding? (k + v) = some (ty.shift k) := by
  rw [copied.binding?, bound, Option.map_some]

/-- So has an unbound variable. -/
theorem unbound (copied : t₀.CopiedAt k t) {v : Nat} (unbound : t₀.binding? v = none)
    : t.binding? (k + v) = none := by
  rw [copied.binding?, unbound, Option.map_none]

/-- The copy of a variable is one of the other table. -/
theorem inside (copied : t₀.CopiedAt k t) {v : Nat} (inside : v < t₀.size) : k + v < t.size := by
  rw [copied.size]
  omega

/-- With bindings followed to the same level, moved variables stand for moved types. -/
theorem resolveVar_shift (copied : t₀.CopiedAt k t) (depth v : Nat)
    : t.resolveVar depth (k + v) = (t₀.resolveVar depth v).shift k := by
  induction depth generalizing v with
  | zero => rw [resolveVar, resolveVar, OpenTy.shift_var]
  | succ depth ih =>
      rw [resolveVar, resolveVar, copied.binding?]
      cases t₀.binding? v with
      | none => rw [Option.map_none, OpenTy.shift_var]
      | some ty =>
          rw [Option.map_some]
          dsimp only
          rw [OpenTy.shift, OpenTy.shift, OpenTy.subst_subst, OpenTy.subst_subst]
          apply OpenTy.subst_congr
          intro w _
          rw [OpenTy.subst_var]
          exact ih w

/-- The larger table follows bindings further, but the smaller one far enough. -/
theorem resolve_shift (copied : t₀.CopiedAt k t) (grounded : t₀.Grounded) {ty : OpenTy}
    (below : ty.Below t₀.size)
    : t.resolve (ty.shift k) = (t₀.resolve ty).shift k := by
  rw [resolve, resolve, OpenTy.shift, OpenTy.shift, OpenTy.subst_subst, OpenTy.subst_subst]
  apply OpenTy.subst_congr
  intro v occurs
  have low := grounded.height_lt_size (below v occurs)
  have enough : t₀.height v < t.size := by
    rw [copied.size]
    omega
  rw [OpenTy.subst_var, copied.resolveVar_shift, grounded.resolveVar_stable enough low]
  rfl

/-- A moved type is shown in the larger table as what the type stands for in the smaller one, with
the names of the moved variables.
-/
theorem toTy_shift (copied : t₀.CopiedAt k t) (grounded : t₀.Grounded) {ty : OpenTy}
    (below : ty.Below t₀.size)
    : t.toTy (ty.shift k) = (t₀.resolve ty).toTy fun v => t.nameOf (k + v) := by
  rw [toTy, copied.resolve_shift grounded below, OpenTy.toTy_shift]

end CopiedAt

-----------------------------------------------------------------------------------------
-- The rules in a copy
-----------------------------------------------------------------------------------------

variable {t₀ t : Table} {k : Nat}

/-- A chain of variables has a copy, by induction on the chain. -/
theorem ChainEnds.copied {v : Nat} {ty : OpenTy} (chain : t₀.ChainEnds v ty)
    (copied : t₀.CopiedAt k t)
    : t.ChainEnds (k + v) (ty.shift k) := by
  induction chain with
  | unbound inside unbound =>
      rw [OpenTy.shift_var]
      exact .unbound (copied.inside inside) (copied.unbound unbound)
  | link bound _ ih => exact .link (copied.bound bound) ih
  | type bound notVar => exact .type (copied.bound bound) (OpenTy.shift_notVar notVar)

/-- So has the way to a root. -/
theorem RootEnds.copied {a root : OpenTy} (ends : t₀.RootEnds a root) (copied : t₀.CopiedAt k t)
    : t.RootEnds (a.shift k) (root.shift k) := by
  cases ends with
  | var chain =>
      rw [OpenTy.shift_var]
      exact .var (chain.copied copied)
  | other notVar => exact .other (OpenTy.shift_notVar notVar)

/-- The outcome of a check with its error moved. -/
def shiftOutcome (k : Nat) : Except UnifyError Unit → Except UnifyError Unit :=
  Except.mapError (UnifyError.shift k)

mutual
/-- An occurs check has a copy, whose outcome is shifted, by induction on its run. -/
theorem CheckEnds.copied {v : Nat} {whole ty : OpenTy} {outcome : Except UnifyError Unit}
    (copied : t₀.CopiedAt k t)
    : t₀.CheckEnds v whole ty outcome
      → t.CheckEnds (k + v) (whole.shift k) (ty.shift k) (shiftOutcome k outcome)
  | .self => by
      rw [OpenTy.shift_var]
      exact .self
  | .unbound other inside unbound => by
      rw [OpenTy.shift_var]
      exact .unbound (by omega) (copied.inside inside) (copied.unbound unbound)
  | .bound other bound check => by
      rw [OpenTy.shift_var]
      exact .bound (by omega) (copied.bound bound) (check.copied copied)
  | .atomic a => by
      rw [OpenTy.shift_atomic]
      exact .atomic a
  | .named name => by
      rw [OpenTy.shift_named]
      exact .named name
  | .wildcard => by
      rw [OpenTy.shift_wildcard]
      exact .wildcard
  | .procedure inParams inResult => by
      rw [OpenTy.shift_procedure]
      exact .procedure (inParams.copied copied) (inResult.copied copied)
  | .parameter inParams => by
      rw [OpenTy.shift_procedure]
      exact .parameter (inParams.copied copied)

/-- So have the checks of several types. -/
theorem ChecksEnd.copied {v : Nat} {whole : OpenTy} {tys : List OpenTy}
    {outcome : Except UnifyError Unit} (copied : t₀.CopiedAt k t)
    : t₀.ChecksEnd v whole tys outcome
      → t.ChecksEnd (k + v) (whole.shift k) (tys.map (OpenTy.shift k)) (shiftOutcome k outcome)
  | .nil => .nil
  | .passed first rest => .passed (first.copied copied) (rest.copied copied)
  | .refused first => .refused (first.copied copied)
end

end Table

namespace Unify

variable {k : Nat}

/-- Both unifications end with copies, and if one fails then both do, with the moved error. -/
inductive EndsCopied (k : Nat) : Outcome → Outcome → Prop
  | ok {t₀ t : Table} (copied : t₀.CopiedAt k t) : EndsCopied k (.ok () t₀) (.ok () t)
  | error {t₀ t : Table} {e e' : UnifyError} (copied : t₀.CopiedAt k t) (moved : e.shift k = e')
    : EndsCopied k (.error e t₀) (.error e' t)

/-- Types that do not match still do not when they are shifted. -/
theorem Mismatched.shift {a b : OpenTy} (mismatched : Mismatched a b)
    : Mismatched (a.shift k) (b.shift k) := by
  cases a <;> cases b <;> exact mismatched

mutual
/-- An assignment has a copy, which ends in a copy, by induction on its run. -/
theorem AssignEnds.copied {t₀ t : Table} {v : Nat} {target : OpenTy} {r₀ : Outcome}
    (copied : t₀.CopiedAt k t)
    : AssignEnds v target t₀ r₀
      → ∃ r, AssignEnds (k + v) (target.shift k) t r ∧ EndsCopied k r₀ r
  | .bound bound unified =>
      have ⟨r, ends, alike⟩ := unified.copied copied
      ⟨r, .bound (copied.bound bound) ends, alike⟩
  | .self inside unbound root => by
      have root' := root.copied copied
      rw [OpenTy.shift_var] at root'
      exact ⟨_, .self (copied.inside inside) (copied.unbound unbound) root', .ok copied⟩
  | .refused inside unbound root other check =>
      ⟨_, .refused (copied.inside inside) (copied.unbound unbound) (root.copied copied)
        (OpenTy.shift_ne_var other) (check.copied copied), .error copied rfl⟩
  | .binds inside unbound root other check =>
      ⟨_, .binds (copied.inside inside) (copied.unbound unbound) (root.copied copied)
        (OpenTy.shift_ne_var other) (check.copied copied), .ok (copied.bind inside _)⟩

/-- So has the unification of two types. -/
theorem TypesEnd.copied {t₀ t : Table} {a b : OpenTy} {r₀ : Outcome} (copied : t₀.CopiedAt k t)
    : TypesEnd a b t₀ r₀
      → ∃ r, TypesEnd (a.shift k) (b.shift k) t r ∧ EndsCopied k r₀ r
  | .roots first second unified =>
      have ⟨r, ends, alike⟩ := unified.copied copied
      ⟨r, .roots (first.copied copied) (second.copied copied) ends, alike⟩

/-- So has that of two roots. -/
theorem RootsEnd.copied {t₀ t : Table} {a b : OpenTy} {r₀ : Outcome} (copied : t₀.CopiedAt k t)
    : RootsEnd a b t₀ r₀
      → ∃ r, RootsEnd (a.shift k) (b.shift k) t r ∧ EndsCopied k r₀ r
  | .self _ v => by
      rw [OpenTy.shift_var]
      exact ⟨_, .self t (k + v), .ok copied⟩
  | .left other assigned => by
      obtain ⟨r, ends, alike⟩ := assigned.copied copied
      rw [OpenTy.shift_var]
      exact ⟨r, .left (OpenTy.shift_ne_var other) ends, alike⟩
  | .right notVar assigned => by
      obtain ⟨r, ends, alike⟩ := assigned.copied copied
      rw [OpenTy.shift_var]
      exact ⟨r, .right (OpenTy.shift_notVar notVar) ends, alike⟩
  | .atomic _ a => by
      rw [OpenTy.shift_atomic]
      exact ⟨_, .atomic t a, .ok copied⟩
  | .procedures length unified => by
      obtain ⟨r, ends, alike⟩ := unified.copied copied
      rw [OpenTy.shift_procedure, OpenTy.shift_procedure]
      rw [List.map_append, List.map_append] at ends
      exact ⟨r, .procedures (by simpa using length) ends, alike⟩
  | .arity lengths => by
      rw [OpenTy.shift_procedure, OpenTy.shift_procedure]
      exact ⟨_, .arity (by simpa using lengths), .error copied (by simp [UnifyError.shift])⟩
  | .mismatch mismatched =>
      ⟨_, .mismatch mismatched.shift, .error copied (by rw [UnifyError.shift])⟩

/-- So has that of several types. -/
theorem AllTypesEnd.copied {t₀ t : Table} {as bs : List OpenTy} {r₀ : Outcome}
    (copied : t₀.CopiedAt k t)
    : AllTypesEnd as bs t₀ r₀
      → ∃ r, AllTypesEnd (as.map (OpenTy.shift k)) (bs.map (OpenTy.shift k)) t r ∧ EndsCopied k r₀ r
  | .lengths lengths =>
      ⟨_, .lengths (by simpa using lengths), .error copied (by simp [UnifyError.shift])⟩
  | .success length pairs => by
      obtain ⟨t', ends, copied'⟩ := pairs.copied copied
      rw [← List.zip_map] at ends
      exact ⟨_, .success (by simpa using length) ends, .ok copied'⟩
  | .failures length failed pairs => by
      obtain ⟨t', ends, copied'⟩ := pairs.copied copied
      rw [← List.zip_map] at ends
      exact ⟨_, .failures (by simpa using length) (by simpa using failed) ends,
        .error copied' (by rw [UnifyError.shift, UnifyError.shiftAll_eq_map])⟩

/-- So have those of pairs, with the errors shifted. -/
theorem PairsEnd.copied {t₀ t t₀' : Table} {pairs : List (OpenTy × OpenTy)}
    {errors : List UnifyError} (copied : t₀.CopiedAt k t)
    : PairsEnd pairs t₀ errors t₀'
      → ∃ t',
          PairsEnd (pairs.map (Prod.map (OpenTy.shift k) (OpenTy.shift k))) t
            (errors.map (UnifyError.shift k)) t'
          ∧ t₀'.CopiedAt k t'
  | .nil _ => ⟨t, .nil t, copied⟩
  | .success first rest => by
      obtain ⟨_, ends, ⟨middle⟩⟩ := first.copied copied
      obtain ⟨t', others, last⟩ := rest.copied middle
      exact ⟨t', .success ends others, last⟩
  | .failure first rest => by
      obtain ⟨_, ends, - | ⟨middle, rfl⟩⟩ := first.copied copied
      obtain ⟨t', others, last⟩ := rest.copied middle
      exact ⟨t', .failure ends others, last⟩
end

/-- Unifying moved types in a copy ends as unifying the types does. Both unifications end, and the
rules leave no choice.
-/
theorem types_copied {t₀ t : Table} (copied : t₀.CopiedAt k t) (grounded₀ : t₀.Grounded)
    (grounded : t.Grounded) {a b : OpenTy} (belowA : a.Below t₀.size) (belowB : b.Below t₀.size)
    : EndsCopied k (types a b t₀) (types (a.shift k) (b.shift k) t) := by
  obtain ⟨r, ends, alike⟩ := (types_ends grounded₀ belowA belowB).copied copied
  have below {ty : OpenTy} (below : ty.Below t₀.size) : (ty.shift k).Below t.size :=
    copied.size ▸ below.shift
  have again := types_ends grounded (below belowA) (below belowB)
  exact ends.unique again ▸ alike

end Unify

end TypedScheme
