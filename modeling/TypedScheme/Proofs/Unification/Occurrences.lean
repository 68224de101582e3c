import TypedScheme.Proofs.Unification.Termination

/-! Where the occurs check fails in a unification.
The unifier goes on after a failed check. So the variable that was to be bound is unbound when the
check fails, but later pairs may bind it before the error is explained.
-/

namespace TypedScheme

/-- The error tells that the occurs check of the variable in the type failed. -/
inductive UnifyError.Refuses (v : Nat) (ty : OpenTy) : UnifyError → Prop
  | occurs : Refuses v ty (.occurs v ty)
  | multiple {e : UnifyError} {errors : List UnifyError} (member : e ∈ errors)
    (refuses : e.Refuses v ty)
    : Refuses v ty (.multiple errors)

namespace Table

/-- On the way from one table to the other the check of the variable in the type failed: the variable
was unbound then, and it was one of the variables of the procedure type that the type stood for.
-/
inductive Refused (t left : Table) (v : Nat) : OpenTy → Prop
  | intro {middle : Table} {params : List OpenTy} {result : OpenTy} (before : t.Binds middle)
      (after : middle.Binds left) (inside : v < middle.size) (unbound : middle.binding? v = none)
      (occurs : v ∈ (middle.resolve (.procedure params result)).vars)
    : Refused t left v (.procedure params result)

/-- A refusal stays one between earlier and later tables. -/
theorem Refused.mono {t₀ t left left' : Table} {v : Nat} {ty : OpenTy} (before : t₀.Binds t)
    (refused : t.Refused left v ty) (after : left.Binds left')
    : t₀.Refused left' v ty := by
  obtain ⟨first, second, inside, unbound, occurs⟩ := refused
  exact ⟨before.trans first, second.trans after, inside, unbound, occurs⟩

variable {t : Table}

/-- A procedure type is resolved part by part. -/
theorem resolve_procedure (t : Table) (params : List OpenTy) (result : OpenTy)
    : t.resolve (.procedure params result) = .procedure (params.map t.resolve) (t.resolve result) := by
  simp only [resolve, OpenTy.subst_procedure]
  rfl

/-- If a check is refused because a variable occurs, it was the check of `v` in `whole`, and the
statement holds.
-/
def RefusedOnlyIf (v : Nat) (whole : OpenTy) (holds : Prop) : Except UnifyError Unit → Prop
  | .ok _ => True
  | .error e => ∀ w u, e.Refuses w u → w = v ∧ u = whole ∧ holds

/-- The condition of a refusal may be weakened. -/
theorem RefusedOnlyIf.imp {v : Nat} {whole : OpenTy} {p q : Prop} {outcome : Except UnifyError Unit}
    (refused : RefusedOnlyIf v whole p outcome) (implies : p → q)
    : RefusedOnlyIf v whole q outcome := by
  cases outcome with
  | ok _ => trivial
  | error e =>
      intro w u refuses
      obtain ⟨sameVar, sameType, holds⟩ := refused w u refuses
      exact ⟨sameVar, sameType, implies holds⟩

mutual
/-- The variable is met only where it occurs in what the type stands for. -/
theorem CheckEnds.occurs {v : Nat} {whole ty : OpenTy} {outcome : Except UnifyError Unit}
    (grounded : t.Grounded) (unbound : t.binding? v = none)
    : t.CheckEnds v whole ty outcome → RefusedOnlyIf v whole (v ∈ (t.resolve ty).vars) outcome
  | .self => by
      rintro w u ⟨⟩
      simp [resolve_unbound unbound]
  | .unbound _ _ _ | .atomic _ => trivial
  | .bound _ bound check => by
      rw [grounded.resolve_bound bound]
      exact check.occurs grounded unbound
  | .named _ | .wildcard => nofun
  | .procedure _ inResult => by
      apply (inResult.occurs grounded unbound).imp
      intro occurs
      rw [resolve_procedure]
      exact OpenTy.mem_vars_procedure.mpr (.inr occurs)
  | .parameter inParams => by
      apply (inParams.occurs grounded unbound).imp
      rintro ⟨param, member, occurs⟩
      rw [resolve_procedure]
      exact OpenTy.mem_vars_procedure.mpr (.inl ⟨_, List.mem_map_of_mem member, occurs⟩)

/-- The checks of several types are refused only if the variable occurs in one of them. -/
theorem ChecksEnd.occurs {v : Nat} {whole : OpenTy} {tys : List OpenTy}
    {outcome : Except UnifyError Unit} (grounded : t.Grounded) (unbound : t.binding? v = none)
    : t.ChecksEnd v whole tys outcome
      → RefusedOnlyIf v whole (∃ ty ∈ tys, v ∈ (t.resolve ty).vars) outcome
  | .nil => trivial
  | .passed _ rest => by
      apply (rest.occurs grounded unbound).imp
      rintro ⟨ty, member, occurs⟩
      exact ⟨ty, .tail _ member, occurs⟩
  | .refused first => by
      apply (first.occurs grounded unbound).imp
      intro occurs
      exact ⟨_, .head _, occurs⟩
end

/-- The occurs check of a grounded table has the outcome of every run of it. -/
theorem Grounded.occursCheck_of_ends (grounded : t.Grounded) {v : Nat} {ty : OpenTy}
    (below : ty.Below t.size) {outcome : Except UnifyError Unit} (check : t.CheckEnds v ty ty outcome)
    : t.occursCheck v ty = outcome :=
  check.unique (grounded.occursCheck_ends v below)

/-- In a grounded table the way to a root ends at one. -/
theorem RootEnds.rooted {a ty : OpenTy} (root : t.RootEnds a ty) (grounded : t.Grounded)
    (below : a.Below t.size)
    : t.Rooted ty := by
  rw [root.unique (grounded.root_ends below)]
  exact grounded.rooted_root_of_below below

/-- A root other than the variable in which the variable occurs is a procedure type. -/
theorem Rooted.refused {v : Nat} {ty : OpenTy} (rooted : t.Rooted ty) (other : ty ≠ .var v)
    (inside : v < t.size) (unbound : t.binding? v = none) (occurs : v ∈ (t.resolve ty).vars)
    : t.Refused t v ty := by
  cases ty with
  | var w =>
      rw [resolve_unbound (rooted w rfl).2, OpenTy.vars_var, List.mem_singleton] at occurs
      exact absurd (congrArg _ occurs.symm) other
  | procedure params result => exact ⟨.refl, .refl, inside, unbound, occurs⟩
  | atomic | named | wildcard => simp [resolve, OpenTy.subst, OpenTy.vars] at occurs

end Table

namespace Unify

open TypedScheme.Table

/-- The unification only binds variables, and each occurs check that it tells as failed was refused
on the way.
-/
def EndsRefused (t : Table) : Outcome → Prop
  | .ok _ left => t.Binds left
  | .error e left => t.Binds left ∧ ∀ v ty, e.Refuses v ty → t.Refused left v ty

mutual
/-- Every occurs error of an assignment comes from a check that was refused on the way, by induction
on its run.
-/
theorem AssignEnds.endsRefused {t : Table} {v : Nat} {target : OpenTy} {r : Outcome}
    (grounded : t.Grounded) (below : target.Below t.size)
    : AssignEnds v target t r → EndsRefused t r
  | .bound bound unified => unified.endsRefused grounded (grounded.allocated bound) below
  | .self _ _ _ => .refl
  | .refused inside unbound root other check => by
      refine ⟨.refl, ?_⟩
      intro w u refuses
      obtain ⟨rfl, rfl, occurs⟩ := check.occurs grounded unbound w u refuses
      exact (root.rooted grounded below).refused other inside unbound occurs
  | .binds inside unbound root _ check => by
      have belowRoot := root.spreads grounded.spreads_below below
      exact .single (.bind inside unbound (grounded.occursCheck_of_ends belowRoot check))

/-- So do those of the unification of two types. -/
theorem TypesEnd.endsRefused {t : Table} {a b : OpenTy} {r : Outcome} (grounded : t.Grounded)
    (belowA : a.Below t.size) (belowB : b.Below t.size)
    : TypesEnd a b t r → EndsRefused t r
  | .roots first second unified =>
      unified.endsRefused grounded (first.spreads grounded.spreads_below belowA)
        (second.spreads grounded.spreads_below belowB)

/-- So do those of the unification of two roots. -/
theorem RootsEnd.endsRefused {t : Table} {a b : OpenTy} {r : Outcome} (grounded : t.Grounded)
    (belowA : a.Below t.size) (belowB : b.Below t.size)
    : RootsEnd a b t r → EndsRefused t r
  | .self _ _ | .atomic _ _ => .refl
  | .left _ assigned => assigned.endsRefused grounded belowB
  | .right _ assigned => assigned.endsRefused grounded belowA
  | .procedures _ unified => by
      obtain ⟨inParams, inResult⟩ := OpenTy.below_procedure.mp belowA
      obtain ⟨inParams', inResult'⟩ := OpenTy.below_procedure.mp belowB
      refine unified.endsRefused grounded ?_ ?_
      · exact List.forall_mem_append.mpr ⟨inParams, by simpa using inResult⟩
      · exact List.forall_mem_append.mpr ⟨inParams', by simpa using inResult'⟩
  | .arity _ | .mismatch _ => ⟨.refl, nofun⟩

/-- So do those of the unification of several types. -/
theorem AllTypesEnd.endsRefused {t : Table} {as bs : List OpenTy} {r : Outcome} (grounded : t.Grounded)
    (belowAs : ∀ ty ∈ as, ty.Below t.size) (belowBs : ∀ ty ∈ bs, ty.Below t.size)
    : AllTypesEnd as bs t r → EndsRefused t r
  | .lengths _ => ⟨.refl, nofun⟩
  | .success _ pairs =>
      (pairs.endsRefused grounded fun _ _ member =>
        ⟨belowAs _ (List.of_mem_zip member).1, belowBs _ (List.of_mem_zip member).2⟩).1
  | .failures _ _ pairs => by
      obtain ⟨binds, each⟩ := pairs.endsRefused grounded fun _ _ member =>
        ⟨belowAs _ (List.of_mem_zip member).1, belowBs _ (List.of_mem_zip member).2⟩
      refine ⟨binds, ?_⟩
      rintro v ty (_ | ⟨member, refuses⟩)
      exact each _ member v ty refuses

/-- A pair may bind variables for which the check of an earlier pair failed. -/
theorem PairsEnd.endsRefused {t left : Table} {pairs : List (OpenTy × OpenTy)}
    {errors : List UnifyError} (grounded : t.Grounded)
    (below : ∀ a b, (a, b) ∈ pairs → a.Below t.size ∧ b.Below t.size)
    : PairsEnd pairs t errors left
      → t.Binds left ∧ ∀ e ∈ errors, ∀ v ty, e.Refuses v ty → t.Refused left v ty
  | .nil _ => ⟨.refl, fun _ member => nomatch member⟩
  | .success first rest => by
      obtain ⟨belowA, belowB⟩ := below _ _ (.head _)
      have binds := first.endsRefused grounded belowA belowB
      obtain ⟨more, others⟩ := rest.endsRefused (Binds.grounded binds grounded) fun a b member =>
        (Binds.size binds).symm ▸ below a b (.tail _ member)
      refine ⟨Relation.ReflTransGen.trans binds more, ?_⟩
      intro e member v ty refuses
      exact (others e member v ty refuses).mono binds .refl
  | .failure first rest => by
      obtain ⟨belowA, belowB⟩ := below _ _ (.head _)
      obtain ⟨binds, here⟩ := first.endsRefused grounded belowA belowB
      obtain ⟨more, others⟩ := rest.endsRefused (Binds.grounded binds grounded) fun a b member =>
        (Binds.size binds).symm ▸ below a b (.tail _ member)
      refine ⟨Relation.ReflTransGen.trans binds more, List.forall_mem_cons.mpr ⟨?_, ?_⟩⟩
      · intro v ty refuses
        exact (here v ty refuses).mono .refl more
      · intro e member v ty refuses
        exact (others e member v ty refuses).mono binds .refl
end

end Unify

end TypedScheme
