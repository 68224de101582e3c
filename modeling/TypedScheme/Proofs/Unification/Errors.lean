import TypedScheme.Proofs.Unification.Evaluation
import TypedScheme.Proofs.Unification.Resolution

/-! What the errors of a unification are about, read off the derivations.
A property that the parts of a type and the bindings of the table share passes from the two types
unified to all types in an error.
-/

namespace TypedScheme

/-- A property of types that the parts of a type and the bindings of the table share, and that only
variables of the table have.
-/
structure Table.Spreads (t : Table) (P : OpenTy → Prop) : Prop where
  inside : ∀ {v}, P (.var v) → v < t.size
  parts : ∀ {params result}, P (.procedure params result) → (∀ param ∈ params, P param) ∧ P result
  bound : ∀ {v ty}, t.binding? v = some ty → P ty

/-- In a grounded table the types over its variables are closed under parts and bindings. -/
theorem Table.Grounded.spreads_below {t : Table} (grounded : t.Grounded)
    : t.Spreads (OpenTy.Below t.size) where
  inside below := by simpa using below
  parts below := OpenTy.below_procedure.mp below
  bound := grounded.allocated

/-- What is closed under parts and bindings stays so with a binding to one of its types. -/
theorem Table.Spreads.bind {t : Table} {P : OpenTy → Prop} (spreads : t.Spreads P) {v : Nat}
    {ty : OpenTy} (inside : v < t.size) (holds : P ty)
    : (t.bind v ty).Spreads P where
  inside held := by simpa using spreads.inside held
  parts := spreads.parts
  bound := by
    intro w found bound
    rw [binding?_bind inside] at bound
    split at bound
    · exact Option.some.inj bound ▸ holds
    · exact spreads.bound bound

/-- An error that is not fatal and whose types have the property. Lists of different lengths are
left out: they are no types.
-/
inductive UnifyError.About (P : OpenTy → Prop) : UnifyError → Prop
  | mismatch {expected inferred : OpenTy} (first : P expected) (second : P inferred)
    : About P (.mismatch expected inferred)
  | arity {n m : Nat} {expected inferred : OpenTy} (first : P expected) (second : P inferred)
    : About P (.arity n m (some (expected, inferred)))
  | occurs {v : Nat} {ty : OpenTy} (first : P (.var v)) (second : P ty) : About P (.occurs v ty)
  | badType {ty : OpenTy} (holds : P ty) (bad : ty.isPlain = false) : About P (.badType ty)
  | multiple {errors : List UnifyError} (each : ∀ e ∈ errors, About P e)
    : About P (.multiple errors)

/-- An error about types is not fatal. -/
theorem UnifyError.About.not_fatal {P : OpenTy → Prop} {e : UnifyError} (about : e.About P)
    : e.isFatal = false := by
  cases about <;> rfl

/-- What an error says of its types may be weakened, by induction on the error. -/
theorem UnifyError.About.imp {P Q : OpenTy → Prop} {e : UnifyError} (about : e.About P)
    (implies : ∀ ty, P ty → Q ty)
    : e.About Q := by
  induction about with
  | mismatch first second => exact .mismatch (implies _ first) (implies _ second)
  | arity first second => exact .arity (implies _ first) (implies _ second)
  | occurs first second => exact .occurs (implies _ first) (implies _ second)
  | badType holds bad => exact .badType (implies _ holds) bad
  | multiple _ ih => exact .multiple ih

namespace Table

variable {t : Table} {P : OpenTy → Prop}

/-- A chain of variables ends within what is closed under bindings, by induction on the chain. -/
theorem ChainEnds.spreads {v : Nat} {ty : OpenTy} (chain : t.ChainEnds v ty)
    (spreads : t.Spreads P) (holds : P (.var v))
    : P ty := by
  induction chain with
  | unbound => exact holds
  | link bound _ ih => exact ih (spreads.bound bound)
  | type bound => exact spreads.bound bound

/-- So does the way to a root. -/
theorem RootEnds.spreads {a root : OpenTy} (ends : t.RootEnds a root) (spreads : t.Spreads P)
    (holds : P a)
    : P root := by
  cases ends with
  | var chain => exact chain.spreads spreads holds
  | other => exact holds

/-- If the check is refused, its error is about types with the property. -/
def RefusedAbout (P : OpenTy → Prop) : Except UnifyError Unit → Prop
  | .ok _ => True
  | .error e => e.About P

mutual
/-- A check is refused for the whole type or for a name or wildcard met on the way. -/
theorem CheckEnds.about {v : Nat} {whole ty : OpenTy} {outcome : Except UnifyError Unit}
    (spreads : t.Spreads P) (holdsVar : P (.var v)) (holdsWhole : P whole) (holds : P ty)
    : t.CheckEnds v whole ty outcome → RefusedAbout P outcome
  | .self => .occurs holdsVar holdsWhole
  | .unbound _ _ _ | .atomic _ => trivial
  | .bound _ bound check => check.about spreads holdsVar holdsWhole (spreads.bound bound)
  | .named name => .badType holds (by simp [OpenTy.isPlain])
  | .wildcard => .badType holds (by simp [OpenTy.isPlain])
  | .procedure _ inResult => inResult.about spreads holdsVar holdsWhole (spreads.parts holds).2
  | .parameter inParams => inParams.about spreads holdsVar holdsWhole (spreads.parts holds).1

/-- The checks of several types are refused with errors about such types, by induction on their run.
-/
theorem ChecksEnd.about {v : Nat} {whole : OpenTy} {tys : List OpenTy}
    {outcome : Except UnifyError Unit} (spreads : t.Spreads P) (holdsVar : P (.var v))
    (holdsWhole : P whole) (holds : ∀ ty ∈ tys, P ty)
    : t.ChecksEnd v whole tys outcome → RefusedAbout P outcome
  | .nil => trivial
  | .passed _ rest =>
      rest.about spreads holdsVar holdsWhole fun ty member => holds ty (.tail _ member)
  | .refused first => first.about spreads holdsVar holdsWhole (holds _ (.head _))
end

end Table

namespace Unify

/-- The table left has the property still, and if there is an error, it is about types with the
property.
-/
def EndsAbout (P : OpenTy → Prop) : Outcome → Prop
  | .ok _ t => t.Spreads P
  | .error e t => t.Spreads P ∧ e.About P

mutual
/-- An assignment fails with errors about such types, by induction on its run. -/
theorem AssignEnds.about {P : OpenTy → Prop} {t : Table} {v : Nat} {target : OpenTy} {r : Outcome}
    (spreads : t.Spreads P) (holdsVar : P (.var v)) (holds : P target)
    : AssignEnds v target t r → EndsAbout P r
  | .bound bound unified => unified.about spreads (spreads.bound bound) holds
  | .self _ _ _ => spreads
  | .refused _ _ root _ check =>
      have holdsRoot := root.spreads spreads holds
      ⟨spreads, check.about spreads holdsVar holdsRoot holdsRoot⟩
  | .binds inside _ root _ _ => spreads.bind inside (root.spreads spreads holds)

/-- So does the unification of two types. -/
theorem TypesEnd.about {P : OpenTy → Prop} {t : Table} {a b : OpenTy} {r : Outcome}
    (spreads : t.Spreads P) (holdsA : P a) (holdsB : P b)
    : TypesEnd a b t r → EndsAbout P r
  | .roots first second unified =>
      unified.about spreads (first.spreads spreads holdsA) (second.spreads spreads holdsB)

/-- So does that of two roots. -/
theorem RootsEnd.about {P : OpenTy → Prop} {t : Table} {a b : OpenTy} {r : Outcome}
    (spreads : t.Spreads P) (holdsA : P a) (holdsB : P b)
    : RootsEnd a b t r → EndsAbout P r
  | .self _ _ | .atomic _ _ => spreads
  | .left _ assigned => assigned.about spreads holdsA holdsB
  | .right _ assigned => assigned.about spreads holdsB holdsA
  | .procedures length unified => by
      obtain ⟨inParams, inResult⟩ := spreads.parts holdsA
      obtain ⟨inParams', inResult'⟩ := spreads.parts holdsB
      refine unified.about (by simpa using length) spreads ?_ ?_
      · intro ty member
        rcases List.mem_append.mp member with early | last
        · exact inParams ty early
        · exact List.mem_singleton.mp last ▸ inResult
      · intro ty member
        rcases List.mem_append.mp member with early | last
        · exact inParams' ty early
        · exact List.mem_singleton.mp last ▸ inResult'
  | .arity _ => ⟨spreads, .arity holdsA holdsB⟩
  | .mismatch _ => ⟨spreads, .mismatch holdsA holdsB⟩

/-- So does that of equally many types. -/
theorem AllTypesEnd.about {P : OpenTy → Prop} {t : Table} {as bs : List OpenTy} {r : Outcome}
    (length : as.length = bs.length) (spreads : t.Spreads P) (holdsAs : ∀ ty ∈ as, P ty)
    (holdsBs : ∀ ty ∈ bs, P ty)
    : AllTypesEnd as bs t r → EndsAbout P r
  | .lengths lengths => absurd length lengths
  | .success _ pairs =>
      (pairs.about spreads fun _ _ member =>
        ⟨holdsAs _ (List.of_mem_zip member).1, holdsBs _ (List.of_mem_zip member).2⟩).1
  | .failures _ _ pairs =>
      have passed := pairs.about spreads fun _ _ member =>
        ⟨holdsAs _ (List.of_mem_zip member).1, holdsBs _ (List.of_mem_zip member).2⟩
      ⟨passed.1, .multiple passed.2⟩

/-- So do those of pairs, and the table they leave is closed as the first one was. -/
theorem PairsEnd.about {P : OpenTy → Prop} {t t' : Table} {pairs : List (OpenTy × OpenTy)}
    {errors : List UnifyError} (spreads : t.Spreads P)
    (holds : ∀ a b, (a, b) ∈ pairs → P a ∧ P b)
    : PairsEnd pairs t errors t' → t'.Spreads P ∧ ∀ e ∈ errors, e.About P
  | .nil _ => ⟨spreads, fun _ member => nomatch member⟩
  | .success first rest => by
      obtain ⟨holdsA, holdsB⟩ := holds _ _ (.head _)
      have later := first.about spreads holdsA holdsB
      exact rest.about later fun a b member => holds a b (.tail _ member)
  | .failure first rest => by
      obtain ⟨holdsA, holdsB⟩ := holds _ _ (.head _)
      obtain ⟨later, about⟩ := first.about spreads holdsA holdsB
      obtain ⟨last, abouts⟩ := rest.about later fun a b member => holds a b (.tail _ member)
      exact ⟨last, List.forall_mem_cons.mpr ⟨about, abouts⟩⟩
end

end Unify

-----------------------------------------------------------------------------------------
-- Errors over the variables of a table can be explained
-----------------------------------------------------------------------------------------

/-- There is no stray variable among types if there is none in each, by induction on the types. -/
theorem OpenTy.strayAmong?_eq_none {size : Nat} {tys : List OpenTy}
    (each : ∀ ty ∈ tys, ty.stray? size = none)
    : OpenTy.strayAmong? size tys = none := by
  induction tys with
  | nil => rw [strayAmong?]
  | cons ty tys ih =>
      rw [strayAmong?, each ty (.head _), ih fun ty member => each ty (.tail _ member)]
      rfl

/-- There is no stray variable in a type over the variables of the table, by induction on its parts.
-/
theorem OpenTy.Below.stray?_eq_none {size : Nat} {ty : OpenTy} (below : ty.Below size)
    : ty.stray? size = none := by
  induction ty using partsInduction with
  | var v => simpa [stray?] using below
  | atomic | named | wildcard => rw [stray?]
  | procedure params result ihParams ihResult =>
      obtain ⟨inParams, inResult⟩ := below_procedure.mp below
      rw [stray?, strayAmong?_eq_none fun param member => ihParams param member (inParams _ member),
        ihResult inResult]
      rfl

/-- There is none in what it is resolved to either. -/
theorem Table.Grounded.stray?_eq_none {t : Table} (grounded : t.Grounded) {ty : OpenTy}
    (below : ty.Below t.size)
    : t.stray? ty = none :=
  (grounded.below_resolve below).stray?_eq_none

namespace UnifyError

/-- There is no stray variable among errors if there is none in each, by induction on the errors. -/
theorem strayAmong?_eq_none {t : Table} {errors : List UnifyError}
    (each : ∀ e ∈ errors, e.stray? t = none)
    : strayAmong? t errors = none := by
  induction errors with
  | nil => rw [strayAmong?]
  | cons e es ih =>
      rw [strayAmong?, each e (.head _), ih fun e member => each e (.tail _ member)]
      rfl

/-- There is no stray variable in an error about types over the variables of the table, by induction
on the error.
-/
theorem About.stray?_eq_none {t : Table} (grounded : t.Grounded) {e : UnifyError}
    (about : e.About (OpenTy.Below t.size))
    : e.stray? t = none := by
  induction about with
  | mismatch first second | arity first second | occurs first second =>
      rw [stray?, grounded.stray?_eq_none first, grounded.stray?_eq_none second]
      rfl
  | badType holds => rw [stray?, grounded.stray?_eq_none holds]
  | multiple _ ih => rw [stray?, strayAmong?_eq_none ih]

/-- An error without stray variables is explained by its own types. -/
theorem explain_eq {t : Table} {e : UnifyError} (none : e.stray? t = none) (context : Expr)
    : e.explain t context = e.toTypeError t context := by
  rw [explain, none]

end UnifyError

end TypedScheme
