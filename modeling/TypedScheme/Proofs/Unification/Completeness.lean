import TypedScheme.Proofs.Unification.Soundness

/-! Unification finds what can be found: where a solution of the table makes two types equal, the
unifier succeeds and the solution solves the new table too. The solution also bounds the work:
behind each binding that is followed, the types it gives to variables get smaller.
-/

namespace TypedScheme

namespace Unify

-----------------------------------------------------------------------------------------
-- The rank of a variable under a solution
-----------------------------------------------------------------------------------------

/-- The number of variables below `size` that get a smaller type than `v`. -/
noncomputable def rank (σ : Nat → OpenTy) (size v : Nat) : Nat :=
  ((Finset.range size).filter fun w => sizeOf (σ w) < sizeOf (σ v)).card

/-- A variable with a smaller type has a smaller rank. -/
theorem rank_lt_rank {σ : Nat → OpenTy} {size v w : Nat} (inside : w < size)
    (smaller : sizeOf (σ w) < sizeOf (σ v))
    : rank σ size w < rank σ size v := by
  apply Finset.card_lt_card
  refine Finset.ssubset_iff_subset_ne.mpr ⟨?_, ?_⟩
  · intro x member
    obtain ⟨xInside, xSmaller⟩ := Finset.mem_filter.mp member
    exact Finset.mem_filter.mpr ⟨xInside, Nat.lt_trans xSmaller smaller⟩
  · intro same
    have here : w ∈ (Finset.range size).filter fun x => sizeOf (σ x) < sizeOf (σ v) :=
      Finset.mem_filter.mpr ⟨Finset.mem_range.mpr inside, smaller⟩
    rw [← same] at here
    exact Nat.lt_irrefl _ (Finset.mem_filter.mp here).2

/-- Ranks are below the number of variables. -/
theorem rank_lt_size {σ : Nat → OpenTy} {size v : Nat} (inside : v < size)
    : rank σ size v < size := by
  have strict
      : ((Finset.range size).filter fun w => sizeOf (σ w) < sizeOf (σ v))
        ⊂ Finset.range size := by
    refine Finset.ssubset_iff_subset_ne.mpr ⟨Finset.filter_subset _ _, ?_⟩
    intro same
    have self := Finset.mem_range.mpr inside
    rw [← same] at self
    exact Nat.lt_irrefl _ (Finset.mem_filter.mp self).2
  simpa [rank] using Finset.card_lt_card strict

/-- Variables inside a plain type that is no variable have a smaller rank than a variable that the
solution makes equal to the type.
-/
theorem rank_lt_of_mem_vars {σ : Nat → OpenTy} {size v w : Nat} {ty : OpenTy}
    (notVar : ∀ x, ty ≠ .var x) (below : ty.Below size) (equal : ty.subst σ = σ v)
    (occurs : w ∈ ty.vars)
    : rank σ size w < rank σ size v := by
  cases ty with
  | var x => exact absurd rfl (notVar x)
  | atomic | named | wildcard => simp [OpenTy.vars] at occurs
  | procedure params result =>
      have smaller := OpenTy.sizeOf_image_lt σ occurs
      exact rank_lt_rank (below w occurs) (equal ▸ smaller)

-----------------------------------------------------------------------------------------
-- Equations with a solution
-----------------------------------------------------------------------------------------

/-- The solution `σ` of the table makes two plain types over its variables equal. -/
structure Equation (σ : Nat → OpenTy) (t : Table) (a b : OpenTy) : Prop where
  solved : t.SolvedBy σ
  equal : a.subst σ = b.subst σ
  below : a.Below t.size ∧ b.Below t.size
  plain : a.isPlain = true ∧ b.isPlain = true

/-- A unification from `t` succeeds and keeps the solution. -/
def Succeeds (σ : Nat → OpenTy) (t : Table) (r : EStateM.Result UnifyError Table Unit) : Prop :=
  ∃ t', r = .ok () t' ∧ t.Binds t' ∧ t'.SolvedBy σ

/-- An equation still stands in a later table that the solution solves. -/
theorem Equation.of_binds {σ : Nat → OpenTy} {t t' : Table} {a b : OpenTy}
    (eqn : Equation σ t a b) (binds : t.Binds t') (solved : t'.SolvedBy σ)
    : Equation σ t' a b :=
  ⟨solved, eqn.equal, binds.size ▸ eqn.below, eqn.plain⟩

/-- Equations can be read from either side. -/
theorem Equation.symm {σ : Nat → OpenTy} {t : Table} {a b : OpenTy} (eqn : Equation σ t a b)
    : Equation σ t b a :=
  ⟨eqn.solved, eqn.equal.symm, eqn.below.symm, eqn.plain.symm⟩

/-- The first type may be replaced by its root. -/
theorem Equation.rootLeft {σ : Nat → OpenTy} {t : Table} {a b : OpenTy} (wf : t.WellFormed)
    (eqn : Equation σ t a b)
    : Equation σ t (t.root a) b where
  solved := eqn.solved
  equal := (eqn.solved.subst_root a).trans eqn.equal
  below := ⟨wf.below_root eqn.below.1, eqn.below.2⟩
  plain := ⟨wf.plain_root eqn.plain.1, eqn.plain.2⟩

/-- The right side of an equation may be replaced by its root. -/
theorem Equation.rootRight {σ : Nat → OpenTy} {t : Table} {a b : OpenTy} (wf : t.WellFormed)
    (eqn : Equation σ t a b)
    : Equation σ t a (t.root b) :=
  (eqn.symm.rootLeft wf).symm

-----------------------------------------------------------------------------------------
-- Single bindings
-----------------------------------------------------------------------------------------

/-- Along a path of bindings the types that a solution gives do not grow, by induction on the
path.
-/
theorem sizeOf_le_of_reaches {σ : Nat → OpenTy} {t : Table} (solved : t.SolvedBy σ)
    {w v : Nat} (path : t.Reaches w v)
    : sizeOf (σ v) ≤ sizeOf (σ w) := by
  induction path with
  | refl => exact Nat.le_refl _
  | @tail x y _ edge ih =>
      obtain ⟨ty, bound, occurs⟩ := edge
      have smaller := OpenTy.sizeOf_image_le σ occurs
      rw [← solved x ty bound] at smaller
      exact Nat.le_trans smaller ih

/-- An unbound variable cannot be reached from a root that a solution makes equal to it: the
solution would give the variable a type larger than itself.
-/
theorem not_reaches_of_equal {σ : Nat → OpenTy} {t : Table} (solved : t.SolvedBy σ)
    {v : Nat} {ty : OpenTy} (rooted : t.Rooted ty) (other : ty ≠ .var v)
    (equal : ty.subst σ = σ v) {w : Nat} (occurs : w ∈ ty.vars)
    : ¬ t.Reaches w v := by
  intro path
  cases ty with
  | atomic | named | wildcard => simp [OpenTy.vars] at occurs
  | var x =>
      have same : w = x := by simpa using occurs
      rcases path.cases_head with here | ⟨next, ⟨ty, bound, _⟩, _⟩
      · exact other (by rw [← same, here])
      · rw [same, (rooted x rfl).2] at bound
        cases bound
  | procedure params result =>
      have smaller := OpenTy.sizeOf_image_lt σ occurs
      have notLarger := sizeOf_le_of_reaches solved path
      rw [equal] at smaller
      omega

/-- A solution of the table that makes a variable equal to a type is one of the table with that
binding.
-/
theorem solvedBy_bind {σ : Nat → OpenTy} {t : Table} (solved : t.SolvedBy σ) {v : Nat}
    (inside : v < t.size) {ty : OpenTy} (equal : σ v = ty.subst σ)
    : (t.bind v ty).SolvedBy σ := by
  intro w found bound
  rw [Table.binding?_bind inside] at bound
  by_cases same : v = w
  · rw [if_pos same] at bound
    rw [← same, ← Option.some.inj bound, equal]
  · rw [if_neg same] at bound
    exact solved w found bound

/-- An unbound variable can be made equal to a type if a solution does: it does not occur in it, or
is the type itself.
-/
theorem solve_succeeds {σ : Nat → OpenTy} {t : Table} (wf : t.WellFormed) {v : Nat}
    (unbound : t.binding? v = none) {target : OpenTy} (eqn : Equation σ t (.var v) target)
    : Succeeds σ t (solve v target t) := by
  have inside : v < t.size := by simpa using eqn.below.1
  have run := root_run_of_below wf.toGrounded eqn.below.2
  have rooted := wf.rooted_root_of_below eqn.below.2
  have rootEqn := eqn.rootRight wf
  have equal : (t.root target).subst σ = σ v := by simpa using rootEqn.equal.symm
  by_cases self : t.root target = .var v
  · exact ⟨t, solve_run_self run self, .refl, eqn.solved⟩
  · have passed : t.occursCheck v (t.root target) = .ok () :=
      wf.occursCheck_ok_iff.mpr ⟨rootEqn.plain.2, rootEqn.below.2,
        fun w occurs => not_reaches_of_equal eqn.solved rooted self equal occurs⟩
    refine ⟨t.bind v (t.root target), ?_, .single (.bind inside unbound passed),
      solvedBy_bind eqn.solved inside equal.symm⟩
    rw [solve_run_other run self inside unbound, passed]

/-- Where the second type is an unbound variable, it is solved for the first one. -/
theorem solve_succeeds_right {σ : Nat → OpenTy} {t : Table} (wf : t.WellFormed) {a b : OpenTy}
    (eqn : Equation σ t a b) {w : Nat} (shape : t.root b = .var w)
    : Succeeds σ t (solve w a t) := by
  have rooted := wf.rooted_root_of_below eqn.below.2
  have rootEqn := (eqn.rootRight wf).symm
  rw [shape] at rootEqn
  exact solve_succeeds wf (rooted w shape).2 rootEqn

-----------------------------------------------------------------------------------------
-- Pairs and types
-----------------------------------------------------------------------------------------

/-- A unification that succeeds leaves no errors to collect. -/
theorem failures_of_succeeds {σ : Nat → OpenTy} {t : Table} {x : Unify Unit}
    (succeeds : Succeeds σ t (x t))
    : ∃ t', failures x t = .ok [] t' ∧ t.Binds t' ∧ t'.SolvedBy σ := by
  obtain ⟨t', run, binds, solved⟩ := succeeds
  refine ⟨t', ?_, binds, solved⟩
  rw [failures, run]

/-- No pair fails if the solution makes each pair equal, by induction on the lists. -/
theorem pairsWith_succeeds {σ : Nat → OpenTy} {through : OpenTy → OpenTy → Unify Unit}
    {as bs : List OpenTy} {t : Table} (wf : t.WellFormed) (solved : t.SolvedBy σ)
    (each : ∀ pair ∈ as.zip bs, ∀ t',
      t.Binds t' → t'.SolvedBy σ → Succeeds σ t' (typesWith through pair.1 pair.2 t'))
    : ∃ t', pairsWith through as bs t = .ok [] t' ∧ t.Binds t' ∧ t'.SolvedBy σ := by
  induction as generalizing bs t with
  | nil =>
      refine ⟨t, ?_, .refl, solved⟩
      rw [pairsWith]
      · rfl
      · intro _ _ _ _ same
        cases same
  | cons a as ih =>
      cases bs with
      | nil =>
          refine ⟨t, ?_, .refl, solved⟩
          rw [pairsWith]
          · rfl
          · intro _ _ _ _ _ same
            cases same
      | cons b bs =>
          obtain ⟨middle, run, binds, solved'⟩ :=
            failures_of_succeeds (each (a, b) (by simp) t .refl solved)
          have eachLater pair (member : pair ∈ as.zip bs) t' (later : middle.Binds t') :=
            each pair (by simp [member]) t' (binds.trans later)
          obtain ⟨t', rest, moreBinds, solved''⟩ := ih (binds.wellFormed wf) solved' eachLater
          refine ⟨t', ?_, binds.trans moreBinds, solved''⟩
          rw [pairsWith, run_bind_ok run, run_bind_ok rest]
          rfl

/-- Equal procedure types have parameters that are equal pair by pair. -/
theorem equal_of_mem_zip {σ : Nat → OpenTy} {as bs : List OpenTy}
    (equal : as.map (OpenTy.subst σ) = bs.map (OpenTy.subst σ))
    : ∀ pair ∈ as.zip bs, pair.1.subst σ = pair.2.subst σ := by
  induction as generalizing bs with
  | nil => simp
  | cons a as ih =>
      cases bs with
      | nil => simp
      | cons b bs =>
          rw [List.map_cons, List.map_cons] at equal
          obtain ⟨head, tail⟩ := List.cons.inj equal
          intro pair member
          rcases List.mem_cons.mp (List.zip_cons_cons ▸ member) with rfl | later
          · exact head
          · exact ih tail pair later

/-- Equal procedure types are unified part by part without a failure. -/
theorem procedureParts_succeeds {σ : Nat → OpenTy} {through : OpenTy → OpenTy → Unify Unit}
    {params params' : List OpenTy} {result result' : OpenTy} {t : Table} (wf : t.WellFormed)
    (eqn : Equation σ t (.procedure params result) (.procedure params' result'))
    (eachParam : ∀ a ∈ params, ∀ b t',
      t.Binds t' → Equation σ t' a b → Succeeds σ t' (typesWith through a b t'))
    (eachResult : ∀ b t',
      t.Binds t' → Equation σ t' result b → Succeeds σ t' (typesWith through result b t'))
    : Succeeds σ t
        ((do
          let errors ← pairsWith through params params'
          let error ← failures (typesWith through result result')
          report (errors ++ error) : Unify Unit) t) := by
  obtain ⟨belowParams, belowResult⟩ := OpenTy.below_procedure.mp eqn.below.1
  obtain ⟨belowParams', belowResult'⟩ := OpenTy.below_procedure.mp eqn.below.2
  obtain ⟨plainParams, plainResult⟩ := OpenTy.isPlain_procedure.mp eqn.plain.1
  obtain ⟨plainParams', plainResult'⟩ := OpenTy.isPlain_procedure.mp eqn.plain.2
  have equal := eqn.equal
  rw [OpenTy.subst_procedure, OpenTy.subst_procedure] at equal
  obtain ⟨equalParams, equalResult⟩ := OpenTy.procedure.inj equal
  have pairEqn pair (member : pair ∈ params.zip params') : Equation σ t pair.1 pair.2 := by
    obtain ⟨left, right⟩ := List.of_mem_zip (a := pair.1) (b := pair.2) member
    exact ⟨eqn.solved, equal_of_mem_zip equalParams pair member,
      ⟨belowParams _ left, belowParams' _ right⟩, ⟨plainParams _ left, plainParams' _ right⟩⟩
  have resultEqn : Equation σ t result result' :=
    ⟨eqn.solved, equalResult, ⟨belowResult, belowResult'⟩, ⟨plainResult, plainResult'⟩⟩
  have eachPair pair (member : pair ∈ params.zip params') t' (later : t.Binds t')
      (solved : t'.SolvedBy σ)
      : Succeeds σ t' (typesWith through pair.1 pair.2 t') :=
    eachParam pair.1 (List.of_mem_zip (a := pair.1) (b := pair.2) member).1 pair.2 t' later
      ((pairEqn pair member).of_binds later solved)
  obtain ⟨middle, run, binds, solved⟩ := pairsWith_succeeds wf eqn.solved eachPair
  obtain ⟨t', last, moreBinds, solved'⟩ := failures_of_succeeds
    (eachResult result' middle binds (resultEqn.of_binds binds solved))
  refine ⟨t', ?_, binds.trans moreBinds, solved'⟩
  rw [run_bind_ok run, run_bind_ok last]
  rfl

/-- One level of unification succeeds on an equation whose variables have a rank below `levels`, if
what it does at the binding of a variable succeeds one level further down. The induction is over
the parts of the first type.
-/
theorem typesWith_succeeds {σ : Nat → OpenTy} {size levels : Nat}
    {through : OpenTy → OpenTy → Unify Unit}
    (deeper : ∀ a b t,
      t.WellFormed
      → t.size = size
      → Equation σ t a b
      → 0 < levels
      → (∀ w ∈ a.vars, rank σ size w + 1 < levels)
      → Succeeds σ t (through a b t))
    (a b : OpenTy) (t : Table) (wf : t.WellFormed) (sized : t.size = size)
    (eqn : Equation σ t a b) (low : ∀ w ∈ a.vars, rank σ size w < levels)
    : Succeeds σ t (typesWith through a b t) := by
  have rightEqn := eqn.rootRight wf
  induction a using OpenTy.partsInduction generalizing b t with
  | var v =>
      rw [typesWith, run_bind_ok (root_run_of_below wf.toGrounded eqn.below.1)]
      have rooted := wf.rooted_root_of_below eqn.below.1
      have leftEqn := eqn.rootLeft wf
      have bound : rank σ size v < levels := low v (by simp)
      -- Behind the binding of `v` all variables have a smaller rank than `v`.
      have behind : (∀ x, t.root (.var v) ≠ .var x)
          → Succeeds σ t (through (t.root (.var v)) b t) := by
        intro notVar
        refine deeper _ b t wf sized leftEqn (by omega) ?_
        intro w occurs
        have same : (t.root (.var v)).subst σ = σ v := by
          simpa using eqn.solved.subst_root (.var v)
        have lower := rank_lt_of_mem_vars notVar leftEqn.below.1 same occurs
        rw [sized] at lower
        omega
      cases shape : t.root (.var v) with
      | var w =>
          rw [shape] at leftEqn
          exact solve_succeeds wf (rooted w shape).2 leftEqn
      | atomic | named | wildcard | procedure =>
          rw [shape] at behind
          exact behind (by simp)
  | atomic a =>
      rw [typesWith, run_bind_ok (root_run_of_below wf.toGrounded eqn.below.2)]
      cases shape : t.root b with
      | var w => exact solve_succeeds_right wf eqn shape
      | named | wildcard =>
          rw [shape] at rightEqn
          exact absurd rightEqn.plain.2 (by simp [OpenTy.isPlain])
      | atomic a' =>
          rw [shape] at rightEqn
          have same : a = a' := by simpa using rightEqn.equal
          exact ⟨t, by simp [same]; rfl, .refl, eqn.solved⟩
      | procedure params' result' =>
          rw [shape] at rightEqn
          exact absurd rightEqn.equal (by simp)
  | named => exact absurd eqn.plain.1 (by simp [OpenTy.isPlain])
  | wildcard => exact absurd eqn.plain.1 (by simp [OpenTy.isPlain])
  | procedure params result ihParams ihResult =>
      rw [typesWith, run_bind_ok (root_run_of_below wf.toGrounded eqn.below.2)]
      cases shape : t.root b with
      | var w => exact solve_succeeds_right wf eqn shape
      | named | wildcard =>
          rw [shape] at rightEqn
          exact absurd rightEqn.plain.2 (by simp [OpenTy.isPlain])
      | atomic =>
          rw [shape] at rightEqn
          exact absurd rightEqn.equal (by simp)
      | procedure params' result' =>
          rw [shape] at rightEqn
          have equal := rightEqn.equal
          rw [OpenTy.subst_procedure, OpenTy.subst_procedure] at equal
          have length : params.length = params'.length := by
            simpa using congrArg List.length (OpenTy.procedure.inj equal).1
          dsimp only
          rw [if_pos length]
          refine procedureParts_succeeds wf rightEqn ?_ ?_
          · intro a member b' t' binds eqn'
            have wf' := binds.wellFormed wf
            exact ihParams a member b' t' wf' (binds.size.trans sized) eqn'
              (fun w occurs => low w (OpenTy.mem_vars_procedure.mpr (.inl ⟨a, member, occurs⟩)))
              (eqn'.rootRight wf')
          · intro b' t' binds eqn'
            have wf' := binds.wellFormed wf
            exact ihResult b' t' wf' (binds.size.trans sized) eqn'
              (fun w occurs => low w (OpenTy.mem_vars_procedure.mpr (.inr occurs)))
              (eqn'.rootRight wf')

/-- Unification with one level more than all ranks succeeds, by induction on the levels. -/
theorem typesTo_succeeds {σ : Nat → OpenTy} {size : Nat} (levels : Nat) (a b : OpenTy) (t : Table)
    (wf : t.WellFormed) (sized : t.size = size) (eqn : Equation σ t a b)
    (low : ∀ w ∈ a.vars, rank σ size w < levels)
    : Succeeds σ t (typesTo (levels + 1) a b t) := by
  induction levels generalizing a b t with
  | zero =>
      refine typesWith_succeeds ?_ a b t wf sized eqn low
      intro _ _ _ _ _ _ impossible
      omega
  | succ levels ih =>
      refine typesWith_succeeds ?_ a b t wf sized eqn low
      intro a b t wf sized eqn _ lower
      exact ih a b t wf sized eqn fun w occurs => by
        have := lower w occurs
        omega

/-- The unifier succeeds on every equation with a solution: the size of the table bounds all
ranks.
-/
theorem types_succeeds {σ : Nat → OpenTy} {a b : OpenTy} {t : Table} (wf : t.WellFormed)
    (eqn : Equation σ t a b)
    : Succeeds σ t (types a b t) :=
  typesTo_succeeds t.size a b t wf rfl eqn fun w occurs => rank_lt_size (eqn.below.1 w occurs)

/-- Lists are unified where the solution makes each pair equal. -/
theorem allTypes_succeeds {σ : Nat → OpenTy} {as bs : List OpenTy} {t : Table} (wf : t.WellFormed)
    (solved : t.SolvedBy σ) (length : as.length = bs.length)
    (eqns : ∀ pair ∈ as.zip bs, Equation σ t pair.1 pair.2)
    : Succeeds σ t (allTypes as bs t) := by
  have each pair (member : pair ∈ as.zip bs) t' (later : t.Binds t') (solved' : t'.SolvedBy σ)
      : Succeeds σ t' (typesWith (typesTo t.size) pair.1 pair.2 t') := by
    have eqn := eqns pair member
    exact typesTo_succeeds t.size pair.1 pair.2 t' (later.wellFormed wf) later.size
      (eqn.of_binds later solved') fun w occurs => rank_lt_size (eqn.below.1 w occurs)
  obtain ⟨t', run, binds, solved'⟩ := pairsWith_succeeds wf solved each
  refine ⟨t', ?_, binds, solved'⟩
  rw [allTypes_run length, run_bind_ok run]
  rfl

end Unify

end TypedScheme
