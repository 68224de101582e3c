import TypedScheme.Proofs.Unification.Termination

/-! What the occurs check finds.
From a type one comes to a variable by going down procedure types and by following bindings. Main
statement: where no name and no wildcard is met on the way, the occurs check fails exactly if the
variable can be reached, and it never fails for another reason.
-/

namespace TypedScheme

namespace Table

variable {t : Table}

-----------------------------------------------------------------------------------------
-- Variables that are reached from a type
-----------------------------------------------------------------------------------------

/-- From the type one comes to `v` by going down procedure types and following bindings. -/
def ReachesFrom (t : Table) (ty : OpenTy) (v : Nat) : Prop := ∃ w ∈ ty.vars, t.Reaches w v

/-- The type holds no name and no wildcard, and no binding that is reached from it does. -/
structure PlainFrom (t : Table) (ty : OpenTy) : Prop where
  plain : ty.isPlain = true
  behind : ∀ w bound, t.ReachesFrom ty w → t.binding? w = some bound → bound.isPlain = true

/-- A variable is reached from itself. -/
theorem reachesFrom_self (v : Nat) : t.ReachesFrom (.var v) v := ⟨v, by simp, .refl⟩

/-- No variable is reached from an atomic type. -/
theorem not_reachesFrom_atomic (a : Atomic) (v : Nat) : ¬ t.ReachesFrom (.atomic a) v := by
  simp [ReachesFrom]

/-- No other variable is reached from an unbound one. -/
theorem not_reachesFrom_unbound {v w : Nat} (other : w ≠ v) (unbound : t.binding? w = none)
    : ¬ t.ReachesFrom (.var w) v := by
  rintro ⟨x, member, path⟩
  cases List.mem_singleton.mp (OpenTy.vars_var w ▸ member)
  rcases path.cases_head with same | ⟨_, ⟨_, bound, _⟩, _⟩
  · exact other same
  · simp [unbound] at bound

/-- What is reached from the binding of a variable is reached from the variable. -/
theorem reachesFrom_of_bound {v w : Nat} {ty : OpenTy} (bound : t.binding? w = some ty)
    (reached : t.ReachesFrom ty v)
    : t.ReachesFrom (.var w) v := by
  obtain ⟨x, member, path⟩ := reached
  exact ⟨w, by simp, .head ⟨ty, bound, member⟩ path⟩

/-- The way to another variable leads through the binding. -/
theorem reachesFrom_bound_iff {v w : Nat} {ty : OpenTy} (other : w ≠ v)
    (bound : t.binding? w = some ty)
    : t.ReachesFrom (.var w) v ↔ t.ReachesFrom ty v := by
  refine ⟨?_, reachesFrom_of_bound bound⟩
  rintro ⟨x, member, path⟩
  cases List.mem_singleton.mp (OpenTy.vars_var w ▸ member)
  rcases path.cases_head with same | ⟨next, ⟨ty', bound', occurs⟩, rest⟩
  · exact absurd same other
  · cases bound.symm.trans bound'
    exact ⟨next, occurs, rest⟩

/-- A variable is reached from a procedure type exactly if it is from one of its parts. -/
theorem reachesFrom_procedure {params : List OpenTy} {result : OpenTy} {v : Nat}
    : t.ReachesFrom (.procedure params result) v
      ↔ (∃ param ∈ params, t.ReachesFrom param v) ∨ t.ReachesFrom result v := by
  constructor
  · rintro ⟨w, occurs, path⟩
    rcases OpenTy.mem_vars_procedure.mp occurs with ⟨param, member, inParam⟩ | inResult
    · exact .inl ⟨param, member, w, inParam, path⟩
    · exact .inr ⟨w, inResult, path⟩
  · rintro (⟨param, member, w, inParam, path⟩ | ⟨w, inResult, path⟩)
    · exact ⟨w, OpenTy.mem_vars_procedure.mpr (.inl ⟨param, member, inParam⟩), path⟩
    · exact ⟨w, OpenTy.mem_vars_procedure.mpr (.inr inResult), path⟩

/-- The binding of a variable leads to plain types only if the variable does. -/
theorem PlainFrom.bound {w : Nat} {ty : OpenTy} (plain : t.PlainFrom (.var w))
    (bound : t.binding? w = some ty)
    : t.PlainFrom ty :=
  ⟨plain.behind w ty (reachesFrom_self w) bound,
    fun x _ reached => plain.behind x _ (reachesFrom_of_bound bound reached)⟩

/-- So do the parameters of a procedure type. -/
theorem PlainFrom.param {params : List OpenTy} {result : OpenTy}
    (plain : t.PlainFrom (.procedure params result)) {param : OpenTy} (member : param ∈ params)
    : t.PlainFrom param :=
  ⟨(OpenTy.isPlain_procedure.mp plain.plain).1 param member,
    fun w _ reached =>
      plain.behind w _ (reachesFrom_procedure.mpr (.inl ⟨param, member, reached⟩))⟩

/-- So does its result. -/
theorem PlainFrom.result {params : List OpenTy} {result : OpenTy}
    (plain : t.PlainFrom (.procedure params result))
    : t.PlainFrom result :=
  ⟨(OpenTy.isPlain_procedure.mp plain.plain).2,
    fun w _ reached => plain.behind w _ (reachesFrom_procedure.mpr (.inr reached))⟩

-----------------------------------------------------------------------------------------
-- The outcome of an occurs check
-----------------------------------------------------------------------------------------

/-- The outcome of the check of `v` in `whole` tells whether the variable is reached. -/
def TellsReached (v : Nat) (whole : OpenTy) (reached : Prop) : Except UnifyError Unit → Prop
  | .ok () => ¬ reached
  | .error e => e = .occurs v whole ∧ reached

/-- Equivalent conditions are told alike. -/
theorem TellsReached.congr {v : Nat} {whole : OpenTy} {p q : Prop}
    {outcome : Except UnifyError Unit} (tells : TellsReached v whole p outcome) (same : p ↔ q)
    : TellsReached v whole q outcome :=
  propext same ▸ tells

/-- Where a check tells what is reached, it is refused exactly then and passed exactly otherwise. -/
theorem TellsReached.refused_iff {v : Nat} {whole : OpenTy} {reached : Prop}
    {outcome : Except UnifyError Unit} (tells : TellsReached v whole reached outcome)
    : (outcome = .error (.occurs v whole) ↔ reached) ∧ (outcome = .ok () ↔ ¬ reached) := by
  cases outcome with
  | ok passed =>
      have unreached : ¬ reached := tells
      simp [unreached]
  | error e =>
      obtain ⟨rfl, here⟩ := tells
      simp [here]

mutual
/-- A check goes down the type and follows bindings until it meets the variable, by induction on the
rules of the check.
-/
theorem CheckEnds.tellsReached {v : Nat} {whole ty : OpenTy} {outcome : Except UnifyError Unit}
    (plain : t.PlainFrom ty)
    : t.CheckEnds v whole ty outcome → TellsReached v whole (t.ReachesFrom ty v) outcome
  | .self => ⟨rfl, reachesFrom_self v⟩
  | .unbound other _ unbound => not_reachesFrom_unbound other unbound
  | .bound other bound check =>
      (check.tellsReached (plain.bound bound)).congr (reachesFrom_bound_iff other bound).symm
  | .atomic a => not_reachesFrom_atomic a v
  | .named _ | .wildcard => by
      have plain := plain.plain
      simp [OpenTy.isPlain] at plain
  | .procedure inParams inResult => by
      have unreached := inParams.tellsReached fun _ => plain.param
      refine (inResult.tellsReached plain.result).congr ?_
      rw [reachesFrom_procedure]
      exact (or_iff_right unreached).symm
  | .parameter inParams => by
      obtain ⟨same, reached⟩ := inParams.tellsReached fun _ => plain.param
      exact ⟨same, reachesFrom_procedure.mpr (.inl reached)⟩

/-- The checks of several types tell whether the variable is reached from one of them. -/
theorem ChecksEnd.tellsReached {v : Nat} {whole : OpenTy} {tys : List OpenTy}
    {outcome : Except UnifyError Unit} (plain : ∀ ty ∈ tys, t.PlainFrom ty)
    : t.ChecksEnd v whole tys outcome
      → TellsReached v whole (∃ ty ∈ tys, t.ReachesFrom ty v) outcome
  | .nil => by
      show ¬ _
      simp
  | .passed first rest => by
      have unreached : ¬ _ := first.tellsReached (plain _ (.head _))
      refine (rest.tellsReached fun ty member => plain ty (.tail _ member)).congr ?_
      simp [unreached]
  | .refused first => by
      obtain ⟨same, reached⟩ := first.tellsReached (plain _ (.head _))
      exact ⟨same, _, .head _, reached⟩
end

/-- The occurs check is exact. In a table without cycles, and where neither the type nor a binding
behind it holds a name or a wildcard, the check of a variable in a type of the table fails exactly
if the variable is reached from the type, with an error that shows the two, and it passes otherwise.
-/
theorem occursCheck_exact (grounded : t.Grounded) {v : Nat} {ty : OpenTy} (below : ty.Below t.size)
    (plain : t.PlainFrom ty)
    : (t.occursCheck v ty = .error (.occurs v ty) ↔ t.ReachesFrom ty v)
      ∧ (t.occursCheck v ty = .ok () ↔ ¬ t.ReachesFrom ty v) :=
  ((grounded.occursCheck_ends v below).tellsReached plain).refused_iff

/-- Five unbound variables. -/
def fiveVariables : Table :=
  (((((empty.allocate none).2.allocate none).2.allocate none).2.allocate none).2.allocate none).2

/-- The first variable is bound to the second, the second to a procedure type over the third, and
the fourth to a wildcard.
-/
def linked : Table :=
  ((fiveVariables.bind 1 (.procedure [.atomic .number] (.var 2))).bind 0 (.var 1)).bind 3 .wildcard

/-- The example's bindings lead from variable to variable without a cycle. -/
theorem linked_grounded : linked.Grounded := by
  have start : fiveVariables.Grounded :=
    (((((empty_wellFormed.allocate none).allocate none).allocate none).allocate none).allocate
      none).toGrounded
  let bound := fiveVariables.bind 1 (.procedure [.atomic .number] (.var 2))
  have first : fiveVariables.BindStep bound := .bind (by decide) rfl rfl
  have second : bound.BindStep (bound.bind 0 (.var 1)) := .bind (by decide) rfl rfl
  have nothing : OpenTy.wildcard.vars = [] := by simp only [OpenTy.vars]
  refine (second.grounded (first.grounded start)).bind (by decide) ?_ ?_
  · simp [OpenTy.Below, nothing]
  · simp [nothing]

/-- Two bindings lead from the last part of the type to the third variable. The fourth one, although
it is bound to a wildcard, is not on the way.
-/
theorem occursCheck_exact_linked
    : linked.PlainFrom (.procedure [.var 4] (.var 0))
      ∧ linked.ReachesFrom (.procedure [.var 4] (.var 0)) 2
      ∧ linked.occursCheck 2 (.procedure [.var 4] (.var 0))
        = .error (.occurs 2 (.procedure [.var 4] (.var 0)))
      ∧ ¬ linked.ReachesFrom (.procedure [.var 4] (.var 0)) 3
      ∧ linked.occursCheck 3 (.procedure [.var 4] (.var 0)) = .ok () := by
  have fromSecond v (other : 1 ≠ v)
      : linked.ReachesFrom (.var 1) v ↔ linked.ReachesFrom (.var 2) v := by
    rw [reachesFrom_bound_iff other rfl, reachesFrom_procedure]
    simp [not_reachesFrom_atomic]
  have reached : linked.ReachesFrom (.procedure [.var 4] (.var 0)) 2 := by
    rw [reachesFrom_procedure, reachesFrom_bound_iff (w := 0) (by decide) rfl,
      fromSecond 2 (by decide)]
    exact .inr (reachesFrom_self 2)
  have unreached : ¬ linked.ReachesFrom (.procedure [.var 4] (.var 0)) 3 := by
    rw [reachesFrom_procedure, reachesFrom_bound_iff (w := 0) (by decide) rfl,
      fromSecond 3 (by decide)]
    simp [not_reachesFrom_unbound (t := linked) (v := 3) (w := 4) (by decide) rfl,
      not_reachesFrom_unbound (t := linked) (v := 3) (w := 2) (by decide) rfl]
  have plain : linked.PlainFrom (.procedure [.var 4] (.var 0)) := by
    refine ⟨rfl, ?_⟩
    intro w bound reached here
    have inside : w < 5 := lt_size_of_binding? here
    obtain rfl | rfl | rfl | rfl | rfl : w = 0 ∨ w = 1 ∨ w = 2 ∨ w = 3 ∨ w = 4 := by omega
    · cases here
      rfl
    · cases here
      rfl
    · cases here
    · exact absurd reached unreached
    · cases here
  have below : (OpenTy.procedure [.var 4] (.var 0)).Below linked.size := by
    simp [OpenTy.below_procedure, linked, fiveVariables]
  exact ⟨plain, reached, (occursCheck_exact linked_grounded below plain).1.mpr reached, unreached,
    (occursCheck_exact linked_grounded below plain).2.mpr unreached⟩

end Table

end TypedScheme
