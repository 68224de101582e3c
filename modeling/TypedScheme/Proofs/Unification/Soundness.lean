import TypedScheme.Proofs.Computation
import TypedScheme.Proofs.Unification.BindingSteps

/-! Unification only takes binding steps, and after a success every solution of the table makes the
two types equal. The pairs of a procedure type are unified one after the other; what one pair has
made equal stays equal, because a solution of a later table solves the earlier ones.
-/

namespace TypedScheme

namespace Unify

/-- A unification of `a` and `b` only binds variables, and if it succeeds, the solutions of the new
table make the two types equal.
-/
def Unifies (t : Table) (a b : OpenTy) : EStateM.Result UnifyError Table Unit → Prop
  | .ok _ t' => t.Binds t' ∧ ∀ σ, t'.SolvedBy σ → a.subst σ = b.subst σ
  | .error _ t' => t.Binds t'

/-- A pass over pairs of types only binds variables, and if it collects no error, the solutions of
the new table make each pair equal.
-/
structure Collects (t : Table) (pairs : List (OpenTy × OpenTy)) (errors : List UnifyError)
    (t' : Table)
    : Prop where
  binds : t.Binds t'
  equal : errors = [] → ∀ σ, t'.SolvedBy σ → ∀ pair ∈ pairs, pair.1.subst σ = pair.2.subst σ

/-- A computation that collects the errors of pairs; it stops only at a fatal error. -/
def CollectsFrom (t : Table) (pairs : List (OpenTy × OpenTy))
    : EStateM.Result UnifyError Table (List UnifyError) → Prop
  | .ok errors t' => Collects t pairs errors t'
  | .error _ t' => t.Binds t'

/-- A unification only binds. -/
theorem Unifies.binds {t : Table} {a b : OpenTy} {r : EStateM.Result UnifyError Table Unit}
    (unifies : Unifies t a b r)
    : t.Binds (finalState r) := by
  cases r with
  | ok _ t' => exact unifies.1
  | error e t' => exact unifies

/-- Types that all solutions of the table make equal may replace each other. -/
theorem Unifies.congr {t : Table} {a a' b b' : OpenTy}
    {r : EStateM.Result UnifyError Table Unit}
    (sameLeft : ∀ σ, t.SolvedBy σ → a'.subst σ = a.subst σ)
    (sameRight : ∀ σ, t.SolvedBy σ → b'.subst σ = b.subst σ)
    (unifies : Unifies t a b r)
    : Unifies t a' b' r := by
  cases r with
  | error e t' => exact unifies
  | ok _ t' =>
      obtain ⟨binds, equal⟩ := unifies
      refine ⟨binds, ?_⟩
      intro σ solved
      have earlier := solved.of_extends binds.extends
      rw [sameLeft σ earlier, sameRight σ earlier, equal σ solved]

/-- A unification can be read from either side. -/
theorem Unifies.symm {t : Table} {a b : OpenTy} {r : EStateM.Result UnifyError Table Unit}
    (unifies : Unifies t a b r)
    : Unifies t b a r := by
  cases r with
  | error e t' => exact unifies
  | ok _ t' => exact ⟨unifies.1, fun σ solved => (unifies.2 σ solved).symm⟩

/-- Two passes in a row are a pass over all pairs. -/
theorem Collects.append {t middle t' : Table} {pairs morePairs : List (OpenTy × OpenTy)}
    {errors moreErrors : List UnifyError}
    (first : Collects t pairs errors middle) (second : Collects middle morePairs moreErrors t')
    : Collects t (pairs ++ morePairs) (errors ++ moreErrors) t' := by
  refine ⟨first.binds.trans second.binds, ?_⟩
  intro none σ solved pair member
  obtain ⟨noFirst, noSecond⟩ := List.append_eq_nil_iff.mp none
  rcases List.mem_append.mp member with early | late
  · exact first.equal noFirst σ (solved.of_extends second.binds.extends) pair early
  · exact second.equal noSecond σ solved pair late

-----------------------------------------------------------------------------------------
-- Roots and single bindings
-----------------------------------------------------------------------------------------

/-- Taking a root changes nothing, and fails only at an unallocated variable. -/
theorem root_run (ty : OpenTy) (t : Table)
    : root ty t = .ok (t.root ty) t ∧ (∀ v, t.root ty = .var v → v < t.size)
      ∨ ∃ v, t.root ty = .var v ∧ ¬ v < t.size ∧ root ty t = .error (.unallocated v) t := by
  rw [root]
  cases shape : t.root ty with
  | var v =>
      by_cases inside : v < t.size
      · left
        constructor
        · exact if_pos inside
        · intro w same
          cases same
          exact inside
      · exact .inr ⟨v, rfl, inside, if_neg inside⟩
  | atomic | named | wildcard | procedure => exact .inl ⟨rfl, by simp⟩

/-- The root of a type over the variables of the table is found. -/
theorem root_run_of_below {ty : OpenTy} {t : Table} (grounded : t.Grounded)
    (below : ty.Below t.size)
    : root ty t = .ok (t.root ty) t := by
  rcases root_run ty t with ⟨run, _⟩ | ⟨v, shape, outside, _⟩
  · exact run
  · exact absurd (grounded.rooted_root_of_below below v shape).1 outside

/-- A variable that is the root of its target is left as it is. -/
theorem solve_run_self {v : Nat} {target : OpenTy} {t : Table}
    (run : root target t = .ok (t.root target) t) (self : t.root target = .var v)
    : solve v target t = .ok () t :=
  (run_bind_ok run).trans (congrFun (if_pos self) t)

/-- Any other unbound variable is bound to the root of its target if the occurs check passes. -/
theorem solve_run_other {v : Nat} {target : OpenTy} {t : Table}
    (run : root target t = .ok (t.root target) t) (other : t.root target ≠ .var v)
    (inside : v < t.size) (unbound : t.binding? v = none)
    : solve v target t
      = match t.occursCheck v (t.root target) with
        | .error e => .error e t
        | .ok () => .ok () (t.bind v (t.root target)) := by
  refine (run_bind_ok run).trans ((congrFun (if_neg other) t).trans ?_)
  cases t.occursCheck v (t.root target) with
  | error e => rfl
  | ok _ => exact if_pos (Table.canBind_of_unbound inside unbound)

/-- Solving an unbound variable binds it to the root of the target or fails. -/
theorem solve_unifies {t : Table} {v : Nat} (inside : v < t.size)
    (unbound : t.binding? v = none) (target : OpenTy)
    : Unifies t (.var v) target (solve v target t) := by
  rcases root_run target t with ⟨run, _⟩ | ⟨w, _, _, run⟩
  · by_cases self : t.root target = .var v
    · rw [solve_run_self run self]
      refine ⟨.refl, ?_⟩
      intro σ solved
      rw [← solved.subst_root target, self]
    · rw [solve_run_other run self inside unbound]
      cases passed : t.occursCheck v (t.root target) with
      | error e => exact .refl
      | ok _ =>
          have step : Table.BindStep t (t.bind v (t.root target)) :=
            .bind inside unbound passed
          refine ⟨.single step, ?_⟩
          intro σ solved
          have earlier : t.SolvedBy σ :=
            solved.of_extends (Table.Binds.extends (.single step))
          have bound : (t.bind v (t.root target)).binding? v = some (t.root target) := by
            rw [Table.binding?_bind inside, if_pos rfl]
          rw [OpenTy.subst_var, solved v _ bound, earlier.subst_root]
  · rw [solve, run_bind_error run]
    exact .refl

/-- Where the second type is an unbound variable, it is solved for the first one. -/
theorem solve_unifies_right {t : Table} (grounded : t.Grounded) {a b : OpenTy} {w : Nat}
    (held : ∀ v, t.root b = .var v → v < t.size) (shape : t.root b = .var w)
    : Unifies t a b (solve w a t) := by
  obtain ⟨inside, unbound⟩ := grounded.rooted_root held w shape
  refine (solve_unifies inside unbound a).symm.congr (fun _ _ => rfl) ?_
  intro σ solved
  rw [← solved.subst_root b, shape]

-----------------------------------------------------------------------------------------
-- Pairs
-----------------------------------------------------------------------------------------

/-- To collect the errors of a unification is to collect from its one pair. -/
theorem failures_collects {t : Table} {a b : OpenTy} {x : Unify Unit}
    (unifies : Unifies t a b (x t))
    : CollectsFrom t [(a, b)] (failures x t) := by
  rw [failures]
  cases run : x t with
  | ok _ t' =>
      rw [run] at unifies
      refine ⟨unifies.1, ?_⟩
      intro _ σ solved pair member
      rw [List.mem_singleton.mp member]
      exact unifies.2 σ solved
  | error e t' =>
      rw [run] at unifies
      dsimp only
      split
      · exact unifies
      · exact ⟨unifies, fun none => nomatch none⟩

/-- Each pair may use the table that the earlier pairs left, by induction on the first list. -/
theorem pairsWith_collects {through : OpenTy → OpenTy → Unify Unit} (as bs : List OpenTy)
    (each : ∀ a ∈ as, ∀ b t, t.Grounded → Unifies t a b (typesWith through a b t))
    (t : Table) (grounded : t.Grounded)
    : CollectsFrom t (as.zip bs) (pairsWith through as bs t) := by
  induction as generalizing bs t with
  | nil =>
      rw [pairsWith]
      · exact ⟨.refl, fun _ _ _ _ member => nomatch member⟩
      · intro _ _ _ _ same
        cases same
  | cons a as ih =>
      cases bs with
      | nil =>
          rw [pairsWith]
          · exact ⟨.refl, fun _ _ _ _ member => nomatch member⟩
          · intro _ _ _ _ _ same
            cases same
      | cons b bs =>
          rw [pairsWith, List.zip_cons_cons]
          have head := failures_collects (each a (by simp) b t grounded)
          cases run : failures (typesWith through a b) t with
          | error e middle =>
              rw [run] at head
              rw [run_bind_error run]
              exact head
          | ok error middle =>
              rw [run] at head
              rw [run_bind_ok run]
              have grounded' := head.binds.grounded grounded
              have tail := ih bs (fun a member => each a (by simp [member])) middle grounded'
              cases rest : pairsWith through as bs middle with
              | error e t' =>
                  rw [rest] at tail
                  rw [run_bind_error rest]
                  exact head.binds.trans tail
              | ok errors t' =>
                  rw [rest] at tail
                  rw [run_bind_ok rest]
                  exact head.append tail

/-- Lists of one length whose pairs are made equal are made equal. -/
theorem map_subst_eq_of_zip {σ : Nat → OpenTy} {as bs : List OpenTy}
    (length : as.length = bs.length)
    (equal : ∀ pair ∈ as.zip bs, pair.1.subst σ = pair.2.subst σ)
    : as.map (OpenTy.subst σ) = bs.map (OpenTy.subst σ) := by
  induction as generalizing bs with
  | nil =>
      cases bs with
      | nil => rfl
      | cons => simp at length
  | cons a as ih =>
      cases bs with
      | nil => simp at length
      | cons b bs =>
          have tail := ih (by simpa using length) fun pair member => equal pair (by simp [member])
          rw [List.map_cons, List.map_cons, equal (a, b) (by simp), tail]

-----------------------------------------------------------------------------------------
-- Types
-----------------------------------------------------------------------------------------

/-- Two procedure types of one arity are unified part by part, the result last. -/
theorem procedureParts_unifies {through : OpenTy → OpenTy → Unify Unit}
    {params params' : List OpenTy} {result result' : OpenTy}
    (length : params.length = params'.length)
    (eachParam : ∀ a ∈ params, ∀ b t, t.Grounded → Unifies t a b (typesWith through a b t))
    (eachResult : ∀ b t, t.Grounded → Unifies t result b (typesWith through result b t))
    (t : Table) (grounded : t.Grounded)
    : Unifies t (.procedure params result) (.procedure params' result')
        ((do
          let errors ← pairsWith through params params'
          let error ← failures (typesWith through result result')
          report (errors ++ error) : Unify Unit) t) := by
  have inParams := pairsWith_collects params params' eachParam t grounded
  cases run : pairsWith through params params' t with
  | error e middle =>
      rw [run] at inParams
      rw [run_bind_error run]
      exact inParams
  | ok errors middle =>
      rw [run] at inParams
      rw [run_bind_ok run]
      have grounded' := inParams.binds.grounded grounded
      have inResult := failures_collects (eachResult result' middle grounded')
      cases last : failures (typesWith through result result') middle with
      | error e t' =>
          rw [last] at inResult
          rw [run_bind_error last]
          exact inParams.binds.trans inResult
      | ok error t' =>
          rw [last] at inResult
          rw [run_bind_ok last]
          have all := inParams.append inResult
          cases none : errors ++ error with
          | cons e es => exact all.binds
          | nil =>
              refine ⟨all.binds, ?_⟩
              intro σ solved
              have equal := all.equal none σ solved
              have params := map_subst_eq_of_zip length
                fun pair member => equal pair (by simp [member])
              have result := equal (result, result') (by simp)
              rw [OpenTy.subst_procedure, OpenTy.subst_procedure, params, result]

/-- Where the first type is no variable, the root of the second one decides: a variable is solved for
the first type, and any other root is unified with it.
-/
theorem onRoot_unifies {t : Table} (grounded : t.Grounded) {a b : OpenTy} {next : OpenTy → Unify Unit}
    (onVar : ∀ w, next (.var w) = solve w a)
    (onOther : ∀ b', (∀ w, b' ≠ .var w) → Unifies t a b' (next b' t))
    : Unifies t a b ((root b >>= next) t) := by
  rcases root_run b t with ⟨run, held⟩ | ⟨w, _, _, run⟩
  · rw [run_bind_ok run]
    cases shape : t.root b with
    | var w =>
        rw [onVar]
        exact solve_unifies_right grounded held shape
    | atomic | named | wildcard | procedure =>
        refine (onOther _ (by simp)).congr (fun _ _ => rfl) ?_
        intro σ solved
        rw [← solved.subst_root b, shape]
  · rw [run_bind_error run]
    exact .refl

/-- One level of unification is sound if what it does at the binding of a variable is, by induction
over the parts of the first type.
-/
theorem typesWith_unifies {through : OpenTy → OpenTy → Unify Unit}
    (sound : ∀ a b t, t.Grounded → Unifies t a b (through a b t))
    (a b : OpenTy) (t : Table) (grounded : t.Grounded)
    : Unifies t a b (typesWith through a b t) := by
  induction a using OpenTy.partsInduction generalizing b t with
  | var v =>
      rw [typesWith]
      rcases root_run (.var v) t with ⟨run, held⟩ | ⟨w, _, _, run⟩
      · rw [run_bind_ok run]
        have same σ (solved : t.SolvedBy σ) := (solved.subst_root (.var v)).symm
        cases shape : t.root (.var v) with
        | var w =>
            obtain ⟨inside, unbound⟩ := grounded.rooted_root held w shape
            rw [shape] at same
            exact (solve_unifies inside unbound b).congr same (fun _ _ => rfl)
        | atomic | named | wildcard | procedure =>
            rw [shape] at same
            exact (sound _ b t grounded).congr same (fun _ _ => rfl)
      · rw [run_bind_error run]
        exact .refl
  | atomic a =>
      rw [typesWith]
      refine onRoot_unifies grounded (fun _ => rfl) ?_
      intro b' notVar
      cases b' with
      | var w => exact absurd rfl (notVar w)
      | atomic | named | wildcard | procedure =>
          dsimp only
          split
          · next same => exact ⟨.refl, fun σ _ => by rw [same]⟩
          · exact .refl
  | named | wildcard =>
      rw [typesWith]
      refine onRoot_unifies grounded (fun _ => rfl) ?_
      intro b' notVar
      cases b' with
      | var w => exact absurd rfl (notVar w)
      | atomic | named | wildcard | procedure => exact .refl
  | procedure params result ihParams ihResult =>
      rw [typesWith]
      refine onRoot_unifies grounded (fun _ => rfl) ?_
      intro b' notVar
      cases b' with
      | var w => exact absurd rfl (notVar w)
      | atomic | named | wildcard => exact .refl
      | procedure params' result' =>
          dsimp only
          split
          · next length => exact procedureParts_unifies length ihParams ihResult t grounded
          · exact .refl

/-- Unification to any number of levels is sound, by induction on the levels. -/
theorem typesTo_unifies (depth : Nat) (a b : OpenTy) (t : Table) (grounded : t.Grounded)
    : Unifies t a b (typesTo depth a b t) := by
  induction depth generalizing a b t with
  | zero => exact .refl
  | succ depth ih => exact typesWith_unifies ih a b t grounded

/-- Two types are unified, to the depth that the size of the table allows. -/
theorem types_unifies (a b : OpenTy) (t : Table) (grounded : t.Grounded)
    : Unifies t a b (types a b t) :=
  typesTo_unifies (t.size + 1) a b t grounded

/-- Types that are equally many are unified pair by pair, and their errors are reported together. -/
theorem allTypes_run {as bs : List OpenTy} (length : as.length = bs.length) (t : Table)
    : allTypes as bs t
      = (do
          let errors ← pairsWith (typesTo t.size) as bs
          report errors : Unify Unit) t :=
  congrFun (if_pos length) t

/-- Types that are not equally many are refused at once. -/
theorem allTypes_run_lengths {as bs : List OpenTy} (lengths : as.length ≠ bs.length) (t : Table)
    : allTypes as bs t = .error (.arity as.length bs.length none) t :=
  congrFun (if_neg lengths) t

/-- Unifying two lists only binds variables; a success has found lists of one length and made each
pair equal.
-/
def UnifiesAll (t : Table) (as bs : List OpenTy) : EStateM.Result UnifyError Table Unit → Prop
  | .ok _ t' =>
      t.Binds t'
      ∧ as.length = bs.length
      ∧ ∀ σ, t'.SolvedBy σ → ∀ pair ∈ as.zip bs, pair.1.subst σ = pair.2.subst σ
  | .error _ t' => t.Binds t'

/-- A unification of several types only binds. -/
theorem UnifiesAll.binds {t : Table} {as bs : List OpenTy}
    {r : EStateM.Result UnifyError Table Unit} (unifies : UnifiesAll t as bs r)
    : t.Binds (finalState r) := by
  cases r with
  | ok _ t' => exact unifies.1
  | error e t' => exact unifies

/-- Several types are unified, whether they are equally many or not. -/
theorem allTypes_unifiesAll (as bs : List OpenTy) (t : Table) (grounded : t.Grounded)
    : UnifiesAll t as bs (allTypes as bs t) := by
  by_cases length : as.length = bs.length
  · rw [allTypes_run length]
    have collects := pairsWith_collects as bs
      (fun a _ b now grounded => typesWith_unifies (typesTo_unifies t.size) a b now grounded) t grounded
    cases run : pairsWith (typesTo t.size) as bs t with
    | error e t' =>
        rw [run] at collects
        rw [run_bind_error run]
        exact collects
    | ok errors t' =>
        rw [run] at collects
        rw [run_bind_ok run]
        cases errors with
        | nil => exact ⟨collects.binds, length, collects.equal rfl⟩
        | cons e es => exact collects.binds
  · rw [allTypes_run_lengths length]
    exact .refl

/-- An assignment only binds. -/
theorem assign_binds (v : Nat) (target : OpenTy) (t : Table) (grounded : t.Grounded)
    : t.Binds (finalState (assign v target t)) := by
  rw [assign]
  cases found : t.slots[v]? with
  | none => exact .refl
  | some slot =>
      dsimp only
      cases stored : slot.binding with
      | some ty => exact (types_unifies ty target t grounded).binds
      | none =>
          have inside : v < t.size := (Array.getElem?_eq_some_iff.mp found).1
          have unbound : t.binding? v = none := by simp [Table.binding?, found, stored]
          exact (solve_unifies inside unbound target).binds

end Unify

end TypedScheme
