import TypedScheme.Proofs.Inference.Session
import TypedScheme.Proofs.Unification.Errors

/-! Every recursion of the unifier ends in a grounded table, with the result that the bounded one
computes.
Roots, occurs checks and conversions go down the graph of bindings, so that heights bound them.
Unification changes the table under way. The variables through which it has come to a type form a
set that grows with every binding followed, because none of them can be reached from the type.
-/

namespace TypedScheme

namespace Table

-----------------------------------------------------------------------------------------
-- Roots
-----------------------------------------------------------------------------------------

/-- Following more steps than a variable is high leads to the end of its chain, by induction on the
steps.
-/
theorem Grounded.follow_ends {t : Table} (grounded : t.Grounded) {steps v : Nat}
    (inside : v < t.size) (enough : t.height v < steps)
    : t.ChainEnds v (t.follow steps v) := by
  induction steps generalizing v with
  | zero => omega
  | succ steps ih =>
      rw [follow]
      split
      · next unbound => exact .unbound inside unbound
      · next w bound =>
          have edge : t.Edge v w := ⟨_, bound, by simp⟩
          have lower := grounded.height_lt edge
          exact .link bound (ih (grounded.allocated bound w (by simp)) (by omega))
      · next ty notVar bound => exact .type bound notVar

/-- The variables of the type at the end of a chain lie below its start. -/
theorem ChainEnds.transGen {t : Table} {v : Nat} {ty : OpenTy} (chain : t.ChainEnds v ty)
    (notVar : ∀ w, ty ≠ .var w) {w : Nat} (occurs : w ∈ ty.vars)
    : Relation.TransGen t.Edge v w := by
  induction chain with
  | unbound => exact absurd rfl (notVar _)
  | link bound _ ih => exact .head ⟨_, bound, by simp⟩ (ih notVar occurs)
  | type bound => exact .single ⟨_, bound, occurs⟩

/-- The root of a variable is the end of its chain. -/
theorem Grounded.chain_ends {t : Table} (grounded : t.Grounded) {v : Nat} (inside : v < t.size)
    : t.ChainEnds v (t.root (.var v)) :=
  grounded.follow_ends inside (grounded.height_lt_size inside)

/-- The root of a type is where the way to it ends. -/
theorem Grounded.root_ends {t : Table} (grounded : t.Grounded) {ty : OpenTy}
    (below : ty.Below t.size)
    : t.RootEnds ty (t.root ty) := by
  cases ty with
  | var v => exact .var (grounded.chain_ends (by simpa using below))
  | atomic | named | wildcard | procedure => exact .other (by simp)

/-- A root is its own root. -/
theorem Rooted.root_eq {t : Table} {ty : OpenTy} (rooted : t.Rooted ty) : t.root ty = ty := by
  cases ty with
  | var v =>
      obtain ⟨_, unbound⟩ := rooted v rfl
      exact root_of_unbound unbound
  | atomic | named | wildcard | procedure => rfl

-----------------------------------------------------------------------------------------
-- Occurs checks
-----------------------------------------------------------------------------------------

/-- The checks of several types end if each of them does, by induction on the types. -/
theorem checksEnd_of_each {t : Table} {v : Nat} {whole : OpenTy}
    {onVar : Nat → Except UnifyError Unit} {tys : List OpenTy}
    (each : ∀ ty ∈ tys, t.CheckEnds v whole ty (ty.check onVar))
    : t.ChecksEnd v whole tys (OpenTy.checkAll onVar tys) := by
  induction tys with
  | nil =>
      rw [OpenTy.checkAll]
      exact .nil
  | cons ty tys ih =>
      have first := each ty (.head _)
      have rest := ih fun ty member => each ty (.tail _ member)
      rw [OpenTy.checkAll]
      cases outcome : ty.check onVar with
      | error e => exact .refused (outcome ▸ first)
      | ok _ => exact .passed (outcome ▸ first) rest

/-- The check of a type ends if that of each variable does, by induction over the parts. -/
theorem checkEnds_of_vars {t : Table} {v : Nat} {whole : OpenTy}
    {onVar : Nat → Except UnifyError Unit} (ty : OpenTy)
    (each : ∀ w ∈ ty.vars, t.CheckEnds v whole (.var w) (onVar w))
    : t.CheckEnds v whole ty (ty.check onVar) := by
  induction ty using OpenTy.partsInduction with
  | var w =>
      rw [OpenTy.check]
      exact each w (by simp)
  | atomic a =>
      rw [OpenTy.check]
      exact .atomic a
  | named name =>
      rw [OpenTy.check]
      exact .named name
  | wildcard =>
      rw [OpenTy.check]
      exact .wildcard
  | procedure params result ihParams ihResult =>
      have inParams : t.ChecksEnd v whole params (OpenTy.checkAll onVar params) :=
        checksEnd_of_each fun param member => ihParams param member fun w occurs =>
          each w (OpenTy.mem_vars_procedure.mpr (.inl ⟨param, member, occurs⟩))
      have inResult := ihResult fun w occurs => each w (OpenTy.mem_vars_procedure.mpr (.inr occurs))
      rw [OpenTy.check]
      cases outcome : OpenTy.checkAll onVar params with
      | error e => exact .parameter (outcome ▸ inParams)
      | ok _ => exact .procedure (outcome ▸ inParams) inResult

/-- The check of a variable ends at a depth greater than its height, by induction on the depth. -/
theorem Grounded.occursFrom_ends {t : Table} (grounded : t.Grounded) {v : Nat} {whole : OpenTy}
    {depth w : Nat} (inside : w < t.size) (enough : t.height w < depth)
    : t.CheckEnds v whole (.var w) (t.occursFrom v whole depth w) := by
  induction depth generalizing w with
  | zero => omega
  | succ depth ih =>
      have found : t.slots[w]? = some t.slots[w] := Array.getElem?_eq_getElem inside
      rw [occursFrom]
      split
      · next same =>
          rw [same]
          exact .self
      · next other =>
          simp only [found]
          split
          · next unbound => exact .unbound other inside (by simp [binding?, found, unbound])
          · next ty stored =>
              have bound : t.binding? w = some ty := by simp [binding?, found, stored]
              refine .bound other bound (checkEnds_of_vars ty ?_)
              intro x occurs
              have lower := grounded.height_lt ⟨ty, bound, occurs⟩
              exact ih (grounded.allocated bound x occurs) (by omega)

/-- The occurs check of a type over the variables of the table ends. -/
theorem Grounded.occursCheck_ends {t : Table} (grounded : t.Grounded) (v : Nat) {ty : OpenTy}
    (below : ty.Below t.size)
    : t.CheckEnds v ty ty (t.occursCheck v ty) := by
  refine checkEnds_of_vars ty fun w occurs => ?_
  have low := grounded.height_lt_size (below w occurs)
  exact grounded.occursFrom_ends (below w occurs) (by omega)

-----------------------------------------------------------------------------------------
-- Conversions
-----------------------------------------------------------------------------------------

/-- The conversions of several types end if each of them does, by induction on the types. -/
theorem conversionsEnd_of_each {t : Table} {tys : List OpenTy}
    (each : ∀ ty ∈ tys, t.ConversionEnds ty (t.toTy ty))
    : t.ConversionsEnd tys (OpenTy.toTys t.nameOf (OpenTy.substAll (t.resolveVar t.size) tys)) := by
  induction tys with
  | nil =>
      rw [OpenTy.substAll, OpenTy.toTys]
      exact .nil
  | cons ty tys ih =>
      rw [OpenTy.substAll, OpenTy.toTys]
      exact .cons (each ty (.head _)) (ih fun ty member => each ty (.tail _ member))

/-- The conversion of a type ends if that of each variable does, by induction over the parts. -/
theorem conversionEnds_of_vars {t : Table} (ty : OpenTy)
    (each : ∀ v ∈ ty.vars, t.ConversionEnds (.var v) (t.toTy (.var v)))
    : t.ConversionEnds ty (t.toTy ty) := by
  induction ty using OpenTy.partsInduction with
  | var v => exact each v (by simp)
  | atomic a =>
      rw [toTy, resolve, OpenTy.subst, OpenTy.toTy]
      exact .atomic a
  | named name =>
      rw [toTy, resolve, OpenTy.subst, OpenTy.toTy]
      exact .named name
  | wildcard =>
      rw [toTy, resolve, OpenTy.subst, OpenTy.toTy]
      exact .wildcard
  | procedure params result ihParams ihResult =>
      rw [toTy, resolve, OpenTy.subst, OpenTy.toTy]
      refine .procedure (conversionsEnd_of_each ?_) (ihResult ?_)
      · intro param member
        exact ihParams param member fun v occurs =>
          each v (OpenTy.mem_vars_procedure.mpr (.inl ⟨param, member, occurs⟩))
      · intro v occurs
        exact each v (OpenTy.mem_vars_procedure.mpr (.inr occurs))

/-- The conversion of a variable ends, by induction on its height. -/
theorem Grounded.varConversion_ends {t : Table} (grounded : t.Grounded) {v : Nat}
    (inside : v < t.size)
    : t.ConversionEnds (.var v) (t.toTy (.var v)) := by
  induction height : t.height v using Nat.strongRecOn generalizing v with
  | ind n ih =>
      cases bound : t.binding? v with
      | none =>
          rw [toTy_unbound bound]
          exact .unbound inside bound
      | some ty =>
          rw [toTy, grounded.resolve_bound bound]
          refine .bound bound (conversionEnds_of_vars ty ?_)
          intro w occurs
          have lower := grounded.height_lt ⟨ty, bound, occurs⟩
          exact ih _ (by omega) (grounded.allocated bound w occurs) rfl

/-- The conversion of a type over the variables of the table ends. -/
theorem Grounded.conversion_ends {t : Table} (grounded : t.Grounded) {ty : OpenTy}
    (below : ty.Below t.size)
    : t.ConversionEnds ty (t.toTy ty) :=
  conversionEnds_of_vars ty fun v occurs => grounded.varConversion_ends (below v occurs)

end Table

namespace UnifyError

/-- The explanations of several errors end if each of them does, by induction on the errors. -/
theorem explanationsEnd_of_each {t : Table} {context : Expr} {errors : List UnifyError}
    (each : ∀ e ∈ errors, e.ExplanationEnds t context (e.toTypeError t context))
    : ExplanationsEnd t context errors (toTypeErrors t context errors) := by
  induction errors with
  | nil =>
      rw [toTypeErrors]
      exact .nil
  | cons e es ih =>
      rw [toTypeErrors]
      exact .cons (each e (.head _)) (ih fun e member => each e (.tail _ member))

/-- The explanation of an error about types over the variables of the table ends, by induction on
the error.
-/
theorem About.explanation_ends {t : Table} (grounded : t.Grounded) {e : UnifyError}
    (about : e.About (OpenTy.Below t.size)) (context : Expr)
    : e.ExplanationEnds t context (e.explain t context) := by
  rw [explain_eq (about.stray?_eq_none grounded)]
  induction about with
  | mismatch first second =>
      rw [toTypeError]
      exact .mismatch (grounded.conversion_ends first) (grounded.conversion_ends second)
  | arity first second =>
      rw [toTypeError]
      exact .arity (grounded.conversion_ends first) (grounded.conversion_ends second)
  | occurs first second =>
      rw [toTypeError]
      exact .occurs (grounded.conversion_ends first) (grounded.conversion_ends second)
  | badType holds =>
      rw [toTypeError]
      exact .badType (grounded.conversion_ends holds)
  | multiple _ ih =>
      rw [toTypeError]
      exact .multiple (explanationsEnd_of_each ih)

end UnifyError

namespace Unify

-----------------------------------------------------------------------------------------
-- Levels
-----------------------------------------------------------------------------------------

/-- So many levels of bindings are left for a type: at least the variables through which one has not
come to it. Those through which one has form the set `seen`.
-/
def LevelsLeft (t : Table) (levels : Nat) (ty : OpenTy) : Prop :=
  ∃ seen : Finset Nat,
    t.size ≤ seen.card + levels
    ∧ ∀ u ∈ seen, u < t.size ∧ ∀ w ∈ ty.vars, Relation.TransGen t.Edge u w

/-- At the beginning there are levels enough for every type. -/
theorem LevelsLeft.start (t : Table) (ty : OpenTy) : LevelsLeft t t.size ty :=
  ⟨∅, by simp, by simp⟩

/-- There are levels enough for the parts of a type if there are for the type. -/
theorem LevelsLeft.part {t : Table} {levels : Nat} {ty part : OpenTy}
    (left : LevelsLeft t levels ty) (occur : ∀ w ∈ part.vars, w ∈ ty.vars)
    : LevelsLeft t levels part := by
  obtain ⟨seen, enough, above⟩ := left
  exact ⟨seen, enough, fun u member => ⟨(above u member).1,
    fun w occurs => (above u member).2 w (occur w occurs)⟩⟩

/-- Bindings made meanwhile take no path away. -/
theorem LevelsLeft.of_binds {t t' : Table} {levels : Nat} {ty : OpenTy} (binds : t.Binds t')
    (left : LevelsLeft t levels ty)
    : LevelsLeft t' levels ty := by
  obtain ⟨seen, enough, above⟩ := left
  have kept x y (edge : t.Edge x y) : t'.Edge x y := by
    obtain ⟨ty, bound, occurs⟩ := edge
    exact ⟨ty, binds.extends.kept bound, occurs⟩
  refine ⟨seen, by rw [binds.size]; exact enough, ?_⟩
  intro u member
  obtain ⟨inside, reach⟩ := above u member
  exact ⟨by rw [binds.size]; exact inside, fun w occurs => (reach w occurs).lift id kept⟩

/-- Following a binding leaves one level less: the variable joins those seen, and it is not one of
them because there is no cycle.
-/
theorem LevelsLeft.follow {t : Table} (grounded : t.Grounded) {levels v : Nat} {ty : OpenTy}
    (left : LevelsLeft t levels (.var v)) (inside : v < t.size) (chain : t.ChainEnds v ty)
    (notVar : ∀ w, ty ≠ .var w)
    : ∃ fewer, levels = fewer + 1 ∧ LevelsLeft t fewer ty := by
  obtain ⟨seen, enough, above⟩ := left
  have new : v ∉ seen := by
    intro member
    exact grounded.acyclic v ((above v member).2 v (by simp))
  have card : (insert v seen).card = seen.card + 1 := Finset.card_insert_of_notMem new
  have bounded : (insert v seen).card ≤ t.size := by
    have subset : insert v seen ⊆ Finset.range t.size := by
      intro u member
      rcases Finset.mem_insert.mp member with rfl | old
      · exact Finset.mem_range.mpr inside
      · exact Finset.mem_range.mpr (above u old).1
    simpa using Finset.card_le_card subset
  obtain ⟨fewer, rfl⟩ : ∃ fewer, levels = fewer + 1 := ⟨levels - 1, by omega⟩
  refine ⟨fewer, rfl, insert v seen, by omega, ?_⟩
  intro u member
  rcases Finset.mem_insert.mp member with rfl | old
  · exact ⟨inside, fun w occurs => chain.transGen notVar occurs⟩
  · obtain ⟨insideU, reach⟩ := above u old
    exact ⟨insideU, fun w occurs => (reach v (by simp)).trans (chain.transGen notVar occurs)⟩

-----------------------------------------------------------------------------------------
-- Unification
-----------------------------------------------------------------------------------------

/-- The assignment of an unbound variable ends. -/
theorem solve_ends {t : Table} (grounded : t.Grounded) {v : Nat} {target : OpenTy}
    (inside : v < t.size) (unbound : t.binding? v = none) (below : target.Below t.size)
    : AssignEnds v target t (solve v target t) := by
  have run := root_run_of_below grounded below
  have ends := grounded.root_ends below
  by_cases self : t.root target = .var v
  · rw [solve_run_self run self]
    exact .self inside unbound (self ▸ ends)
  · rw [solve_run_other run self inside unbound]
    have check := grounded.occursCheck_ends v (grounded.below_root below)
    cases outcome : t.occursCheck v (t.root target) with
    | error e => exact .refused inside unbound ends self (outcome ▸ check)
    | ok _ => exact .binds inside unbound ends self (outcome ▸ check)

/-- It makes no difference whether a variable is solved for a type or for the root of the type. -/
theorem solve_root {t : Table} (grounded : t.Grounded) {target : OpenTy}
    (below : target.Below t.size) (v : Nat)
    : solve v (t.root target) t = solve v target t := by
  have run := root_run_of_below grounded below
  have runRoot := root_run_of_below grounded (grounded.below_root below)
  rw [(grounded.rooted_root_of_below below).root_eq] at runRoot
  rw [solve, solve, run_bind_ok run, run_bind_ok runRoot]

/-- Where the first root is a variable, it is solved for the second type. -/
theorem solve_ends_left {t : Table} (grounded : t.Grounded) {v : Nat} {b : OpenTy}
    (inside : v < t.size) (unbound : t.binding? v = none) (below : b.Below t.size)
    : RootsEnd (.var v) (t.root b) t (solve v b t) := by
  by_cases self : t.root b = .var v
  · rw [solve_run_self (root_run_of_below grounded below) self, self]
    exact .self t v
  · rw [← solve_root grounded below]
    exact .left self (solve_ends grounded inside unbound (grounded.below_root below))

/-- Where the first type is no variable, the root of the second one decides. -/
theorem onRoot_ends {t : Table} (grounded : t.Grounded) {a b : OpenTy} {next : OpenTy → Unify Unit}
    (notVar : ∀ w, a ≠ .var w) (belowA : a.Below t.size) (belowB : b.Below t.size)
    (onVar : ∀ w, next (.var w) = solve w a)
    (onOther : ∀ b', (∀ w, b' ≠ .var w) → b'.Below t.size → RootsEnd a b' t (next b' t))
    : TypesEnd a b t ((root b >>= next) t) := by
  rw [run_bind_ok (root_run_of_below grounded belowB)]
  have belowRoot := grounded.below_root belowB
  refine .roots (.other notVar) (grounded.root_ends belowB) ?_
  cases shape : t.root b with
  | var w =>
      obtain ⟨inside, unbound⟩ := grounded.rooted_root_of_below belowB w shape
      rw [onVar]
      exact .right notVar (solve_ends grounded inside unbound belowA)
  | atomic | named | wildcard | procedure =>
      rw [shape] at belowRoot
      exact onOther _ (by simp) belowRoot

/-- What follows a chain of bindings is unified as the type at its end. -/
theorem TypesEnd.of_chain {t : Table} {v : Nat} {a b : OpenTy} {r : Outcome}
    (chain : t.ChainEnds v a) (notVar : ∀ w, a ≠ .var w) (ends : TypesEnd a b t r)
    : TypesEnd (.var v) b t r := by
  cases ends with
  | roots first second unified =>
      cases first with
      | var => exact absurd rfl (notVar _)
      | other => exact .roots (.var chain) second unified

/-- Unifications of pairs are made one after the other. -/
theorem PairsEnd.append {t middle t' : Table} {pairs morePairs : List (OpenTy × OpenTy)}
    {errors moreErrors : List UnifyError} (more : PairsEnd morePairs middle moreErrors t')
    : PairsEnd pairs t errors middle → PairsEnd (pairs ++ morePairs) t (errors ++ moreErrors) t'
  | .nil _ => more
  | .success first rest => .success first (PairsEnd.append more rest)
  | .failure first rest => .failure first (PairsEnd.append more rest)

/-- The errors of all pairs are reported as the end of the unification. -/
theorem PairsEnd.report_ends {t t' : Table} {as bs : List OpenTy} {errors : List UnifyError}
    (pairs : PairsEnd (as.zip bs) t errors t') (length : as.length = bs.length)
    : AllTypesEnd as bs t (report errors t') := by
  cases errors with
  | nil => exact .success length pairs
  | cons e es => exact .failures length (by simp) pairs

/-- The failure of one pair is collected; it is never fatal. -/
theorem failures_ends {t : Table} (grounded : t.Grounded) {a b : OpenTy} {x : Unify Unit}
    (belowA : a.Below t.size) (belowB : b.Below t.size) (ends : TypesEnd a b t (x t))
    : ∃ error t',
        failures x t = .ok error t'
        ∧ t' = finalState (x t)
        ∧ PairsEnd [(a, b)] t error t' := by
  have about := ends.about grounded.spreads_below belowA belowB
  rw [failures]
  cases run : x t with
  | ok _ t' =>
      rw [run] at ends
      exact ⟨[], t', rfl, rfl, .success ends (.nil t')⟩
  | error e t' =>
      rw [run] at ends about
      refine ⟨[e], t', ?_, rfl, .failure ends (.nil t')⟩
      simp [about.2.not_fatal]

/-- The pass over the pairs ends if each pair does in the table that the earlier ones left, by
induction on the first list.
-/
theorem pairsWith_ends {levels : Nat} {as bs : List OpenTy} {t : Table} (grounded : t.Grounded)
    (belowAs : ∀ a ∈ as, a.Below t.size) (belowBs : ∀ b ∈ bs, b.Below t.size)
    (each : ∀ a ∈ as, ∀ b t',
      t.Binds t' → b.Below t'.size → TypesEnd a b t' (typesTo (levels + 1) a b t'))
    : ∃ errors t',
        pairsWith (typesTo levels) as bs t = .ok errors t'
        ∧ t.Binds t'
        ∧ PairsEnd (as.zip bs) t errors t' := by
  induction as generalizing bs t with
  | nil =>
      refine ⟨[], t, ?_, .refl, .nil t⟩
      rw [pairsWith]
      · rfl
      · intro _ _ _ _ same
        cases same
  | cons a as ih =>
      cases bs with
      | nil =>
          refine ⟨[], t, ?_, .refl, .nil t⟩
          rw [pairsWith]
          · rfl
          · intro _ _ _ _ _ same
            cases same
      | cons b bs =>
          obtain ⟨error, middle, run, left, first⟩ := failures_ends grounded (belowAs a (.head _))
            (belowBs b (.head _)) (each a (.head _) b t .refl (belowBs b (.head _)))
          have binds : t.Binds middle := by
            rw [left]
            exact (typesTo_unifies (levels + 1) a b t grounded).binds
          have belowAs' a (member : a ∈ as) := binds.size.symm ▸ belowAs a (.tail _ member)
          have belowBs' b (member : b ∈ bs) := binds.size.symm ▸ belowBs b (.tail _ member)
          obtain ⟨errors, t', rest, moreBinds, ends⟩ := ih (binds.grounded grounded) belowAs' belowBs'
            fun a member b t' later => each a (.tail _ member) b t' (binds.trans later)
          refine ⟨error ++ errors, t', ?_, binds.trans moreBinds, PairsEnd.append ends first⟩
          rw [pairsWith]
          exact (run_bind_ok run).trans (run_bind_ok rest)

/-- Two procedure types of one arity are unified as the lists of their parts. -/
theorem procedureParts_ends {levels : Nat} {params params' : List OpenTy} {result result' : OpenTy}
    {t : Table} (grounded : t.Grounded) (length : params.length = params'.length)
    (below : (OpenTy.procedure params result).Below t.size)
    (below' : (OpenTy.procedure params' result').Below t.size)
    (eachParam : ∀ a ∈ params, ∀ b t',
      t.Binds t' → b.Below t'.size → TypesEnd a b t' (typesTo (levels + 1) a b t'))
    (eachResult : ∀ b t',
      t.Binds t' → b.Below t'.size → TypesEnd result b t' (typesTo (levels + 1) result b t'))
    : AllTypesEnd (params ++ [result]) (params' ++ [result']) t
        ((do
          let errors ← pairsWith (typesTo levels) params params'
          let error ← failures (typesTo (levels + 1) result result')
          report (errors ++ error) : Unify Unit) t) := by
  obtain ⟨belowParams, belowResult⟩ := OpenTy.below_procedure.mp below
  obtain ⟨belowParams', belowResult'⟩ := OpenTy.below_procedure.mp below'
  obtain ⟨errors, middle, run, binds, inParams⟩ :=
    pairsWith_ends grounded belowParams belowParams' eachParam
  rw [← binds.size] at belowResult belowResult'
  obtain ⟨error, t', last, _, inResult⟩ := failures_ends (binds.grounded grounded) belowResult
    belowResult' (eachResult result' middle binds belowResult')
  rw [run_bind_ok run, run_bind_ok last]
  refine PairsEnd.report_ends ?_ (by simpa using length)
  rw [List.zip_append length]
  exact PairsEnd.append inResult inParams

/-- One level of unification ends if the levels below it do where the first type is at the end of a
chain of bindings. The induction is over the parts of the first type.
-/
theorem typesWith_ends {levels : Nat}
    (deeper : ∀ a b t,
      t.Grounded → a.Below t.size → b.Below t.size
      → (∃ fewer, levels = fewer + 1 ∧ LevelsLeft t fewer a)
      → TypesEnd a b t (typesTo levels a b t))
    (a b : OpenTy) (t : Table) (grounded : t.Grounded) (belowA : a.Below t.size)
    (belowB : b.Below t.size) (left : LevelsLeft t levels a)
    : TypesEnd a b t (typesWith (typesTo levels) a b t) := by
  induction a using OpenTy.partsInduction generalizing b t with
  | var v =>
      have inside : v < t.size := by simpa using belowA
      have chain := grounded.chain_ends inside
      have belowRoot := grounded.below_root belowA
      rw [typesWith, run_bind_ok (root_run_of_below grounded belowA)]
      cases shape : t.root (.var v) with
      | var w =>
          obtain ⟨insideW, unbound⟩ := grounded.rooted_root_of_below belowA w shape
          exact .roots (.var (shape ▸ chain)) (grounded.root_ends belowB)
            (solve_ends_left grounded insideW unbound belowB)
      | atomic | named | wildcard | procedure =>
          rw [shape] at chain belowRoot
          refine .of_chain chain (by simp) (deeper _ b t grounded belowRoot belowB ?_)
          exact left.follow grounded inside chain (by simp)
  | atomic a =>
      rw [typesWith]
      refine onRoot_ends grounded (by simp) belowA belowB (fun _ => rfl) ?_
      intro b' notVar _
      cases b' with
      | var w => exact absurd rfl (notVar w)
      | named | wildcard | procedure => exact .mismatch trivial
      | atomic a' =>
          dsimp only
          split
          · next same =>
              rw [same]
              exact .atomic t a
          · next different => exact .mismatch fun same => different (by rw [same])
  | named | wildcard =>
      rw [typesWith]
      refine onRoot_ends grounded (by simp) belowA belowB (fun _ => rfl) ?_
      intro b' notVar _
      cases b' with
      | var w => exact absurd rfl (notVar w)
      | atomic | named | wildcard | procedure => exact .mismatch trivial
  | procedure params result ihParams ihResult =>
      rw [typesWith]
      refine onRoot_ends grounded (by simp) belowA belowB (fun _ => rfl) ?_
      intro b' notVar belowB'
      cases b' with
      | var w => exact absurd rfl (notVar w)
      | atomic | named | wildcard => exact .mismatch trivial
      | procedure params' result' =>
          obtain ⟨belowParams, belowResult⟩ := OpenTy.below_procedure.mp belowA
          dsimp only
          split
          · next length =>
              refine .procedures length (procedureParts_ends grounded length belowA belowB' ?_ ?_)
              · intro a member b t' binds below
                exact ihParams a member b t' (binds.grounded grounded)
                  (binds.size.symm ▸ belowParams a member) below
                  ((left.of_binds binds).part fun w occurs =>
                    OpenTy.mem_vars_procedure.mpr (.inl ⟨a, member, occurs⟩))
              · intro b t' binds below
                exact ihResult b t' (binds.grounded grounded) (binds.size.symm ▸ belowResult) below
                  ((left.of_binds binds).part fun w occurs =>
                    OpenTy.mem_vars_procedure.mpr (.inr occurs))
          · next lengths => exact .arity lengths

/-- With enough levels unification ends, by induction on the levels. -/
theorem typesTo_ends (levels : Nat) (a b : OpenTy) (t : Table) (grounded : t.Grounded)
    (belowA : a.Below t.size) (belowB : b.Below t.size) (left : LevelsLeft t levels a)
    : TypesEnd a b t (typesTo (levels + 1) a b t) := by
  induction levels generalizing a b t with
  | zero =>
      refine typesWith_ends ?_ a b t grounded belowA belowB left
      rintro _ _ _ _ _ _ ⟨fewer, impossible, _⟩
      cases impossible
  | succ levels ih =>
      refine typesWith_ends ?_ a b t grounded belowA belowB left
      rintro a b t grounded belowA belowB ⟨fewer, same, left⟩
      cases same
      exact ih a b t grounded belowA belowB left

/-- The unification of two types over the variables of the table ends. -/
theorem types_ends {t : Table} (grounded : t.Grounded) {a b : OpenTy} (belowA : a.Below t.size)
    (belowB : b.Below t.size)
    : TypesEnd a b t (types a b t) :=
  typesTo_ends t.size a b t grounded belowA belowB (.start t a)

/-- So does that of several types. -/
theorem allTypes_ends {t : Table} (grounded : t.Grounded) {as bs : List OpenTy}
    (belowAs : ∀ a ∈ as, a.Below t.size) (belowBs : ∀ b ∈ bs, b.Below t.size)
    : AllTypesEnd as bs t (allTypes as bs t) := by
  by_cases length : as.length = bs.length
  · have each a (member : a ∈ as) b t' (binds : t.Binds t') (below : b.Below t'.size)
        : TypesEnd a b t' (typesTo (t.size + 1) a b t') :=
      typesTo_ends t.size a b t' (binds.grounded grounded) (binds.size.symm ▸ belowAs a member) below
        (binds.size ▸ .start t' a)
    obtain ⟨errors, t', run, _, ends⟩ := pairsWith_ends grounded belowAs belowBs each
    rw [allTypes_run length, run_bind_ok run]
    exact ends.report_ends length
  · rw [allTypes_run_lengths length]
    exact .lengths length

/-- So does an assignment. -/
theorem assign_ends {t : Table} (grounded : t.Grounded) {v : Nat} {target : OpenTy}
    (inside : v < t.size) (below : target.Below t.size)
    : AssignEnds v target t (assign v target t) := by
  have found : t.slots[v]? = some t.slots[v] := Array.getElem?_eq_getElem inside
  rw [assign]
  simp only [found]
  cases stored : t.slots[v].binding with
  | some ty =>
      have bound : t.binding? v = some ty := by simp [Table.binding?, found, stored]
      exact .bound bound (types_ends grounded (grounded.allocated bound) below)
  | none =>
      have unbound : t.binding? v = none := by simp [Table.binding?, found, stored]
      exact solve_ends grounded inside unbound below

/-- By the rules a call ends with this result and no other. If the result is an error, the rules
convert the error, in the table that the failure left, to its explanation and nothing else.
-/
structure EndsOnlyWith (rules : Outcome → Prop) (result : Outcome) : Prop where
  ends : ∀ r, rules r ↔ r = result
  explained
    : ∀ e left, result = .error e left
        → ∀ context explanation,
            e.ExplanationEnds left context explanation ↔ explanation = e.explain left context

/-- A derivation of the result is enough, because the rules leave no choice. -/
theorem EndsOnlyWith.of_ends {rules : Outcome → Prop} {result : Outcome} (ends : rules result)
    (unique : ∀ {r}, rules r → r = result)
    (explanation : ∀ e left, result = .error e left
      → ∀ context, e.ExplanationEnds left context (e.explain left context))
    : EndsOnlyWith rules result where
  ends _ := ⟨unique, fun same => same ▸ ends⟩
  explained e left failed context _ :=
    ⟨(explanation e left failed context).unique,
      fun same => same ▸ explanation e left failed context⟩

/-- A failed unification of types over the table leaves an error that can be explained. -/
theorem EndsAbout.explanation_ends {t : Table} (grounded : t.Grounded) {result : Outcome}
    (about : EndsAbout (OpenTy.Below t.size) result) (binds : t.Binds (finalState result))
    {e : UnifyError} {left : Table} (failed : result = .error e left) (context : Expr)
    : e.ExplanationEnds left context (e.explain left context) := by
  subst failed
  have size : left.size = t.size := binds.size
  have explainable : e.About (OpenTy.Below left.size) := size ▸ about.2
  exact explainable.explanation_ends (binds.grounded grounded) context

end Unify

/-- The recursions of the unifier end in the table: those that only read it, and those that bind
variables on the way, also where they fail.
-/
structure Table.UnifierEnds (t : Table) : Prop where
  root : ∀ v < t.size, ∀ ty, t.ChainEnds v ty ↔ ty = t.root (.var v)
  occursCheck
    : ∀ v < t.size, ∀ ty : OpenTy, ty.Below t.size
        → ∀ outcome, t.CheckEnds v ty ty outcome ↔ outcome = t.occursCheck v ty
  conversion
    : ∀ ty : OpenTy, ty.Below t.size
        → ∀ converted, t.ConversionEnds ty converted ↔ converted = t.toTy ty
  assign
    : ∀ v < t.size, ∀ target : OpenTy, target.Below t.size
        → Unify.EndsOnlyWith (Unify.AssignEnds v target t) (Unify.assign v target t)
  types
    : ∀ a b : OpenTy, a.Below t.size → b.Below t.size
        → Unify.EndsOnlyWith (Unify.TypesEnd a b t) (Unify.types a b t)
  allTypes
    : ∀ as bs : List OpenTy, (∀ ty ∈ as ++ bs, ty.Below t.size)
        → Unify.EndsOnlyWith (Unify.AllTypesEnd as bs t) (Unify.allTypes as bs t)

namespace Unify

/-- The unification of two types ends in one way only. -/
theorem types_endsOnlyWith {t : Table} (grounded : t.Grounded) {a b : OpenTy}
    (belowA : a.Below t.size) (belowB : b.Below t.size)
    : EndsOnlyWith (TypesEnd a b t) (types a b t) := by
  have ends := types_ends grounded belowA belowB
  have about := ends.about grounded.spreads_below belowA belowB
  refine .of_ends ends ends.unique fun e left failed context => ?_
  exact about.explanation_ends grounded (types_unifies a b t grounded).binds failed context

/-- So does an assignment. -/
theorem assign_endsOnlyWith {t : Table} (grounded : t.Grounded) {v : Nat} {target : OpenTy}
    (inside : v < t.size) (below : target.Below t.size)
    : EndsOnlyWith (AssignEnds v target t) (assign v target t) := by
  have ends := assign_ends grounded inside below
  have about := ends.about grounded.spreads_below (by simpa using inside) below
  refine .of_ends ends ends.unique fun e left failed context => ?_
  exact about.explanation_ends grounded (assign_binds v target t grounded) failed context

/-- Lists of different lengths fail without types to convert; other lists fail as types do. -/
theorem allTypes_endsOnlyWith {t : Table} (grounded : t.Grounded) {as bs : List OpenTy}
    (below : ∀ ty ∈ as ++ bs, ty.Below t.size)
    : EndsOnlyWith (AllTypesEnd as bs t) (allTypes as bs t) := by
  have belowAs a (member : a ∈ as) := below a (List.mem_append_left _ member)
  have belowBs b (member : b ∈ bs) := below b (List.mem_append_right _ member)
  have ends := allTypes_ends grounded belowAs belowBs
  refine .of_ends ends ends.unique fun e left failed context => ?_
  by_cases length : as.length = bs.length
  · have about := ends.about length grounded.spreads_below belowAs belowBs
    exact about.explanation_ends grounded (allTypes_unifiesAll as bs t grounded).binds failed context
  · rw [allTypes_run_lengths length] at failed
    cases failed
    exact .lengths _ _

end Unify

/-- In a grounded table everything that the unifier does ends, in one way only. -/
theorem Table.Grounded.unifierEnds {t : Table} (grounded : t.Grounded) : t.UnifierEnds where
  root v inside ty := by
    have ends := grounded.chain_ends inside
    exact ⟨fun again => again.unique ends, fun same => same ▸ ends⟩
  occursCheck v _ ty below outcome := by
    have ends := grounded.occursCheck_ends v below
    exact ⟨ends.unique, fun same => same ▸ ends⟩
  conversion ty below converted := by
    have ends := grounded.conversion_ends below
    exact ⟨ends.unique, fun same => same ▸ ends⟩
  assign v inside target below := Unify.assign_endsOnlyWith grounded inside below
  types a b := Unify.types_endsOnlyWith grounded
  allTypes as bs := Unify.allTypes_endsOnlyWith grounded

/-- All recursions of the unifier end in every table whose bindings are in range and without a cycle,
and so in every table that an inference can reach.
-/
theorem unifier_recursions_end
    : (∀ t : Table, t.Grounded → t.UnifierEnds)
      ∧ ∀ s : State, s.Reachable → s.table.UnifierEnds :=
  ⟨fun _ grounded => grounded.unifierEnds,
    fun _ reachable => reachable.wellFormed.table.toGrounded.unifierEnds⟩

/-- Three variables, of which the first is bound to a procedure type over the others. -/
def Table.threeVariables : Table :=
  (((empty.allocate none).2.allocate none).2.allocate none).2.bind 0 (.procedure [.var 1] (.var 2))

/-- Two types over these variables fail to unify after some bindings were made, and the pairs after
the failure are still unified.
-/
theorem unifier_recursions_end_threeVariables
    : Table.threeVariables.Grounded
      ∧ (∃ left,
          Unify.types (.procedure [.var 1, .atomic .number] (.var 0))
              (.procedure [.atomic .string, .atomic .boolean] (.procedure [.var 1] (.var 1)))
              Table.threeVariables
            = .error (.multiple [.mismatch (.atomic .number) (.atomic .boolean)]) left
          ∧ left.toTy (.var 0) = .procedure [.atomic .string] (.atomic .string))
      ∧ Table.threeVariables.UnifierEnds := by
  have wf := ((Table.empty_wellFormed.allocate none).allocate none).allocate none
  have step : Table.BindStep _ Table.threeVariables :=
    @Table.BindStep.bind _ 0 (.procedure [.var 1] (.var 2)) (by decide) rfl rfl
  have grounded := step.grounded wf.toGrounded
  exact ⟨grounded, ⟨_, rfl, rfl⟩, unifier_recursions_end.1 _ grounded⟩

end TypedScheme
