import TypedScheme.Proofs.Unification.BindingGraph
import TypedScheme.Unification.Unify

/-! The occurs check accepts a type exactly if the variable cannot be reached from it.
The check follows bindings to a bounded depth, which the heights of the graph justify.
-/

namespace TypedScheme

namespace OpenTy

/-- Two checks in a row pass if both do. -/
theorem checkBoth_ok_iff {first second : Except UnifyError Unit}
    : (do first; second) = .ok () ↔ first = .ok () ∧ second = .ok () := by
  cases first with
  | error e => simp [Bind.bind, Except.bind]
  | ok _ => simp [Bind.bind, Except.bind]

/-- Types pass a check together exactly if each of them passes it, by induction on the types. -/
theorem checkAll_ok_iff {onVar : Nat → Except UnifyError Unit} {ts : List OpenTy}
    : checkAll onVar ts = .ok () ↔ ∀ t ∈ ts, t.check onVar = .ok () := by
  induction ts with
  | nil => simp [checkAll]
  | cons t ts ih => rw [checkAll, checkBoth_ok_iff, ih, List.forall_mem_cons]

/-- A type passes if it is plain and all its variables pass, by induction over the parts. -/
theorem check_ok_iff {onVar : Nat → Except UnifyError Unit} {ty : OpenTy}
    : ty.check onVar = .ok () ↔ ty.isPlain = true ∧ ∀ v ∈ ty.vars, onVar v = .ok () := by
  induction ty using partsInduction with
  | var v => simp [check]
  | atomic a => simp [check]
  | named name => simp [check, isPlain]
  | wildcard => simp [check, isPlain]
  | procedure params result ihParams ihResult =>
      rw [check, checkBoth_ok_iff, checkAll_ok_iff, ihResult, isPlain_procedure]
      constructor
      · rintro ⟨passed, plain, passedResult⟩
        have passedParam param (member : param ∈ params) :=
          (ihParams param member).mp (passed param member)
        refine ⟨⟨fun param member => (passedParam param member).1, plain⟩, ?_⟩
        intro v occurs
        rcases mem_vars_procedure.mp occurs with ⟨param, member, inParam⟩ | inResult
        · exact (passedParam param member).2 v inParam
        · exact passedResult v inResult
      · rintro ⟨⟨plainParams, plain⟩, passed⟩
        refine ⟨?_, plain, fun v occurs => passed v (mem_vars_procedure.mpr (.inr occurs))⟩
        intro param member
        refine (ihParams param member).mpr ⟨plainParams param member, ?_⟩
        intro v occurs
        exact passed v (mem_vars_procedure.mpr (.inl ⟨param, member, occurs⟩))

end OpenTy

namespace Table

/-- An accepted variable is one of the table from which `v` cannot be reached. The induction is on
the depth; a path to `v` starts with an edge to a variable that was accepted too.
-/
theorem apart_of_occursFrom_ok {t : Table} {v : Nat} {whole : OpenTy} {depth w : Nat}
    (passed : t.occursFrom v whole depth w = .ok ())
    : w < t.size ∧ ¬ t.Reaches w v := by
  induction depth generalizing w with
  | zero => simp [occursFrom] at passed
  | succ depth ih =>
      rw [occursFrom] at passed
      split at passed
      · cases passed
      · next distinct =>
          cases found : t.slots[w]? with
          | none => simp [found] at passed
          | some slot =>
              have inside : w < t.size := (Array.getElem?_eq_some_iff.mp found).1
              refine ⟨inside, ?_⟩
              intro path
              rcases path.cases_head with same | ⟨next, ⟨ty, bound, occurs⟩, rest⟩
              · exact distinct same
              · have stored : slot.binding = some ty := by simpa [binding?, found] using bound
                simp only [found, stored] at passed
                exact (ih ((OpenTy.check_ok_iff.mp passed).2 next occurs)).2 rest

/-- A variable from which `v` cannot be reached is accepted at every depth above its height, by
induction on the depth.
-/
theorem WellFormed.occursFrom_ok_of_apart {t : Table} (wf : t.WellFormed) {v : Nat}
    {whole : OpenTy} {depth w : Nat} (inside : w < t.size) (enough : t.height w < depth)
    (apart : ¬ t.Reaches w v)
    : t.occursFrom v whole depth w = .ok () := by
  induction depth generalizing w with
  | zero => omega
  | succ depth ih =>
      have distinct : w ≠ v := fun same => apart (same ▸ .refl)
      have found : t.slots[w]? = some t.slots[w] := Array.getElem?_eq_getElem inside
      rw [occursFrom, if_neg distinct]
      simp only [found]
      split
      · rfl
      · next ty stored =>
          have bound : t.binding? w = some ty := by simpa [binding?, found] using stored
          refine OpenTy.check_ok_iff.mpr ⟨wf.plain bound, ?_⟩
          intro next occurs
          have edge : t.Edge w next := ⟨ty, bound, occurs⟩
          have lower := wf.height_lt edge
          exact ih (wf.allocated bound next occurs) (by omega)
            (fun path => apart (Relation.ReflTransGen.head edge path))

/-- An accepted type is plain and over variables of the table from which `v` cannot be reached. -/
theorem apart_of_occursCheck_ok {t : Table} {v : Nat} {ty : OpenTy}
    (passed : t.occursCheck v ty = .ok ())
    : ty.isPlain = true ∧ ty.Below t.size ∧ ∀ w ∈ ty.vars, ¬ t.Reaches w v := by
  obtain ⟨plain, passed⟩ := OpenTy.check_ok_iff.mp passed
  have accepted w (occurs : w ∈ ty.vars) := apart_of_occursFrom_ok (passed w occurs)
  exact ⟨plain, fun w occurs => (accepted w occurs).1, fun w occurs => (accepted w occurs).2⟩

/-- The check accepts exactly the plain types over the variables of the table from which `v` cannot
be reached.
-/
theorem WellFormed.occursCheck_ok_iff {t : Table} (wf : t.WellFormed) {v : Nat} {ty : OpenTy}
    : t.occursCheck v ty = .ok ()
      ↔ ty.isPlain = true ∧ ty.Below t.size ∧ ∀ w ∈ ty.vars, ¬ t.Reaches w v := by
  refine ⟨apart_of_occursCheck_ok, ?_⟩
  rintro ⟨plain, below, apart⟩
  refine OpenTy.check_ok_iff.mpr ⟨plain, fun w occurs => ?_⟩
  have low := wf.height_lt_size (below w occurs)
  exact wf.occursFrom_ok_of_apart (below w occurs) (by omega) (apart w occurs)

end Table

end TypedScheme
