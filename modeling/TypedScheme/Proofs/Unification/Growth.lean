import TypedScheme.Proofs.Unification.BindingSteps

/-! How a table grows and how a rollback undoes that. A table grows by new variables and by binding
steps. While a snapshot is open the trail records the bindings, so that a rollback takes away all
bindings made since and nothing else; a commit leaves the table as if no snapshot had been taken.
-/

namespace TypedScheme

/-- The variable with its name and without its binding. -/
def Slot.unbound (slot : Slot) : Slot := { slot with binding := none }

/-- An unbound variable has no binding to lose. -/
theorem Slot.unbound_of_binding {slot : Slot} (free : slot.binding = none)
    : slot.unbound = slot := by
  cases slot
  cases free
  rfl

namespace Table

/-- A new variable, or a binding step. -/
inductive GrowStep : Table → Table → Prop
  | allocate {t : Table} (name : Option String) : GrowStep t (t.allocate name).2
  | bind {t t' : Table} (step : BindStep t t') : GrowStep t t'

/-- Any number of such steps. -/
abbrev Grows : Table → Table → Prop := Relation.ReflTransGen GrowStep

/-- Binding steps are growth. -/
theorem Binds.grows {t t' : Table} (binds : t.Binds t') : t.Grows t' :=
  binds.lift id fun _ _ step => .bind step

/-- A table that grows loses no variable, by induction on the growth. -/
theorem Grows.size {t t' : Table} (grows : t.Grows t') : t.size ≤ t'.size := by
  induction grows with
  | refl => exact Nat.le_refl _
  | tail _ step ih =>
      cases step with
      | allocate name =>
          rw [size_allocate]
          omega
      | bind step =>
          rw [step.size]
          exact ih

/-- A table that grows opens and closes no snapshot, by induction on the growth. -/
theorem Grows.openSnapshots {t t' : Table} (grows : t.Grows t')
    : t'.openSnapshots = t.openSnapshots := by
  induction grows with
  | refl => rfl
  | tail _ step ih =>
      cases step with
      | allocate name => exact ih
      | bind step =>
          cases step with
          | bind => exact ih

/-- Nothing is on the trail while no snapshot is open. -/
def Settled (t : Table) : Prop := t.openSnapshots = 0 → t.trail = []

/-- A table that grows records nothing while no snapshot is open, by induction on the growth. -/
theorem Grows.settled {t t' : Table} (grows : t.Grows t') (settled : t.Settled) : t'.Settled := by
  induction grows with
  | refl => exact settled
  | tail _ step ih =>
      cases step with
      | allocate name => exact ih
      | bind step =>
          cases step with
          | bind =>
              intro closed
              have unrecorded : ¬ 0 < _ := Nat.not_lt_of_le (Nat.le_of_eq closed)
              exact (if_neg unrecorded).trans (ih closed)

-----------------------------------------------------------------------------------------
-- Rolling back
-----------------------------------------------------------------------------------------

/-- Undoing the bindings of some variables touches the slots of these only, by induction on the
variables.
-/
theorem getElem?_foldl_unbind (vs : List Nat) (slots : Array Slot) (v : Nat)
    : (vs.foldl unbind slots)[v]?
      = slots[v]?.map fun slot => if v ∈ vs then slot.unbound else slot := by
  induction vs generalizing slots with
  | nil => simp
  | cons w vs ih =>
      rw [List.foldl_cons, ih, unbind, Array.getElem?_modify]
      by_cases same : w = v
      · subst same
        cases slots[w]? <;> simp [Slot.unbound]
      · simp [same, Ne.symm same]

/-- A rollback takes bindings away and leaves names. -/
theorem name?_rollback (t : Table) (mark : Snapshot) (v : Nat)
    : (t.rollback mark).name? v = t.name? v := by
  simp only [name?, rollback, getElem?_foldl_unbind]
  cases t.slots[v]? with
  | none => rfl
  | some slot =>
      rw [Option.map_some, Option.bind_some, Option.bind_some]
      split
      · rfl
      · rfl

/-- The trail since `t` names variables whose undoing gives back the slots of `t`; a variable that is
new since then and not on it is unbound.
-/
structure Recorded (t t' : Table) (since : List Nat) : Prop where
  trail : t'.trail = since ++ t.trail
  old
    : ∀ v,
        v < t.size
        → (t'.slots[v]?.map fun slot => if v ∈ since then slot.unbound else slot) = t.slots[v]?
  new : ∀ v slot, t.size ≤ v → v ∉ since → t'.slots[v]? = some slot → slot.binding = none

/-- Nothing has been recorded at the beginning. -/
theorem recorded_refl (t : Table) : Recorded t t [] := by
  refine ⟨rfl, ?_, ?_⟩
  · intro v inside
    simp
  · intro v slot outside _ found
    have absent : t.slots[v]? = none := Array.getElem?_eq_none outside
    rw [absent] at found
    cases found

/-- A new variable is unbound, so nothing has to be undone for it. -/
theorem Recorded.allocate {t t' : Table} {since : List Nat} (recorded : Recorded t t' since)
    (le : t.size ≤ t'.size) (name : Option String)
    : Recorded t (t'.allocate name).2 since := by
  refine ⟨recorded.trail, ?_, ?_⟩
  · intro v inside
    have other : v ≠ t'.slots.size := Nat.ne_of_lt (Nat.lt_of_lt_of_le inside le)
    simp only [Table.allocate, Array.getElem?_push, if_neg other]
    exact recorded.old v inside
  · intro v slot outside unrecorded found
    simp only [Table.allocate, Array.getElem?_push] at found
    split at found
    · cases found
      rfl
    · exact recorded.new v slot outside unrecorded found

/-- A variable that is bound while a snapshot is open comes onto the trail. Without its new binding
it is again as it was, since it was unbound.
-/
theorem Recorded.bind {t t' : Table} {since : List Nat} (recorded : Recorded t t' since)
    (recording : 0 < t'.openSnapshots) {v : Nat} (unbound : t'.binding? v = none) (ty : OpenTy)
    : Recorded t (t'.bind v ty) (v :: since) := by
  refine ⟨?_, ?_, ?_⟩
  · simp [Table.bind, recording, recorded.trail]
  · intro w inside
    rw [← recorded.old w inside]
    simp only [Table.bind, Array.getElem?_modify]
    by_cases same : v = w
    · subst same
      cases found : t'.slots[v]? with
      | none => simp
      | some slot =>
          have free : slot.binding = none := by simpa [binding?, found] using unbound
          have kept : ({ slot with binding := none } : Slot) = slot := Slot.unbound_of_binding free
          simp [Slot.unbound, kept]
    · simp [same, Ne.symm same]
  · intro w slot outside unrecorded found
    have other : w ≠ v := List.ne_of_not_mem_cons unrecorded
    have earlier : w ∉ since := List.not_mem_of_not_mem_cons unrecorded
    simp only [Table.bind, Array.getElem?_modify, if_neg (Ne.symm other)] at found
    exact recorded.new w slot outside earlier found

/-- While a snapshot is open, the trail records every binding, by induction on the steps. -/
theorem Grows.recorded {t t' : Table} (grows : t.Grows t') (recording : 0 < t.openSnapshots)
    : ∃ since, Recorded t t' since := by
  induction grows with
  | refl => exact ⟨[], recorded_refl t⟩
  | @tail middle _ earlier step ih =>
      obtain ⟨since, recorded⟩ := ih
      cases step with
      | allocate name => exact ⟨since, recorded.allocate (Grows.size earlier) name⟩
      | bind step =>
          cases step with
          | @bind v ty _ unbound _ =>
              have recordingNow : 0 < middle.openSnapshots :=
                Grows.openSnapshots earlier ▸ recording
              exact ⟨v :: since, recorded.bind recordingNow unbound ty⟩

/-- A snapshot can be closed after whatever growth. -/
theorem Grows.canClose {t t' : Table} (grows : t.snapshot.2.Grows t')
    : t'.canClose t.snapshot.1 = true := by
  obtain ⟨since, recorded⟩ := Grows.recorded grows (Nat.succ_pos _)
  have trail : t'.trail = since ++ t.trail := recorded.trail
  have recording : t'.openSnapshots = t.openSnapshots + 1 := Grows.openSnapshots grows
  simp [Table.canClose, recording, trail, snapshot]

/-- What a rollback gives back: `back` has the variables of `before` as they were, those that
`after` has in addition unbound but with their names, and the trail and open snapshots of `before`.
-/
structure Restores (before after back : Table) : Prop where
  old : ∀ v, v < before.size → back.slots[v]? = before.slots[v]?
  new : ∀ v, before.size ≤ v → back.slots[v]? = after.slots[v]?.map Slot.unbound
  trail : back.trail = before.trail
  openSnapshots : back.openSnapshots = before.openSnapshots

/-- A rollback to a snapshot gives back what there was when it was taken. -/
theorem Grows.restores {t t' : Table} (grows : t.snapshot.2.Grows t')
    : t.Restores t' (t'.rollback t.snapshot.1) := by
  obtain ⟨since, recorded⟩ := Grows.recorded grows (Nat.succ_pos _)
  have trail : t'.trail = since ++ t.trail := recorded.trail
  have sinceMark : t'.boundSince t.snapshot.1 = since.reverse := by
    simp [boundSince, snapshot, trail]
  have slots v
      : (t'.rollback t.snapshot.1).slots[v]?
        = t'.slots[v]?.map fun slot => if v ∈ since then slot.unbound else slot := by
    simp only [rollback, sinceMark, getElem?_foldl_unbind, List.mem_reverse]
  refine ⟨?_, ?_, ?_, ?_⟩
  · intro v inside
    rw [slots]
    exact recorded.old v inside
  · intro v outside
    rw [slots]
    cases found : t'.slots[v]? with
    | none => rfl
    | some slot =>
        by_cases onTrail : v ∈ since
        · simp [onTrail]
        · have free := recorded.new v slot outside onTrail found
          simp [onTrail, Slot.unbound_of_binding free]
  · simp [rollback, snapshot, trail]
  · simp [rollback, Grows.openSnapshots grows, snapshot]

/-- Tables are equal if their slots, trails and open snapshots are. -/
theorem Restores.eq {before after back : Table} (restores : before.Restores after back)
    (sizes : after.size = before.size)
    : back = before := by
  have slots : back.slots = before.slots := by
    apply Array.ext_getElem?
    intro v
    by_cases inside : v < before.size
    · exact restores.old v inside
    · have outside : before.size ≤ v := Nat.le_of_not_lt inside
      have beyond : after.size ≤ v := sizes ▸ outside
      rw [restores.new v outside, Array.getElem?_eq_none beyond, Array.getElem?_eq_none outside]
      rfl
  calc back
      = ⟨back.slots, back.trail, back.openSnapshots⟩ := rfl
    _ = before := by rw [slots, restores.trail, restores.openSnapshots]

/-- Rolling back to a snapshot after bindings only gives back the table of the snapshot. -/
theorem Binds.rollback_snapshot {t t' : Table} (binds : t.snapshot.2.Binds t')
    : t'.rollback t.snapshot.1 = t :=
  binds.grows.restores.eq binds.size

/-- The later table has the bindings of the earlier one and, besides, one for each of the variables. -/
structure Adds (t t' : Table) (vs : List Nat) : Prop where
  nodup : vs.Nodup
  unbound : ∀ v ∈ vs, t.binding? v = none
  bound : ∀ v ∈ vs, ∃ ty, t'.binding? v = some ty
  others : ∀ v, v ∉ vs → t'.binding? v = t.binding? v

/-- The variables that bindings were added for are in the later table. -/
theorem Adds.lt_size {t t' : Table} {vs : List Nat} (adds : t.Adds t' vs)
    : ∀ v ∈ vs, v < t'.size := by
  intro v member
  obtain ⟨ty, bound⟩ := adds.bound v member
  exact lt_size_of_binding? bound

/-- One more binding is added behind the others. -/
theorem Adds.bind {t t' : Table} {vs : List Nat} (adds : t.Adds t' vs) {v : Nat}
    (inside : v < t'.size) (unbound : t'.binding? v = none) (ty : OpenTy)
    : t.Adds (t'.bind v ty) (vs ++ [v]) := by
  have new : v ∉ vs := by
    intro member
    obtain ⟨_, bound⟩ := adds.bound v member
    rw [unbound] at bound
    cases bound
  refine ⟨?_, ?_, ?_, ?_⟩
  · exact List.nodup_append.mpr ⟨adds.nodup, List.nodup_singleton v, by grind⟩
  · intro w member
    rcases List.mem_append.mp member with old | last
    · exact adds.unbound w old
    · rw [List.mem_singleton.mp last, ← adds.others v new, unbound]
  · intro w member
    rw [binding?_bind inside]
    rcases List.mem_append.mp member with old | last
    · split
      · exact ⟨ty, rfl⟩
      · exact adds.bound w old
    · rw [if_pos (List.mem_singleton.mp last).symm]
      exact ⟨ty, rfl⟩
  · intro w absent
    have other : v ≠ w := by grind
    rw [binding?_bind inside, if_neg other]
    exact adds.others w (by grind)

/-- A binding made while a snapshot is open is the last one since then. -/
theorem boundSince_bind {t : Table} {mark : Snapshot} (closable : t.canClose mark = true) (v : Nat)
    (ty : OpenTy)
    : (t.bind v ty).boundSince mark = t.boundSince mark ++ [v] := by
  obtain ⟨recording, le⟩ : 0 < t.openSnapshots ∧ mark.trailLength ≤ t.trail.length := by
    simpa [canClose] using closable
  simp [boundSince, bind, recording, Nat.succ_sub le]

/-- The variables bound since a snapshot are those that bindings were added for, by induction on the
binding steps.
-/
theorem Binds.adds {t t' : Table} (binds : t.snapshot.2.Binds t')
    : t.Adds t' (t'.boundSince t.snapshot.1) := by
  induction binds with
  | refl =>
      have none : t.snapshot.2.boundSince t.snapshot.1 = [] := by simp [boundSince, snapshot]
      rw [none]
      exact ⟨List.nodup_nil, by simp, by simp, fun _ _ => rfl⟩
  | tail before step ih =>
      cases step with
      | bind inside unbound _ =>
          rw [boundSince_bind (Binds.grows before).canClose]
          exact ih.bind inside unbound _

/-- A table with all slots of another one and unbound variables behind them has grown from it, by
induction on the number of these variables.
-/
theorem grows_of_unbound {t t' : Table} (le : t.size ≤ t'.size)
    (old : ∀ v, v < t.size → t'.slots[v]? = t.slots[v]?)
    (new : ∀ v slot, t.size ≤ v → t'.slots[v]? = some slot → slot.binding = none)
    (trail : t'.trail = t.trail) (openSnapshots : t'.openSnapshots = t.openSnapshots)
    : t.Grows t' := by
  induction more : t'.size - t.size generalizing t with
  | zero =>
      have same : t'.size = t.size := by omega
      have restores : t.Restores t' t' := by
        refine ⟨old, ?_, trail, openSnapshots⟩
        intro v outside
        have beyond : t'.size ≤ v := same ▸ outside
        rw [Array.getElem?_eq_none beyond]
        rfl
      rw [restores.eq same]
  | succ n ih =>
      have inside : t.size < t'.size := by omega
      have found : t'.slots[t.size]? = some t'.slots[t.size] := Array.getElem?_eq_getElem inside
      have free := new _ _ (Nat.le_refl _) found
      refine .head (.allocate t'.slots[t.size].name) (ih ?_ ?_ ?_ trail openSnapshots ?_)
      · rw [size_allocate]
        omega
      · intro v here
        simp only [allocate, Array.getElem?_push]
        split
        · next last =>
            rw [last]
            refine found.trans (congrArg some ?_)
            rw [← free]
        · next other =>
            rw [size_allocate] at here
            have distinct : v ≠ t.size := other
            exact old v (by omega)
      · intro v slot outside
        rw [size_allocate] at outside
        exact new v slot (by omega)
      · rw [size_allocate]
        omega

/-- After a rollback a table has grown by the variables allocated since the snapshot. -/
theorem Grows.rollback {t t' : Table} (grows : t.snapshot.2.Grows t')
    : t.Grows (t'.rollback t.snapshot.1) := by
  have restores := Grows.restores grows
  have sizes : t.snapshot.2.size ≤ t'.size := Grows.size grows
  refine grows_of_unbound ?_ restores.old ?_ restores.trail restores.openSnapshots
  · rw [size_rollback]
    exact sizes
  · intro v slot outside found
    rw [restores.new v outside] at found
    obtain ⟨earlier, _, rfl⟩ := Option.map_eq_some_iff.mp found
    rfl

-----------------------------------------------------------------------------------------
-- Committing
-----------------------------------------------------------------------------------------

/-- The occurs check looks at the slots of a table only, by induction on the depth. -/
theorem occursFrom_eq_of_slots {t t' : Table} (same : t'.slots = t.slots) (v : Nat)
    (whole : OpenTy) (depth w : Nat)
    : t'.occursFrom v whole depth w = t.occursFrom v whole depth w := by
  induction depth generalizing w with
  | zero => rfl
  | succ depth ih => simp only [occursFrom, same, funext ih]

/-- The occurs check looks at the slots of a table only. -/
theorem occursCheck_eq_of_slots {t t' : Table} (same : t'.slots = t.slots) (v : Nat) (ty : OpenTy)
    : t'.occursCheck v ty = t.occursCheck v ty := by
  have sizes : t'.size = t.size := congrArg Array.size same
  simp only [occursCheck, sizes, funext (occursFrom_eq_of_slots same v ty (t.size + 1))]

/-- It makes no difference whether a variable is bound before or after a commit: the trail is
emptied in either case, or kept in either case.
-/
theorem commit_bind {t : Table} (recording : 0 < t.openSnapshots) (mark : Snapshot) (v : Nat)
    (ty : OpenTy)
    : (t.bind v ty).commit mark = (t.commit mark).bind v ty := by
  simp only [Table.commit, Table.bind, Table.mk.injEq, true_and, and_true]
  by_cases last : t.openSnapshots = 1
  · simp [last]
  · have outer : 0 < t.openSnapshots - 1 := by omega
    simp [last, recording, outer]

/-- A snapshot that is committed at once leaves no trace. -/
theorem commit_snapshot {t : Table} (settled : t.Settled)
    : t.snapshot.2.commit t.snapshot.1 = t := by
  obtain ⟨slots, trail, openSnapshots⟩ := t
  cases openSnapshots with
  | zero =>
      have empty : trail = [] := settled rfl
      rw [empty]
      rfl
  | succ outer => rfl

/-- Committing a snapshot leaves the table as if the snapshot had not been taken, by induction on
the steps since then.
-/
theorem Grows.commit {t t' : Table} (settled : t.Settled) (grows : t.snapshot.2.Grows t')
    : t.Grows (t'.commit t.snapshot.1) := by
  induction grows with
  | refl =>
      rw [commit_snapshot settled]
  | @tail middle _ earlier step ih =>
      have recording : 0 < middle.openSnapshots :=
        Grows.openSnapshots earlier ▸ Nat.succ_pos _
      refine ih.tail ?_
      cases step with
      | allocate name => exact .allocate name
      | bind step =>
          cases step with
          | bind inside unbound passed =>
              have slots : (middle.commit t.snapshot.1).slots = middle.slots := rfl
              rw [← occursCheck_eq_of_slots slots] at passed
              rw [commit_bind recording]
              exact .bind (.bind inside unbound passed)

end Table

end TypedScheme
