import Mathlib.Data.Finset.Card
import Mathlib.Data.Finset.Range
import Mathlib.Logic.Relation
import TypedScheme.Proofs.Unification.Substitution
import TypedScheme.Unification.Table

/-! The graph of bindings: an edge leads from a bound variable to each variable of its type.
A grounded table has no cycle in this graph, so every variable has a height below the size of the
table, which bounds all walks along bindings.
-/

namespace TypedScheme

namespace Table

-----------------------------------------------------------------------------------------
-- Sizes and bindings after each operation of the table
-----------------------------------------------------------------------------------------

/-- Only variables of the table are bound. -/
theorem binding?_of_size_le {t : Table} {v : Nat} (outside : t.size ≤ v) : t.binding? v = none := by
  have absent : t.slots[v]? = none := Array.getElem?_eq_none outside
  simp [binding?, absent]

/-- A bound variable is one of the table. -/
theorem lt_size_of_binding? {t : Table} {v : Nat} {ty : OpenTy}
    (bound : t.binding? v = some ty)
    : v < t.size := by
  by_contra outside
  rw [binding?_of_size_le (Nat.le_of_not_lt outside)] at bound
  cases bound

/-- Allocation adds one variable. -/
@[simp]
theorem size_allocate (t : Table) (name : Option String)
    : (t.allocate name).2.size = t.size + 1 := by
  simp [allocate, size]

/-- Binding adds no variable. -/
@[simp]
theorem size_bind (t : Table) (v : Nat) (ty : OpenTy) : (t.bind v ty).size = t.size := by
  simp [bind, size]

/-- A snapshot adds no variable. -/
@[simp]
theorem size_snapshot (t : Table) : t.snapshot.2.size = t.size := rfl

/-- Nor does a commit. -/
@[simp]
theorem size_commit (t : Table) (mark : Snapshot) : (t.commit mark).size = t.size := rfl

/-- Undoing bindings takes no variable away, by induction on the variables undone. -/
theorem size_foldl_unbind (vs : List Nat) (slots : Array Slot)
    : (vs.foldl unbind slots).size = slots.size := by
  induction vs generalizing slots with
  | nil => rfl
  | cons v vs ih => simp [ih, unbind]

/-- Nor does a rollback. -/
@[simp]
theorem size_rollback (t : Table) (mark : Snapshot) : (t.rollback mark).size = t.size := by
  simp [rollback, size, size_foldl_unbind]

/-- Nothing is bound in the empty table. -/
@[simp]
theorem binding?_empty (v : Nat) : empty.binding? v = none := by
  simp [binding?, empty]

/-- A new variable is unbound, and the others stay as they are. -/
@[simp]
theorem binding?_allocate (t : Table) (name : Option String) (v : Nat)
    : (t.allocate name).2.binding? v = t.binding? v := by
  simp only [binding?, allocate, Array.getElem?_push]
  split
  · rename_i new
    have absent : t.slots[v]? = none := Array.getElem?_eq_none (Nat.le_of_eq new.symm)
    simp [absent]
  · rfl

/-- A binding changes that of its own variable only. -/
theorem binding?_bind {t : Table} {v : Nat} (allocated : v < t.size) (ty : OpenTy) (w : Nat)
    : (t.bind v ty).binding? w = if v = w then some ty else t.binding? w := by
  simp only [binding?, bind, Array.getElem?_modify]
  by_cases same : v = w
  · subst same
    have present : t.slots[v]? = some t.slots[v] := Array.getElem?_eq_getElem allocated
    simp [present]
  · simp [same]

/-- An unbound variable of the table may be bound. -/
theorem canBind_of_unbound {t : Table} {v : Nat} (allocated : v < t.size)
    (unbound : t.binding? v = none)
    : t.canBind v = true := by
  have present : t.slots[v]? = some t.slots[v] := Array.getElem?_eq_getElem allocated
  have free : t.slots[v].binding = none := by simpa [binding?, present] using unbound
  simp [canBind, present, free]

/-- A snapshot leaves all bindings as they are. -/
@[simp]
theorem binding?_snapshot (t : Table) (v : Nat)
    : t.snapshot.2.binding? v = t.binding? v := rfl

/-- So does a commit. -/
@[simp]
theorem binding?_commit (t : Table) (mark : Snapshot) (v : Nat)
    : (t.commit mark).binding? v = t.binding? v := rfl

/-- Undoing bindings adds none, by induction on the variables undone. -/
theorem binding_foldl_unbind {vs : List Nat} {slots : Array Slot} {v : Nat} {ty : OpenTy}
    (bound : (vs.foldl unbind slots)[v]?.bind Slot.binding = some ty)
    : slots[v]?.bind Slot.binding = some ty := by
  induction vs generalizing slots with
  | nil => exact bound
  | cons w vs ih =>
      have kept := ih bound
      rw [unbind, Array.getElem?_modify] at kept
      by_cases same : w = v
      · cases slot : slots[v]? <;> simp [same, slot] at kept
      · simpa [same] using kept

/-- Undoing bindings adds none, by induction on the variables undone. -/
theorem binding?_of_rollback {t : Table} {mark : Snapshot} {v : Nat} {ty : OpenTy}
    (bound : (t.rollback mark).binding? v = some ty)
    : t.binding? v = some ty :=
  binding_foldl_unbind bound

/-- The name that a variable was allocated for. -/
def name? (t : Table) (v : Nat) : Option String := t.slots[v]?.bind Slot.name

/-- A new variable has the name that it was allocated with. -/
theorem name?_allocate (t : Table) (name : Option String) (v : Nat)
    : (t.allocate name).2.name? v = if v = t.size then name else t.name? v := by
  by_cases new : v = t.size
  · simp [name?, allocate, new, size]
  · simp [name?, allocate, Array.getElem?_push, new, show v ≠ t.slots.size from new]

/-- A binding leaves all names as they are. -/
@[simp]
theorem name?_bind (t : Table) (v : Nat) (ty : OpenTy) (w : Nat)
    : (t.bind v ty).name? w = t.name? w := by
  simp only [name?, bind, Array.getElem?_modify]
  split
  · cases t.slots[w]? with
    | none => rfl
    | some slot => rfl
  · rfl

-----------------------------------------------------------------------------------------
-- Edges and well-formed tables
-----------------------------------------------------------------------------------------

/-- The variable `w` occurs in the type that `v` is bound to. -/
def Edge (t : Table) (v w : Nat) : Prop := ∃ ty, t.binding? v = some ty ∧ w ∈ ty.vars

/-- From `v` one comes to `w` by following bindings and going down procedure types. -/
abbrev Reaches (t : Table) : Nat → Nat → Prop := Relation.ReflTransGen t.Edge

/-- The bindings form no cycle and mention only variables of the table. -/
structure Grounded (t : Table) : Prop where
  acyclic : ∀ v, ¬ Relation.TransGen t.Edge v v
  allocated : ∀ {v ty}, t.binding? v = some ty → ty.Below t.size

/-- Besides, the bindings hold no name and no wildcard. -/
structure WellFormed (t : Table) : Prop extends Grounded t where
  plain : ∀ {v ty}, t.binding? v = some ty → ty.isPlain = true

/-- The empty table has no edges. -/
theorem empty_wellFormed : empty.WellFormed where
  acyclic := by
    intro v cycle
    obtain ⟨w, ⟨ty, bound, _⟩, _⟩ := Relation.TransGen.head'_iff.mp cycle
    simp at bound
  allocated := by
    intro v ty bound
    simp at bound
  plain := by
    intro v ty bound
    simp at bound

/-- A table with fewer bindings or more variables stays well formed: its graph has no new edge. -/
theorem WellFormed.of_fewer {t t' : Table} (wf : t.WellFormed) (le : t.size ≤ t'.size)
    (fewer : ∀ {v ty}, t'.binding? v = some ty → t.binding? v = some ty)
    : t'.WellFormed where
  acyclic v cycle := by
    have known : ∀ x y, t'.Edge x y → t.Edge x y :=
      fun _ _ ⟨ty, bound, occurs⟩ => ⟨ty, fewer bound, occurs⟩
    exact wf.acyclic v (cycle.lift id known)
  allocated bound := (wf.allocated (fewer bound)).mono le
  plain bound := wf.plain (fewer bound)

/-- A new variable is unbound and adds no edge. -/
theorem WellFormed.allocate {t : Table} (wf : t.WellFormed) (name : Option String)
    : (t.allocate name).2.WellFormed :=
  wf.of_fewer (by simp) (by simp)

/-- A snapshot keeps the table well formed. -/
theorem WellFormed.snapshot {t : Table} (wf : t.WellFormed) : t.snapshot.2.WellFormed :=
  wf.of_fewer (by simp) (by simp)

/-- So does a commit. -/
theorem WellFormed.commit {t : Table} (wf : t.WellFormed) (mark : Snapshot)
    : (t.commit mark).WellFormed :=
  wf.of_fewer (by simp) (by simp)

/-- A rollback takes edges away, so that none closes a cycle. -/
theorem WellFormed.rollback {t : Table} (wf : t.WellFormed) (mark : Snapshot)
    : (t.rollback mark).WellFormed :=
  wf.of_fewer (by simp) binding?_of_rollback

/-- An edge after binding `v` is an old one or leads from `v` into its new type. -/
theorem edge_bind {t : Table} {v : Nat} {ty : OpenTy} (allocated : v < t.size) {x y : Nat}
    (edge : (t.bind v ty).Edge x y)
    : t.Edge x y ∨ x = v ∧ y ∈ ty.vars := by
  obtain ⟨found, bound, occurs⟩ := edge
  rw [binding?_bind allocated] at bound
  by_cases same : v = x
  · have eq : ty = found := by simpa [same] using bound
    exact .inr ⟨same.symm, eq ▸ occurs⟩
  · exact .inl ⟨found, by simpa [same] using bound, occurs⟩

/-- A path after binding `v` is an old one, or an old one to `v` and an old one out of its type.
The induction is on the path; a second visit of `v` would close an old path from the type to `v`.
-/
theorem reaches_bind {t : Table} {v : Nat} {ty : OpenTy} (allocated : v < t.size)
    (apart : ∀ w ∈ ty.vars, ¬ t.Reaches w v) {x y : Nat}
    (path : (t.bind v ty).Reaches x y)
    : t.Reaches x y ∨ t.Reaches x v ∧ ∃ w ∈ ty.vars, t.Reaches w y := by
  induction path with
  | refl => exact .inl .refl
  | tail _ edge ih =>
      rcases edge_bind allocated edge with old | ⟨rfl, occurs⟩
      · rcases ih with direct | ⟨toV, w, inType, fromType⟩
        · exact .inl (direct.tail old)
        · exact .inr ⟨toV, w, inType, fromType.tail old⟩
      · rcases ih with direct | ⟨_, w, inType, fromType⟩
        · exact .inr ⟨direct, _, occurs, .refl⟩
        · exact absurd fromType (apart w inType)

/-- Binding a variable to a type from which it cannot be reached closes no cycle. -/
theorem bind_acyclic {t : Table} {v : Nat} {ty : OpenTy}
    (acyclic : ∀ x, ¬ Relation.TransGen t.Edge x x) (allocated : v < t.size)
    (apart : ∀ w ∈ ty.vars, ¬ t.Reaches w v) (x : Nat)
    : ¬ Relation.TransGen (t.bind v ty).Edge x x := by
  intro cycle
  obtain ⟨y, path, edge⟩ := Relation.TransGen.tail'_iff.mp cycle
  rcases edge_bind allocated edge with old | ⟨rfl, occurs⟩
  · rcases reaches_bind allocated apart path with direct | ⟨toV, w, inType, fromType⟩
    · exact acyclic x (Relation.TransGen.tail' direct old)
    · exact apart w inType ((fromType.tail old).trans toV)
  · rcases reaches_bind allocated apart path with direct | ⟨_, w, inType, fromType⟩
    · exact apart x occurs direct
    · exact apart w inType fromType

/-- A variable may be bound to a type over variables of the table that do not lead back to it. -/
theorem Grounded.bind {t : Table} {v : Nat} {ty : OpenTy} (grounded : t.Grounded)
    (allocated : v < t.size) (below : ty.Below t.size) (apart : ∀ w ∈ ty.vars, ¬ t.Reaches w v)
    : (t.bind v ty).Grounded where
  acyclic := bind_acyclic grounded.acyclic allocated apart
  allocated := by
    intro w found bound
    rw [binding?_bind allocated] at bound
    rw [size_bind]
    split at bound
    · exact Option.some.inj bound ▸ below
    · exact grounded.allocated bound

/-- If the type is plain too, the table stays well formed. -/
theorem WellFormed.bind {t : Table} {v : Nat} {ty : OpenTy} (wf : t.WellFormed)
    (allocated : v < t.size) (below : ty.Below t.size) (plain : ty.isPlain = true)
    (apart : ∀ w ∈ ty.vars, ¬ t.Reaches w v)
    : (t.bind v ty).WellFormed where
  toGrounded := wf.toGrounded.bind allocated below apart
  plain := by
    intro w found bound
    rw [binding?_bind allocated] at bound
    split at bound
    · exact Option.some.inj bound ▸ plain
    · exact wf.plain bound

-----------------------------------------------------------------------------------------
-- Heights
-----------------------------------------------------------------------------------------

open Classical in
/-- The variables that lie below a variable in the graph. -/
noncomputable def beneath (t : Table) (v : Nat) : Finset Nat :=
  (Finset.range t.size).filter fun w => Relation.TransGen t.Edge v w

/-- What lies beneath a variable are the variables of the table that it leads to. -/
theorem mem_beneath {t : Table} {v w : Nat}
    : w ∈ t.beneath v ↔ w < t.size ∧ Relation.TransGen t.Edge v w := by
  simp [beneath]

noncomputable def height (t : Table) (v : Nat) : Nat := (t.beneath v).card

/-- An edge leads to a smaller height: what lies below its target lies below its source, and the
target itself does too.
-/
theorem Grounded.height_lt {t : Table} (grounded : t.Grounded) {v w : Nat} (edge : t.Edge v w)
    : t.height w < t.height v := by
  have inside : w < t.size := by
    obtain ⟨ty, bound, occurs⟩ := edge
    exact grounded.allocated bound w occurs
  apply Finset.card_lt_card
  refine Finset.ssubset_iff_subset_ne.mpr ⟨?_, ?_⟩
  · intro x member
    obtain ⟨small, path⟩ := mem_beneath.mp member
    exact mem_beneath.mpr ⟨small, Relation.TransGen.head edge path⟩
  · intro same
    have target : w ∈ t.beneath v := mem_beneath.mpr ⟨inside, .single edge⟩
    rw [← same] at target
    exact grounded.acyclic w (mem_beneath.mp target).2

/-- A variable of the table does not lie below itself, so its height is below the size. -/
theorem Grounded.height_lt_size {t : Table} (grounded : t.Grounded) {v : Nat}
    (inside : v < t.size)
    : t.height v < t.size := by
  have strict : t.beneath v ⊂ Finset.range t.size := by
    refine Finset.ssubset_iff_subset_ne.mpr ⟨?_, ?_⟩
    · intro w member
      exact Finset.mem_range.mpr (mem_beneath.mp member).1
    · intro same
      have self := Finset.mem_range.mpr inside
      rw [← same] at self
      exact grounded.acyclic v (mem_beneath.mp self).2
  simpa [height] using Finset.card_lt_card strict

end Table

end TypedScheme
