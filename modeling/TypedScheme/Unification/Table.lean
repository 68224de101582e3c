import TypedScheme.Unification.OpenTy

/-!
The table of unification variables. A variable is unbound or bound to an open type. While snapshots
are open, a trail remembers the bindings made, so that they can be undone.
-/

namespace TypedScheme

structure Slot where
  /-- The name that the variable stands for, if it was written in a type. -/
  name : Option String
  binding : Option OpenTy

/-- A point in the history of a table, given by the length of its trail. -/
structure Snapshot where
  trailLength : Nat
deriving DecidableEq, Repr

structure Table where
  slots : Array Slot
  /-- The variables bound since the oldest open snapshot, last first. -/
  trail : List Nat
  openSnapshots : Nat

namespace Table

def empty : Table := ⟨#[], [], 0⟩

def size (t : Table) : Nat := t.slots.size

/-- The type that a variable is bound to. -/
def binding? (t : Table) (v : Nat) : Option OpenTy := t.slots[v]?.bind Slot.binding

/-- The printed name of a variable: its own, or one made from its number. -/
def nameOf (t : Table) (v : Nat) : String :=
  (t.slots[v]?.bind Slot.name).getD ("T_" ++ toString v)

/-- Adds an unbound variable. -/
def allocate (t : Table) (name : Option String) : Nat × Table :=
  (t.size, { t with slots := t.slots.push ⟨name, none⟩ })

/-- Binds a variable, and remembers it if a snapshot is open. -/
def bind (t : Table) (v : Nat) (ty : OpenTy) : Table :=
  { t with
    slots := t.slots.modify v fun slot => { slot with binding := some ty }
    trail := if 0 < t.openSnapshots then v :: t.trail else t.trail }

/-- Only an unbound variable of the table may be bound. -/
def canBind (t : Table) (v : Nat) : Bool := t.slots[v]?.any fun slot => slot.binding.isNone

def unbind (slots : Array Slot) (v : Nat) : Array Slot :=
  slots.modify v fun slot => { slot with binding := none }

def snapshot (t : Table) : Snapshot × Table :=
  (⟨t.trail.length⟩, { t with openSnapshots := t.openSnapshots + 1 })

/-- A snapshot may be closed while it is open and the trail holds all that was bound before it. -/
def canClose (t : Table) (s : Snapshot) : Bool :=
  0 < t.openSnapshots && s.trailLength ≤ t.trail.length

/-- Keeps the bindings made since a snapshot. They can still be undone by an outer one. -/
def commit (t : Table) (_ : Snapshot) : Table :=
  { t with
    trail := if t.openSnapshots = 1 then [] else t.trail
    openSnapshots := t.openSnapshots - 1 }

/-- The variables bound since a snapshot, first one first. -/
def boundSince (t : Table) (s : Snapshot) : List Nat :=
  (t.trail.take (t.trail.length - s.trailLength)).reverse

/-- Undoes the bindings made since a snapshot. -/
def rollback (t : Table) (s : Snapshot) : Table :=
  { slots := (t.boundSince s).foldl unbind t.slots
    trail := t.trail.drop (t.trail.length - s.trailLength)
    openSnapshots := t.openSnapshots - 1 }

/-- Follows bindings from variable to variable, for so many steps at most. -/
def follow (t : Table) : Nat → Nat → OpenTy
  | 0, v => .var v
  | steps + 1, v =>
      match t.binding? v with
      | none => .var v
      | some (.var w) => t.follow steps w
      | some ty => ty

/-- The unbound variable or the type other than a variable at the end of the bindings. No chain of
bindings visits a variable twice, so the size of the table bounds its length. -/
def root (t : Table) : OpenTy → OpenTy
  | .var v => t.follow t.size v
  | ty => ty

/-- What a variable stands for, with bindings followed to so many levels. -/
def resolveVar (t : Table) : Nat → Nat → OpenTy
  | 0, v => .var v
  | depth + 1, v =>
      match t.binding? v with
      | none => .var v
      | some ty => ty.subst (t.resolveVar depth)

/-- A type with its bound variables replaced by what they stand for. -/
def resolve (t : Table) (ty : OpenTy) : OpenTy := ty.subst (t.resolveVar t.size)

/-- The first variable met in a type or in the bindings behind it that the table does not hold. -/
def stray? (t : Table) (ty : OpenTy) : Option Nat := (t.resolve ty).stray? t.size

/-- The resolved type with the names of its variables. -/
def toTy (t : Table) (ty : OpenTy) : Ty := (t.resolve ty).toTy t.nameOf

end Table

end TypedScheme
