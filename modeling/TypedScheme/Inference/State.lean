import TypedScheme.Expr.Printer
import TypedScheme.TypeError
import TypedScheme.Unification.Unify

/-!
The state of an inference: the table of variables, the variables of the names met in written types,
and a log of what happened.
-/

namespace TypedScheme

/-- What the log of an inference tells. -/
inductive Event where
  /-- The type of an expression of this shape is being inferred. -/
  | typing (shape : String)
  | fresh (var : Nat)
  /-- A variable was allocated for a name. -/
  | named (var : Nat) (name : String)
  | bound (name : String) (ty : OpenTy)
  /-- The binding of a variable was undone. -/
  | undone (name : String)

namespace Event

def level : Event → String
  | .typing _ => "TRACE"
  | _ => "DEBUG"

def message : Event → String
  | .typing shape => "typing " ++ shape
  | .fresh var => "fresh unification variable UnifVar(" ++ toString var ++ ")"
  | .named var name => "unification variable " ++ toString var ++ " for type variable " ++ name
  | .bound name ty => "binding " ++ name ++ " to " ++ ty.logText
  | .undone name => "rolling back the binding of " ++ name

end Event

structure State where
  table : Table
  /-- The variable of each name met so far. -/
  names : List (String × Nat)
  log : Array Event

namespace State

def empty : State := ⟨.empty, [], #[]⟩

/-- Allocates a variable without a name. -/
def fresh (s : State) : OpenTy × State :=
  let (v, table) := s.table.allocate none
  (.var v, { s with table := table, log := s.log.push (.fresh v) })

/-- The variable of a name, which is allocated when the name is first met. -/
def named (s : State) (name : String) : OpenTy × State :=
  match s.names.lookup name with
  | some v => (.var v, s)
  | none =>
      let (v, table) := s.table.allocate (some name)
      (.var v, ⟨table, (name, v) :: s.names, s.log.push (.named v name)⟩)

mutual
/-- A written type as an open type: each name becomes its variable and each wildcard a variable of
its own. -/
def convert (s : State) : Ty → OpenTy × State
  | .atomic a => (.atomic a, s)
  | .named name => s.named name
  | .wildcard => s.fresh
  | .procedure params result =>
      let (params, s) := s.convertAll params
      let (result, s) := s.convert result
      (.procedure params result, s)

def convertAll (s : State) : List Ty → List OpenTy × State
  | [] => ([], s)
  | t :: ts =>
      let (t, s) := s.convert t
      let (ts, s) := s.convertAll ts
      (t :: ts, s)
end

/-- Allocates so many variables without names. -/
def freshMany (s : State) : Nat → State
  | 0 => s
  | n + 1 => s.fresh.2.freshMany n

end State

namespace UnifyError

mutual
/-- The first variable met in the types of an error that the table does not hold. -/
def stray? (t : Table) : UnifyError → Option Nat
  | .mismatch expected inferred => (t.stray? expected).or (t.stray? inferred)
  | .arity _ _ none => none
  | .arity _ _ (some (expected, inferred)) => (t.stray? expected).or (t.stray? inferred)
  | .occurs var ty => (t.stray? (.var var)).or (t.stray? ty)
  | .badType ty => t.stray? ty
  | .multiple errors => strayAmong? t errors
  | .unallocated var => some var
  | .rebound _ => none

def strayAmong? (t : Table) : List UnifyError → Option Nat
  | [] => none
  | e :: es => (e.stray? t).or (strayAmong? t es)
end

/-- Expressions are shown in errors with at most so many characters. -/
def contextWidth : Nat := 80

mutual
/-- An error with its types resolved and the expression in which it arose. -/
def toTypeError (t : Table) (context : Expr) : UnifyError → TypeError
  | .mismatch expected inferred => .mismatch (t.toTy expected) (t.toTy inferred) context.pos
  | .arity expected inferred types =>
      .arity expected inferred (types.map fun (a, b) => (t.toTy a, t.toTy b)) context.pos
  | .occurs var ty => .occurs (t.toTy (.var var)) (t.toTy ty) context.pos
  | .badType ty => .badType (t.toTy ty) context.pos
  | .multiple errors =>
      .multiple (Text.cap contextWidth context.text) (toTypeErrors t context errors) context.pos
  | .unallocated var => .unallocated var context.pos
  | .rebound _ => .corrupt context.pos

def toTypeErrors (t : Table) (context : Expr) : List UnifyError → List TypeError
  | [] => []
  | e :: es => e.toTypeError t context :: toTypeErrors t context es
end

/-- Types can only be resolved if the table holds their variables. -/
def explain (t : Table) (context : Expr) (e : UnifyError) : TypeError :=
  match e.stray? t with
  | some var => .unallocated var context.pos
  | none => e.toTypeError t context

end UnifyError

/-- Computations of an inference. A failure keeps the state reached. -/
abbrev Infer := EStateM TypeError State

namespace Infer

def ofState {α : Type} (f : State → α × State) : Infer α := fun s =>
  let (a, s) := f s
  .ok a s

def note (event : Event) : Infer Unit :=
  modify fun s => { s with log := s.log.push event }

def fresh : Infer OpenTy := ofState State.fresh

def convert (ty : Ty) : Infer OpenTy := ofState (·.convert ty)

def convertAll (tys : List Ty) : Infer (List OpenTy) := ofState (·.convertAll tys)

/-- The result of a computation as a value, so that the inference can go on after a failure. -/
def attempt {α : Type} (x : Infer α) : Infer (Except TypeError α) := fun s =>
  match x s with
  | .ok a s => .ok (.ok a) s
  | .error e s => if e.isFatal then .error e s else .ok (.error e) s

/-- The log of the bindings made since a snapshot. -/
def boundEvents (t : Table) (s : Snapshot) : List Event :=
  (t.boundSince s).filterMap fun v => (t.binding? v).map (.bound (t.nameOf v))

def undoneEvents (t : Table) (s : Snapshot) : List Event :=
  (t.boundSince s).map fun v => .undone (t.nameOf v)

/-- Runs a unification; if it fails, all its bindings are undone. The error is explained before that,
so that its types show the bindings. -/
def transaction (x : Unify Unit) (context : Expr) : Infer Unit := fun s =>
  let (mark, table) := s.table.snapshot
  match x table with
  | .ok () table =>
      if table.canClose mark then
        .ok () { s with
          table := table.commit mark
          log := s.log.append (boundEvents table mark).toArray }
      else .error (.corrupt context.pos) s
  | .error e table =>
      if table.canClose mark then
        .error (e.explain table context) { s with
          table := table.rollback mark
          log := s.log.append (boundEvents table mark ++ undoneEvents table mark).toArray }
      else .error (.corrupt context.pos) s

/-- Makes two types equal, or fails and changes nothing. -/
def unify (a b : OpenTy) (context : Expr) : Infer Unit := transaction (Unify.types a b) context

/-- Makes the types of two lists equal pair by pair, or fails and changes nothing. -/
def unifyAll (as bs : List OpenTy) (context : Expr) : Infer Unit :=
  transaction (Unify.allTypes as bs) context

/-- Makes two inferred types equal. An error of the first comes before one of the second. -/
def checkEqual (a b : Except TypeError OpenTy) (context : Expr) : Infer Unit := do
  let a ← ofExcept a
  let b ← ofExcept b
  unify a b context

end Infer

end TypedScheme
