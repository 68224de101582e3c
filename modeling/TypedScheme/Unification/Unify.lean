import TypedScheme.Unification.Table

/-!
Unification: two types are made equal by binding variables. The parts of two procedure types are
unified one after the other, also after a failure, so that all failures are found.
-/

namespace TypedScheme

/-- In each case the expected type is the first of the two that were unified. -/
inductive UnifyError where
  /-- Two atomic types, or two types of different shape. -/
  | mismatch (expected inferred : OpenTy)
  /-- Procedure types with different numbers of parameters, or lists of different lengths, which
  have no types to show. -/
  | arity (expected inferred : Nat) (types : Option (OpenTy × OpenTy))
  /-- The variable occurs in the type that it would be bound to. -/
  | occurs (var : Nat) (ty : OpenTy)
  /-- A name or a wildcard where only variables belong. -/
  | badType (ty : OpenTy)
  | multiple (errors : List UnifyError)
  /-- A variable that the table does not hold. -/
  | unallocated (var : Nat)
  /-- A variable that was to be bound and may not be. -/
  | rebound (var : Nat)

/-- Nothing can be unified any more after such an error. -/
def UnifyError.isFatal : UnifyError → Bool
  | .unallocated _ | .rebound _ => true
  | _ => false

/-- Computations that bind variables of a table and may fail. A failure keeps the bindings made
before it. -/
abbrev Unify := EStateM UnifyError Table

namespace Unify

/-- The failures of a computation, which goes on. Only a fatal error stops everything. -/
def failures (x : Unify Unit) : Unify (List UnifyError) := fun t =>
  match x t with
  | .ok () t => .ok [] t
  | .error e t => if e.isFatal then .error e t else .ok [e] t

/-- Fails if there was a failure. -/
def report : List UnifyError → Unify Unit
  | [] => pure ()
  | errors => throw (.multiple errors)

end Unify

mutual
/-- Visits the parts of a type from left to right until one is refused. -/
def OpenTy.check (onVar : Nat → Except UnifyError Unit) : OpenTy → Except UnifyError Unit
  | .var v => onVar v
  | .atomic _ => .ok ()
  | .named name => .error (.badType (.named name))
  | .wildcard => .error (.badType .wildcard)
  | .procedure params result => do
      OpenTy.checkAll onVar params
      result.check onVar

def OpenTy.checkAll (onVar : Nat → Except UnifyError Unit) : List OpenTy → Except UnifyError Unit
  | [] => .ok ()
  | t :: ts => do
      t.check onVar
      OpenTy.checkAll onVar ts
end

namespace Table

/-- Refuses a variable through which `v` can be reached, with bindings followed to so many
levels. -/
def occursFrom (t : Table) (v : Nat) (whole : OpenTy) : Nat → Nat → Except UnifyError Unit
  | 0, _ => .error (.occurs v whole)
  | depth + 1, w =>
      if w = v then .error (.occurs v whole)
      else
        match t.slots[w]? with
        | none => .error (.unallocated w)
        | some slot =>
            match slot.binding with
            | none => .ok ()
            | some ty => ty.check (t.occursFrom v whole depth)

/-- Refuses a type in which a variable occurs, be it through bindings. -/
def occursCheck (t : Table) (v : Nat) (ty : OpenTy) : Except UnifyError Unit :=
  ty.check (t.occursFrom v ty (t.size + 1))

end Table

namespace Unify

/-- The root of a type in the current table, which must hold it if it is a variable. -/
def root (ty : OpenTy) : Unify OpenTy := fun t =>
  match t.root ty with
  | .var v => if v < t.size then .ok (.var v) t else .error (.unallocated v) t
  | ty => .ok ty t

/-- Binds an unbound variable to a type, unless the type is the variable itself. -/
def solve (v : Nat) (target : OpenTy) : Unify Unit := do
  let target ← root target
  if target = .var v then pure ()
  else fun t =>
    match t.occursCheck v target with
    | .error e => .error e t
    | .ok () => if t.canBind v then .ok () (t.bind v target) else .error (.rebound v) t

mutual
/-- Unifies two types. Where the first is a bound variable, `through` unifies what it is bound to. -/
def typesWith (through : OpenTy → OpenTy → Unify Unit) : OpenTy → OpenTy → Unify Unit
  | .var v, b => do
      match ← root (.var v) with
      | .var v => solve v b
      | a => through a b
  | .atomic a, b => do
      match ← root b with
      | .var w => solve w (.atomic a)
      | b => if b = .atomic a then pure () else throw (.mismatch (.atomic a) b)
  | .procedure params result, b => do
      match ← root b with
      | .var w => solve w (.procedure params result)
      | .procedure params' result' =>
          if params.length = params'.length then do
            let errors ← pairsWith through params params'
            let error ← failures (typesWith through result result')
            report (errors ++ error)
          else
            throw (.arity params.length params'.length
              (some (.procedure params result, .procedure params' result')))
      | b => throw (.mismatch (.procedure params result) b)
  | .named name, b => do
      match ← root b with
      | .var w => solve w (.named name)
      | b => throw (.mismatch (.named name) b)
  | .wildcard, b => do
      match ← root b with
      | .var w => solve w .wildcard
      | b => throw (.mismatch .wildcard b)

/-- Unifies the types of two lists pair by pair and collects the failures. -/
def pairsWith (through : OpenTy → OpenTy → Unify Unit)
    : List OpenTy → List OpenTy → Unify (List UnifyError)
  | a :: as, b :: bs => do
      let error ← failures (typesWith through a b)
      let errors ← pairsWith through as bs
      pure (error ++ errors)
  | _, _ => pure []
end

/-- Unification with bindings of the first type followed to so many levels. -/
def typesTo : Nat → OpenTy → OpenTy → Unify Unit
  | 0 => fun a b => throw (.mismatch a b)
  | depth + 1 => typesWith (typesTo depth)

/-- Unifies two types. A binding of the first type is never met again inside what it is bound to, so
the size of the table bounds the levels. -/
def types (a b : OpenTy) : Unify Unit := fun t => typesTo (t.size + 1) a b t

/-- Unifies two lists of types pair by pair. All pairs are tried. -/
def allTypes (as bs : List OpenTy) : Unify Unit :=
  if as.length = bs.length then fun t =>
    (do
      let errors ← pairsWith (typesTo t.size) as bs
      report errors : Unify Unit) t
  else throw (.arity as.length bs.length none)

/-- Makes a variable equal to a type: what it is bound to is unified with the type, or it is
bound. -/
def assign (v : Nat) (target : OpenTy) : Unify Unit := fun t =>
  match t.slots[v]? with
  | none => .error (.unallocated v) t
  | some slot =>
      match slot.binding with
      | some ty => types ty target t
      | none => solve v target t

end Unify

end TypedScheme
