import TypedScheme.Datum.Basic
import TypedScheme.ParseError
import TypedScheme.Ty.Basic

/-!
Type expressions: types as they stand in a source text, each part with its position.
-/

namespace TypedScheme

inductive TypeExpr where
  | atomic (pos : Position) (atomic : Atomic)
  | named (pos : Position) (name : String)
  | wildcard (pos : Position)
  | procedure (pos : Position) (params : List TypeExpr) (result : TypeExpr)
deriving Repr

namespace TypeExpr

/-- The type of a declaration where none is written. -/
def missing : TypeExpr := .wildcard none

mutual
/-- The type without its positions. -/
def ty : TypeExpr → Ty
  | .atomic _ a => .atomic a
  | .named _ name => .named name
  | .wildcard _ => .wildcard
  | .procedure _ params result => .procedure (tys params) result.ty

def tys : List TypeExpr → List Ty
  | [] => []
  | a :: as => a.ty :: tys as
end

def isWildcard : TypeExpr → Bool
  | .wildcard _ => true
  | _ => false

/-- Symbols that separate the parts of a type and so are no names. -/
def markers : List String := ["->", "*", ":", "Empty"]

/-- Neither a type variable nor a declared variable has such a name. -/
def isReserved (name : String) : Bool :=
  markers.contains name || (Atomic.ofName? name).isSome

/-- The second to last element must be the arrow. -/
def endsWithArrow : List Datum → Bool
  | [] | [_] => false
  | [arrow, _] => arrow.isSymbol "->"
  | _ :: rest => endsWithArrow rest

/-- The shape of a procedure type, which is checked before its parts. -/
def shapeError? (items : List Datum) : Option String :=
  if !endsWithArrow items then some "expected a procedure type `(t1 * ... * tn -> t)`"
  else if items.length = 2 then
    some "a procedure type without parameters is written `(Empty -> t)`"
  else if items.length % 2 = 0 then some "parameter types must be separated by `*`"
  else none

mutual
/-- Reads a type from a datum. -/
def ofDatum : Datum → Except ParseError TypeExpr
  | .symbol pos name =>
      match Atomic.ofName? name with
      | some a => .ok (.atomic pos a)
      | none =>
          if markers.contains name then
            .error (.malformedType pos ("`" ++ name ++ "` can't be used as a type"))
          else .ok (.named pos name)
  | .list pos items =>
      match shapeError? items with
      | some detail => .error (.malformedType pos detail)
      | none => do
          let (params, result) ← signature true items
          pure (.procedure pos params result)
  | .number pos _ | .boolean pos _ | .string pos _ =>
      .error (.malformedType pos "expected a type")

/-- The parameters and the result of a procedure type whose shape is right. Only `leading`, before
any parameter, does `Empty` say that there are none. -/
def signature (leading : Bool) : List Datum → Except ParseError (List TypeExpr × TypeExpr)
  | [param, _, result] =>
      if leading && param.isSymbol "Empty" then do
        let result ← ofDatum result
        pure ([], result)
      else do
        let param ← ofDatum param
        let result ← ofDatum result
        pure ([param], result)
  | param :: star :: rest => do
      let param ← ofDatum param
      if star.isSymbol "*" then
        let (params, result) ← signature false rest
        pure (param :: params, result)
      else .error (.malformedType star.pos "expected `*` between parameter types")
  | _ => .ok ([], missing)
end

end TypeExpr

end TypedScheme
