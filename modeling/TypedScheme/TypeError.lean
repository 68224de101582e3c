import TypedScheme.Expr.Basic

/-!
Why an expression has no type. Independent failures are gathered in one error, so errors are trees.
-/

namespace TypedScheme

inductive TypeError where
  | unboundIdentifier (id : Identifier) (pos : Position)
  /-- Two types that should be equal: two atomic types, or types of different shape. -/
  | mismatch (expected inferred : Ty) (pos : Position)
  /-- Procedure types with different numbers of parameters, or lists of types of different
  lengths, which have no types to show. -/
  | arity (expected inferred : Nat) (types : Option (Ty × Ty)) (pos : Position)
  /-- A type variable that would have to stand for a type in which it occurs. -/
  | occurs (var ty : Ty) (pos : Position)
  /-- A construct that has no type; `context` is the printed expression. -/
  | unsupported (construct reason context : String) (pos : Position)
  /-- Several failures in one expression. -/
  | multiple (context : String) (errors : List TypeError) (pos : Position)
  /-- A type that cannot be unified with anything. -/
  | badType (ty : Ty) (pos : Position)
  /-- A unification variable that is in no table. -/
  | unallocated (var : Nat) (pos : Position)
  /-- The table of variables is not in a state that an operation on it assumes. -/
  | corrupt (pos : Position)
deriving Repr

namespace TypeError

def pos : TypeError → Position
  | .unboundIdentifier _ pos | .mismatch _ _ pos | .arity _ _ _ pos | .occurs _ _ pos
  | .unsupported _ _ _ pos | .multiple _ _ pos | .badType _ pos | .unallocated _ pos
  | .corrupt pos => pos

/-- Nothing can be inferred any more after such an error. -/
def isFatal : TypeError → Bool
  | .unallocated _ _ | .corrupt _ => true
  | _ => false

mutual
/-- The single failures, in order. -/
def leaves : TypeError → List TypeError
  | .multiple _ errors _ => leavesOfAll errors
  | .unboundIdentifier id pos => [.unboundIdentifier id pos]
  | .mismatch expected inferred pos => [.mismatch expected inferred pos]
  | .arity expected inferred types pos => [.arity expected inferred types pos]
  | .occurs var ty pos => [.occurs var ty pos]
  | .unsupported construct reason context pos => [.unsupported construct reason context pos]
  | .badType ty pos => [.badType ty pos]
  | .unallocated var pos => [.unallocated var pos]
  | .corrupt pos => [.corrupt pos]

def leavesOfAll : List TypeError → List TypeError
  | [] => []
  | e :: es => e.leaves ++ leavesOfAll es
end

mutual
def message : TypeError → String
  | .unboundIdentifier id _ => "unbound identifier `" ++ id.name ++ "`"
  | .mismatch expected inferred _ =>
      (if expected.isAtomic && inferred.isAtomic then "incompatible atomic types"
        else "incompatible type structures")
      ++ ": expected `" ++ expected.text ++ "`, found `" ++ inferred.text ++ "`"
  | .arity _ _ (some (expected, inferred)) _ =>
      "wrong number of arguments: expected `" ++ expected.text ++ "`, found `" ++ inferred.text
        ++ "`"
  | .arity expected inferred none _ =>
      "wrong number of arguments: expected " ++ toString expected ++ " type(s), found "
        ++ toString inferred
  | .occurs var ty _ => "occurs check failed: `" ++ var.text ++ "` occurs in `" ++ ty.text ++ "`"
  | .unsupported construct reason _ _ => "unsupported construct `" ++ construct ++ "`: " ++ reason
  | .multiple context errors _ =>
      "errors while checking `" ++ context ++ "`: " ++ messages errors
  | .badType ty _ => "bad type expression `" ++ ty.text ++ "`"
  | .unallocated var _ => "no unification variable `" ++ toString var ++ "`"
  | .corrupt _ => "corrupt table of unification variables"

def messages : List TypeError → String
  | [] => ""
  | [e] => e.message
  | e :: es => e.message ++ "; " ++ messages es
end

end TypeError

end TypedScheme
