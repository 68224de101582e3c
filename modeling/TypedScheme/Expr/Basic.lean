import TypedScheme.Datum.Basic
import TypedScheme.Expr.Primitive
import TypedScheme.Ty.TypeExpr

/-!
Expressions of the language, each with its position.
-/

namespace TypedScheme

/-- A name at one place of the source. -/
structure Identifier where
  name : String
  pos : Position
deriving DecidableEq, Repr

/-- Two occurrences of one name are the same identifier. -/
def Identifier.same (a b : Identifier) : Bool := a.name = b.name

/-- A declared variable and the type written for it. -/
structure Declaration where
  id : Identifier
  type : TypeExpr
deriving Repr

inductive Expr where
  | number (pos : Position) (value : Number)
  | boolean (pos : Position) (value : Bool)
  | string (pos : Position) (value : String)
  | primitive (pos : Position) (op : Primitive)
  | var (pos : Position) (id : Identifier)
  | conditional (pos : Position) (test yes no : Expr)
  | lambda (pos : Position) (params : List Declaration) (result : TypeExpr) (body : List Expr)
  | application (pos : Position) (operator : Expr) (operands : List Expr)
  | letIn (pos : Position) (bindings : List (Declaration × Expr)) (body : List Expr)
  | letrec (pos : Position) (bindings : List (Declaration × Expr)) (body : List Expr)
  | define (pos : Position) (declaration : Declaration) (value : Expr)
  | program (pos : Position) (exprs : List Expr)
  | quote (pos : Position) (datum : Datum)
  | assign (pos : Position) (id : Identifier) (value : Expr)

namespace Expr

def pos : Expr → Position
  | .number pos _ | .boolean pos _ | .string pos _ | .primitive pos _ | .var pos _
  | .conditional pos _ _ _ | .lambda pos _ _ _ | .application pos _ _ | .letIn pos _ _
  | .letrec pos _ _ | .define pos _ _ | .program pos _ | .quote pos _ | .assign pos _ _ => pos

/-- What an expression is called in messages. -/
def shape : Expr → String
  | .number .. => "number literal"
  | .boolean .. => "boolean literal"
  | .string .. => "string literal"
  | .primitive .. => "primitive operator"
  | .var .. => "variable"
  | .conditional .. => "if expression"
  | .lambda .. => "lambda expression"
  | .application .. => "application"
  | .letIn .. => "let expression"
  | .letrec .. => "letrec expression"
  | .define .. => "define"
  | .program .. => "program"
  | .quote .. => "quoted literal"
  | .assign .. => "set! expression"

end Expr

/-- The same name with the same type, wherever they are written. -/
def Declaration.same (a b : Declaration) : Bool :=
  a.id.same b.id && a.type.ty = b.type.ty

def Declaration.sameAll : List Declaration → List Declaration → Bool
  | [], [] => true
  | a :: as, b :: bs => a.same b && sameAll as bs
  | _, _ => false

namespace Expr

mutual
/-- Equality of expressions whatever their positions. -/
def same : Expr → Expr → Bool
  | .number _ a, .number _ b => a.same b
  | .boolean _ a, .boolean _ b => a = b
  | .string _ a, .string _ b => a = b
  | .primitive _ a, .primitive _ b => a = b
  | .var _ a, .var _ b => a.same b
  | .conditional _ test yes no, .conditional _ test' yes' no' =>
      test.same test' && yes.same yes' && no.same no'
  | .lambda _ params result body, .lambda _ params' result' body' =>
      Declaration.sameAll params params' && result.ty = result'.ty && sameAll body body'
  | .application _ operator operands, .application _ operator' operands' =>
      operator.same operator' && sameAll operands operands'
  | .letIn _ bindings body, .letIn _ bindings' body'
  | .letrec _ bindings body, .letrec _ bindings' body' =>
      sameBindings bindings bindings' && sameAll body body'
  | .define _ declaration value, .define _ declaration' value' =>
      declaration.same declaration' && value.same value'
  | .program _ exprs, .program _ exprs' => sameAll exprs exprs'
  | .quote _ a, .quote _ b => a.same b
  | .assign _ id value, .assign _ id' value' => id.same id' && value.same value'
  | _, _ => false

def sameAll : List Expr → List Expr → Bool
  | [], [] => true
  | a :: as, b :: bs => a.same b && sameAll as bs
  | _, _ => false

def sameBindings : List (Declaration × Expr) → List (Declaration × Expr) → Bool
  | [], [] => true
  | (d, e) :: rest, (d', e') :: rest' => d.same d' && e.same e' && sameBindings rest rest'
  | _, _ => false
end

end Expr

end TypedScheme
