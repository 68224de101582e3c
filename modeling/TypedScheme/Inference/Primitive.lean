import TypedScheme.Inference.State

/-!
Types of the primitive operators. A polymorphic operator gets new variables at each reference.
-/

namespace TypedScheme

namespace Primitive

/-- The number of variables of an operator's type, which are `var 0`, `var 1`. -/
def quantified : Primitive → Nat
  | .isNumber | .isBoolean | .isString | .isSymbol | .isList | .isPair | .display => 1
  | .eq | .equal | .stringEq => 2
  | _ => 0

def scheme : Primitive → OpenTy
  | .add | .sub | .mul | .div => .procedure [.atomic .number, .atomic .number] (.atomic .number)
  | .less | .greater | .numberEq =>
      .procedure [.atomic .number, .atomic .number] (.atomic .boolean)
  | .and | .or => .procedure [.atomic .boolean, .atomic .boolean] (.atomic .boolean)
  | .not => .procedure [.atomic .boolean] (.atomic .boolean)
  | .isNumber | .isBoolean | .isString | .isSymbol | .isList | .isPair =>
      .procedure [.var 0] (.atomic .boolean)
  | .eq | .equal | .stringEq => .procedure [.var 0, .var 1] (.atomic .boolean)
  | .display => .procedure [.var 0] (.atomic .void)
  | .newline => .procedure [] (.atomic .void)

end Primitive

/-- The type of an operator with new variables. -/
def State.instantiate (s : State) (op : Primitive) : OpenTy × State :=
  (op.scheme.subst fun i => .var (s.table.size + i), s.freshMany op.quantified)

end TypedScheme
