import TypedScheme.Expr.Basic

/-! Induction over data, over written types and over expressions. All of them hold lists of parts;
each case may use the property of every part.
-/

namespace TypedScheme

/-- The items of a list datum are smaller than the list. -/
theorem Datum.sizeOf_lt_of_mem {item : Datum} {items : List Datum} (member : item ∈ items)
    (pos : Position)
    : sizeOf item < sizeOf (Datum.list pos items) := by
  have smaller := List.sizeOf_lt_of_mem member
  have whole := Datum.list.sizeOf_spec pos items
  omega

/-- Induction over data that are read as expressions. The values of bindings are items of items of
items, so that a list may also use their property.
-/
@[elab_as_elim]
theorem Datum.formsInduction {motive : Datum → Prop}
    (number : ∀ pos value, motive (.number pos value))
    (boolean : ∀ pos value, motive (.boolean pos value))
    (string : ∀ pos value, motive (.string pos value))
    (symbol : ∀ pos name, motive (.symbol pos name))
    (list
      : ∀ pos items,
          (∀ item ∈ items, motive item)
          → (∀ bindingsPos bindings, .list bindingsPos bindings ∈ items
              → ∀ bindingPos parts, .list bindingPos parts ∈ bindings
              → ∀ part ∈ parts, motive part)
          → motive (.list pos items))
    (d : Datum)
    : motive d := by
  induction size : sizeOf d using Nat.strongRecOn generalizing d with
  | ind n ih =>
      have smaller part (lt : sizeOf part < sizeOf d) : motive part := ih _ (size ▸ lt) part rfl
      cases d with
      | number pos value => exact number pos value
      | boolean pos value => exact boolean pos value
      | string pos value => exact string pos value
      | symbol pos name => exact symbol pos name
      | list pos items =>
          apply list pos items
          · intro item member
            exact smaller item (sizeOf_lt_of_mem member pos)
          · intro bindingsPos bindings member bindingPos parts inside part inPart
            have less := sizeOf_lt_of_mem member pos
            have lesser := sizeOf_lt_of_mem inside bindingsPos
            have least := sizeOf_lt_of_mem inPart bindingPos
            exact smaller part (by omega)

/-- To show something of all data, it may be assumed of the items of a list. -/
@[elab_as_elim]
theorem Datum.partsInduction {motive : Datum → Prop}
    (number : ∀ pos value, motive (.number pos value))
    (boolean : ∀ pos value, motive (.boolean pos value))
    (string : ∀ pos value, motive (.string pos value))
    (symbol : ∀ pos name, motive (.symbol pos name))
    (list : ∀ pos items, (∀ item ∈ items, motive item) → motive (.list pos items)) (d : Datum)
    : motive d :=
  formsInduction number boolean string symbol (fun pos items each _ => list pos items each) d

/-- To show something of all types, it may be assumed of the parameters and the result of a
procedure type, by induction on the size of the type.
-/
@[elab_as_elim]
theorem Ty.partsInduction {motive : Ty → Prop}
    (atomic : ∀ a, motive (.atomic a))
    (named : ∀ name, motive (.named name))
    (wildcard : motive .wildcard)
    (procedure
      : ∀ params result,
          (∀ param ∈ params, motive param) → motive result → motive (.procedure params result))
    (ty : Ty)
    : motive ty := by
  induction size : sizeOf ty using Nat.strongRecOn generalizing ty with
  | ind n ih =>
      have smaller part (lt : sizeOf part < sizeOf ty) : motive part := ih _ (size ▸ lt) part rfl
      cases ty with
      | atomic a => exact atomic a
      | named name => exact named name
      | wildcard => exact wildcard
      | procedure params result =>
          have whole := Ty.procedure.sizeOf_spec params result
          refine procedure params result ?_ (smaller result (by omega))
          intro param member
          have lt := List.sizeOf_lt_of_mem member
          exact smaller param (by omega)

namespace Expr

/-- The expressions of which an expression is made. -/
def parts : Expr → List Expr
  | .number _ _ | .boolean _ _ | .string _ _ | .primitive _ _ | .var _ _ | .quote _ _ => []
  | .conditional _ test yes no => [test, yes, no]
  | .lambda _ _ _ body => body
  | .application _ operator operands => operator :: operands
  | .letIn _ bindings body | .letrec _ bindings body => bindings.map (·.2) ++ body
  | .define _ _ value | .assign _ _ value => [value]
  | .program _ exprs => exprs

/-- The body of an expression that has one. -/
def body? : Expr → Option (List Expr)
  | .lambda _ _ _ body | .letIn _ _ body | .letrec _ _ body => some body
  | _ => none

/-- The body of a lambda expression; other expressions have none. -/
def procedureBody : Expr → List Expr
  | .lambda _ _ _ body => body
  | _ => []

/-- The expressions of a procedure's body are smaller than the procedure. -/
theorem sizeOf_lt_of_mem_procedureBody {e part : Expr} (member : part ∈ e.procedureBody)
    : sizeOf part < sizeOf e := by
  cases e with
  | lambda pos params result body =>
      have lt := List.sizeOf_lt_of_mem (show part ∈ body from member)
      have whole := Expr.lambda.sizeOf_spec pos params result body
      omega
  | number | boolean | string | primitive | var | conditional | application | letIn | letrec
  | define | program | quote | assign => cases member

/-- Induction over expressions. A `letrec` checks the bodies of its procedures, so its case may use
the property of each expression in them.
-/
@[elab_as_elim]
theorem partsInduction {motive : Expr → Prop}
    (number : ∀ pos value, motive (.number pos value))
    (boolean : ∀ pos value, motive (.boolean pos value))
    (string : ∀ pos value, motive (.string pos value))
    (primitive : ∀ pos op, motive (.primitive pos op))
    (var : ∀ pos id, motive (.var pos id))
    (conditional
      : ∀ pos test yes no,
          motive test → motive yes → motive no → motive (.conditional pos test yes no))
    (lambda
      : ∀ pos params result body,
          (∀ e ∈ body, motive e) → motive (.lambda pos params result body))
    (application
      : ∀ pos operator operands,
          motive operator
          → (∀ e ∈ operands, motive e)
          → motive (.application pos operator operands))
    (letIn
      : ∀ pos bindings body,
          (∀ binding ∈ bindings, motive binding.2)
          → (∀ e ∈ body, motive e)
          → motive (.letIn pos bindings body))
    (letrec
      : ∀ pos bindings body,
          (∀ binding ∈ bindings, ∀ e ∈ binding.2.procedureBody, motive e)
          → (∀ e ∈ body, motive e)
          → motive (.letrec pos bindings body))
    (define : ∀ pos declaration value, motive value → motive (.define pos declaration value))
    (program : ∀ pos exprs, (∀ e ∈ exprs, motive e) → motive (.program pos exprs))
    (quote : ∀ pos datum, motive (.quote pos datum))
    (assign : ∀ pos id value, motive value → motive (.assign pos id value))
    (e : Expr)
    : motive e := by
  induction size : sizeOf e using Nat.strongRecOn generalizing e with
  | ind n ih =>
      have smaller part (lt : sizeOf part < sizeOf e) : motive part := ih _ (size ▸ lt) part rfl
      have member {part : Expr} {parts : List Expr} (inside : part ∈ parts)
          (lt : sizeOf parts < sizeOf e)
          : motive part :=
        smaller part (Nat.lt_trans (List.sizeOf_lt_of_mem inside) lt)
      have value {binding : Declaration × Expr} {bindings : List (Declaration × Expr)}
          (inside : binding ∈ bindings)
          : sizeOf binding.2 < sizeOf bindings := by
        have lt := List.sizeOf_lt_of_mem inside
        have le : sizeOf binding.2 < sizeOf binding := by
          obtain ⟨declaration, value⟩ := binding
          have whole := Prod.mk.sizeOf_spec declaration value
          dsimp only
          omega
        omega
      cases e with
      | number pos value => exact number pos value
      | boolean pos value => exact boolean pos value
      | string pos value => exact string pos value
      | primitive pos op => exact primitive pos op
      | var pos id => exact var pos id
      | conditional pos test yes no =>
          have whole := Expr.conditional.sizeOf_spec pos test yes no
          exact conditional pos test yes no (smaller test (by omega)) (smaller yes (by omega))
            (smaller no (by omega))
      | lambda pos params result body =>
          have whole := Expr.lambda.sizeOf_spec pos params result body
          exact lambda pos params result body fun e inside => member inside (by omega)
      | application pos operator operands =>
          have whole := Expr.application.sizeOf_spec pos operator operands
          exact application pos operator operands (smaller operator (by omega))
            fun e inside => member inside (by omega)
      | letIn pos bindings body =>
          have whole := Expr.letIn.sizeOf_spec pos bindings body
          refine letIn pos bindings body ?_ fun e inside => member inside (by omega)
          intro binding inside
          have lt := value inside
          exact smaller binding.2 (by omega)
      | letrec pos bindings body =>
          have whole := Expr.letrec.sizeOf_spec pos bindings body
          refine letrec pos bindings body ?_ fun e inside => member inside (by omega)
          intro binding inside e inBody
          have lt := value inside
          have less := sizeOf_lt_of_mem_procedureBody inBody
          exact smaller e (by omega)
      | define pos declaration value =>
          have whole := Expr.define.sizeOf_spec pos declaration value
          exact define pos declaration value (smaller value (by omega))
      | program pos exprs =>
          have whole := Expr.program.sizeOf_spec pos exprs
          exact program pos exprs fun e inside => member inside (by omega)
      | quote pos datum => exact quote pos datum
      | assign pos id value =>
          have whole := Expr.assign.sizeOf_spec pos id value
          exact assign pos id value (smaller value (by omega))

end Expr

end TypedScheme
