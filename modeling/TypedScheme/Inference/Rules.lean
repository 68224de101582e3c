import TypedScheme.Environment
import TypedScheme.Inference.Primitive

/-!
One typing rule per kind of expression. Rules that check several independent things check all of
them and report all failures.
-/

namespace TypedScheme

abbrev TypeEnv := Environment OpenTy

namespace Infer

/-- A construct that has no type. -/
def unsupported {α : Type} (construct reason : String) (context : Expr) : Infer α :=
  throw (.unsupported construct reason (Text.cap UnifyError.contextWidth context.text) context.pos)

/-- The values of several checks, or their failures. -/
def partition {α : Type} : List (Except TypeError α) → List α × List TypeError
  | [] => ([], [])
  | .ok a :: rest => (a :: (partition rest).1, (partition rest).2)
  | .error e :: rest => ((partition rest).1, e :: (partition rest).2)

/-- The values of several checks. One failure stands for itself, several are gathered. -/
def collect {α : Type} (results : List (Except TypeError α)) (context : Expr) : Infer (List α) :=
  match partition results with
  | (values, []) => pure values
  | (_, [e]) => throw e
  | (_, errors) =>
      throw (.multiple (Text.cap UnifyError.contextWidth context.text) errors context.pos)

def declaredTypes (params : List Declaration) : List Ty := params.map (·.type.ty)

def declaredNames (params : List Declaration) : List String := params.map (·.id.name)

/-- The parameter types and the result type that a lambda expression declares. -/
def signature (params : List Declaration) (result : TypeExpr) : Infer (List OpenTy × OpenTy) := do
  let params ← convertAll (declaredTypes params)
  let result ← convert result.ty
  pure (params, result)

/-- The signatures of lambda expressions; other expressions have none. -/
def signatures : List (Declaration × Expr) → Infer (List (List OpenTy × OpenTy))
  | [] => pure []
  | (_, .lambda _ params result _) :: rest => do
      let first ← signature params result
      let others ← signatures rest
      pure (first :: others)
  | _ :: rest => signatures rest

def isLambda : Expr → Bool
  | .lambda .. => true
  | _ => false

end Infer

open Infer

mutual
/-- Infers the type of an expression. -/
def Expr.typeOf (env : TypeEnv) (e : Expr) : Infer OpenTy := do
  note (.typing e.shape)
  match e with
  | .number _ _ => pure (.atomic .number)
  | .boolean _ _ => pure (.atomic .boolean)
  | .string _ _ => pure (.atomic .string)
  | .primitive _ op => ofState (·.instantiate op)
  | .var pos id =>
      match env.get? id.name with
      | some ty => pure ty
      | none => throw (.unboundIdentifier id (Position.orElse id.pos pos))
  | .conditional _ test yes no => do
      let test ← attempt (test.typeOf env)
      let yes ← attempt (yes.typeOf env)
      let no ← attempt (no.typeOf env)
      checkEqual (.ok (.atomic .boolean)) test e
      let yes ← ofExcept yes
      checkEqual (.ok yes) no e
      pure yes
  | .lambda _ params result body => do
      let (paramTys, resultTy) ← signature params result
      let bodyEnv := env.extend ((declaredNames params).zip paramTys)
      let bodyTy ← attempt (Expr.typeOfBody bodyEnv e body)
      checkEqual (.ok resultTy) bodyTy e
      pure (.procedure paramTys resultTy)
  | .application _ operator operands => do
      let operatorTy ← operator.typeOf env
      let results ← Expr.typeOfEach env operands
      let operandTys ← collect results e
      let result ← fresh
      unify operatorTy (.procedure operandTys result) e
      pure result
  | .letIn _ bindings body => do
      let checks ← Expr.checkBindings env bindings
      let declared ← collect checks e
      Expr.typeOfBody (env.extend declared) e body
  | .letrec _ bindings body => do
      if bindings.all fun (_, value) => isLambda value then
        let sigs ← signatures bindings
        let recEnv := env.extend
          ((declaredNames (bindings.map (·.1))).zip (sigs.map fun (ps, r) => .procedure ps r))
        let checks ← Expr.checkProcedures recEnv bindings sigs
        let _ ← collect checks e
        Expr.typeOfBody recEnv e body
      else unsupported "letrec" "letrec only supports the binding of procedures" e
  | .define _ _ _ => pure (.atomic .void)
  | .program _ _ => unsupported "program" "typing whole programs is not supported yet" e
  | .quote _ _ => unsupported "quote" "quoted literals can't be typed" e
  | .assign _ _ _ => unsupported "set!" "assignments can't be typed" e

/-- Infers the types of a body in order; the last one is its type. -/
def Expr.typeOfBody (env : TypeEnv) (context : Expr) : List Expr → Infer OpenTy
  | [] => unsupported "empty sequence" "a body can't be empty" context
  | [e] => e.typeOf env
  | e :: es => do
      let _ ← e.typeOf env
      Expr.typeOfBody env context es

/-- Infers the types of all operands. -/
def Expr.typeOfEach (env : TypeEnv) : List Expr → Infer (List (Except TypeError OpenTy))
  | [] => pure []
  | e :: es => do
      let first ← attempt (e.typeOf env)
      let others ← Expr.typeOfEach env es
      pure (first :: others)

/-- Checks each value of a `let` against its declared type. -/
def Expr.checkBindings (env : TypeEnv)
    : List (Declaration × Expr) → Infer (List (Except TypeError (String × OpenTy)))
  | [] => pure []
  | (declaration, value) :: rest => do
      let declared ← convert declaration.type.ty
      let inferred ← attempt (value.typeOf env)
      let checked ← attempt (checkEqual (.ok declared) inferred value)
      let others ← Expr.checkBindings env rest
      pure (checked.map (fun () => (declaration.id.name, declared)) :: others)

/-- Checks the body of each procedure of a `letrec` against its signature. -/
def Expr.checkProcedures (recEnv : TypeEnv)
    : List (Declaration × Expr) → List (List OpenTy × OpenTy) → Infer (List (Except TypeError Unit))
  | (_, .lambda pos params result body) :: rest, (paramTys, resultTy) :: sigs => do
      let context := Expr.lambda pos params result body
      let bodyEnv := recEnv.extend ((declaredNames params).zip paramTys)
      let bodyTy ← attempt (Expr.typeOfBody bodyEnv context body)
      let checked ← attempt (checkEqual (.ok resultTy) bodyTy context)
      let others ← Expr.checkProcedures recEnv rest sigs
      pure (checked :: others)
  | _, _ => pure []
end

/-- Infers the type of an expression and resolves it. -/
def Expr.inferIn (env : TypeEnv) (e : Expr) : Infer Ty := do
  let ty ← e.typeOf env
  fun s =>
    match s.table.stray? ty with
    | some v => .error (.unallocated v e.pos) s
    | none => .ok (s.table.toTy ty) s

/-- The type of a closed expression. -/
def Expr.infer (e : Expr) : Except TypeError Ty :=
  match e.inferIn .empty .empty with
  | .ok ty _ => .ok ty
  | .error error _ => .error error

end TypedScheme
