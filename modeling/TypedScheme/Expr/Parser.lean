import TypedScheme.Datum.Reader
import TypedScheme.Expr.Basic

/-!
Expressions from data: a list that begins with the name of a special form is read as that form, any
other list as an application.
-/

namespace TypedScheme

namespace Declaration

/-- A declared variable. A reserved name is refused, so that a type in the wrong place, as in
`(lambda (x : number) x)`, is not taken for three parameters. -/
def idOfDatum (form : String) : Datum → Except ParseError Identifier
  | .symbol pos name =>
      if TypeExpr.isReserved name then
        .error (.malformedExpr pos form ("`" ++ name ++ "` can't be used as a variable name"))
      else .ok ⟨name, pos⟩
  | d => .error (.malformedExpr d.pos form "expected a variable")

def shapeError (form : String) (pos : Position) : ParseError :=
  .malformedExpr pos form "expected a variable `x` or an annotated variable `(x : type)`"

/-- `x` or `(x : type)`. -/
def ofDatum (form : String) : Datum → Except ParseError Declaration
  | .symbol pos name => do
      let id ← idOfDatum form (.symbol pos name)
      pure ⟨id, .missing⟩
  | .list pos [id, colon, type] =>
      if colon.isSymbol ":" then do
        let id ← idOfDatum form id
        let type ← TypeExpr.ofDatum type
        pure ⟨id, type⟩
      else .error (shapeError form pos)
  | d => .error (shapeError form d.pos)

def ofData (form : String) : List Datum → Except ParseError (List Declaration)
  | [] => .ok []
  | d :: ds => do
      let declaration ← ofDatum form d
      let declarations ← ofData form ds
      pure (declaration :: declarations)

/-- The parameter list of a lambda expression. -/
def paramsOfDatum : Datum → Except ParseError (List Declaration)
  | .list _ items => ofData "lambda" items
  | d => .error (.malformedExpr d.pos "lambda" "expected a parameter list")

end Declaration

namespace Expr

/-- The result type of a lambda expression, if the text after its parameters begins with one. -/
def resultOfData : List Datum → Except ParseError TypeExpr
  | colon :: rest =>
      if colon.isSymbol ":" then
        match rest with
        | type :: _ => TypeExpr.ofDatum type
        | [] => .error (.malformedExpr colon.pos "lambda" "expected a return type after `:`")
      else .ok .missing
  | [] => .ok .missing

/-- What follows the result type of a lambda expression, or its parameters if it has none. -/
def afterResult : List Datum → List Datum
  | colon :: rest => if colon.isSymbol ":" then rest.drop 1 else colon :: rest
  | [] => []

/-- A body holds one expression at least. -/
def requireBody (pos : Position) (form : String) (body : List Datum) : Except ParseError Unit :=
  if body.isEmpty then .error (.malformedExpr pos form (form ++ " expects a non-empty body"))
  else .ok ()

mutual
/-- Reads an expression from a datum. -/
def ofDatum : Datum → Except ParseError Expr
  | .number pos value => .ok (.number pos value)
  | .boolean pos value => .ok (.boolean pos value)
  | .string pos value => .ok (.string pos value)
  | .symbol pos name =>
      match Primitive.ofSymbol? name with
      | some op => .ok (.primitive pos op)
      | none => .ok (.var pos ⟨name, pos⟩)
  | .list pos [] => .error (.malformedExpr pos "application" "empty combination `()`")
  | .list pos (head :: rest) =>
      match head.symbol? with
      | some "if" =>
          match rest with
          | [test, yes, no] => do
              let test ← ofDatum test
              let yes ← ofDatum yes
              let no ← ofDatum no
              pure (.conditional pos test yes no)
          | _ =>
              .error (.malformedExpr pos "if"
                ("if expects a test, a then branch and an else branch, got "
                  ++ toString rest.length ++ " argument(s)"))
      | some "lambda" =>
          match rest with
          | [] => .error (.malformedExpr pos "lambda" "lambda expects a parameter list")
          | params :: rest => do
              let params ← Declaration.paramsOfDatum params
              let result ← resultOfData rest
              requireBody pos "lambda" (afterResult rest)
              let body ← ofDataAfterResult rest
              pure (.lambda pos params result body)
      | some "let" => do
          let (bindings, body) ← bindingForm pos "let" rest
          pure (.letIn pos bindings body)
      | some "letrec" => do
          let (bindings, body) ← bindingForm pos "letrec" rest
          pure (.letrec pos bindings body)
      | some "define" =>
          match rest with
          | [declaration, value] => do
              let declaration ← Declaration.ofDatum "define" declaration
              let value ← ofDatum value
              pure (.define pos declaration value)
          | _ => .error (.malformedExpr pos "define" "define expects a variable and a value")
      | some "quote" =>
          match rest with
          | [datum] => .ok (.quote pos datum)
          | _ => .error (.malformedExpr pos "quote" "quote expects exactly one datum")
      | some "set!" =>
          match rest with
          | [.symbol idPos name, value] => do
              let value ← ofDatum value
              pure (.assign pos ⟨name, idPos⟩ value)
          | [id, _] => .error (.malformedExpr id.pos "set!" "expected a variable")
          | _ => .error (.malformedExpr pos "set!" "set! expects a variable and a value")
      | some "L5" =>
          .error (.malformedExpr pos "program" "a program can only appear at the top level")
      | _ => do
          let operator ← ofDatum head
          let operands ← ofData rest
          pure (.application pos operator operands)

def ofData : List Datum → Except ParseError (List Expr)
  | [] => .ok []
  | d :: ds => do
      let e ← ofDatum d
      let es ← ofData ds
      pure (e :: es)

/-- The expressions among `afterResult`. -/
def ofDataAfterResult : List Datum → Except ParseError (List Expr)
  | [] => .ok []
  | colon :: rest =>
      if colon.isSymbol ":" then ofDataTail rest
      else do
        let e ← ofDatum colon
        let es ← ofData rest
        pure (e :: es)

def ofDataTail : List Datum → Except ParseError (List Expr)
  | [] => .ok []
  | _ :: rest => ofData rest

/-- The bindings and the body of a `let` or `letrec`. -/
def bindingForm (pos : Position) (form : String)
    : List Datum → Except ParseError (List (Declaration × Expr) × List Expr)
  | [] => .error (.malformedExpr pos form (form ++ " expects a list of bindings"))
  | .list _ items :: rest => do
      let bindings ← bindingList form items
      requireBody pos form rest
      let body ← ofData rest
      pure (bindings, body)
  | d :: _ => .error (.malformedExpr d.pos form "expected a list of bindings")

def bindingList (form : String)
    : List Datum → Except ParseError (List (Declaration × Expr))
  | [] => .ok []
  | .list _ [declaration, value] :: rest => do
      let declaration ← Declaration.ofDatum form declaration
      let value ← ofDatum value
      let bindings ← bindingList form rest
      pure ((declaration, value) :: bindings)
  | d :: _ => .error (.malformedExpr d.pos form "expected a binding `(var value)`")
end

/-- Reads a whole source: an expression, or a program `(L5 exp ...)`. -/
def ofRootDatum : Datum → Except ParseError Expr
  | .list pos (head :: rest) =>
      if head.isSymbol "L5" then
        if rest.isEmpty then
          .error (.malformedExpr pos "program" "a program must contain at least one expression")
        else do
          let exprs ← ofData rest
          pure (.program pos exprs)
      else ofDatum (.list pos (head :: rest))
  | d => ofDatum d

/-- Parses a source text. -/
def parse (file : FileId) (text : String) : Except ParseError Expr := do
  let d ← Datum.read file text
  ofRootDatum d

end Expr

/-- Parses a text that holds a type. -/
def TypeExpr.parse (file : FileId) (text : String) : Except ParseError TypeExpr := do
  let d ← Datum.read file text
  TypeExpr.ofDatum d

end TypedScheme
