import TypedScheme.Proofs.Expr.Positions

/-! The data of types and expressions.
Main statement: an expression determines the datum that writes it up to positions.
-/

namespace TypedScheme

-----------------------------------------------------------------------------------------
-- Equality of data
-----------------------------------------------------------------------------------------

namespace Datum

/-- A datum is like itself, by induction on its parts. -/
theorem Alike.refl (d : Datum) : Alike d d := by
  induction d using partsInduction with
  | number | boolean | string | symbol => constructor
  | list pos items ih => exact .list pos pos (List.forall₂_same.mpr ih)

/-- Positions do not count in a comparison of lists if they do not for their members, by induction
on the pairs.
-/
theorem sameAll_congr {as as' bs bs' : List Datum}
    (each : ∀ a ∈ as, ∀ a' b b', Alike a a' → Alike b b' → a.same b = a'.same b')
    (left : List.Forall₂ Alike as as') (right : List.Forall₂ Alike bs bs')
    : sameAll as bs = sameAll as' bs' := by
  induction left generalizing bs bs' with
  | nil =>
      cases right with
      | nil | cons => simp only [sameAll]
  | @cons a a' as as' first others ih =>
      cases right with
      | nil => simp only [sameAll]
      | @cons b b' bs bs' firstRight othersRight =>
          have here := each a (by simp) a' b b' first firstRight
          have later := ih (fun a member => each a (by simp [member])) othersRight
          simp only [sameAll, here, later]

/-- Positions make no difference to equality. -/
theorem same_congr {a a' b b' : Datum} (left : Alike a a') (right : Alike b b')
    : a.same b = a'.same b' := by
  induction a using partsInduction generalizing a' b b' with
  | number | boolean | string | symbol =>
      cases left
      cases right with
      | number | boolean | string | symbol | list => simp only [same]
  | list pos items ih =>
      cases left with
      | list _ pos' each =>
          cases right with
          | number | boolean | string | symbol => simp only [same]
          | list _ _ eachRight =>
              simp only [same]
              exact sameAll_congr (fun a member a' b b' => ih a member) each eachRight

/-- Symbols are the same if they have the same name. -/
@[simp]
theorem same_symbol (pos pos' : Position) (name name' : String)
    : (Datum.symbol pos name).same (.symbol pos' name') = decide (name = name') := by
  rw [same]

/-- Lists are the same if their items are. -/
@[simp]
theorem same_list (pos pos' : Position) (items items' : List Datum)
    : (Datum.list pos items).same (.list pos' items') = sameAll items items' := by
  rw [same]

/-- There is nothing to compare in two empty lists. -/
@[simp]
theorem sameAll_nil : sameAll [] [] = true := by
  rw [sameAll]

/-- Lists with a first member are compared member by member. -/
@[simp]
theorem sameAll_cons (d d' : Datum) (ds ds' : List Datum)
    : sameAll (d :: ds) (d' :: ds') = (d.same d' && sameAll ds ds') := by
  rw [sameAll]

/-- Lists that are the same stay so with the same data behind them, by induction on the first ones.
-/
theorem sameAll_append {as as' bs bs' : List Datum} (front : sameAll as as' = true)
    (back : sameAll bs bs' = true)
    : sameAll (as ++ bs) (as' ++ bs') = true := by
  induction as generalizing as' with
  | nil =>
      cases as' with
      | nil => exact back
      | cons a' as' => simp [sameAll] at front
  | cons a as ih =>
      cases as' with
      | nil => simp [sameAll] at front
      | cons a' as' =>
          rw [sameAll_cons, Bool.and_eq_true] at front
          rw [List.cons_append, List.cons_append, sameAll_cons, front.1, ih front.2]
          rfl

end Datum

open Datum

-----------------------------------------------------------------------------------------
-- Types and declarations
-----------------------------------------------------------------------------------------

namespace Ty

mutual
/-- The written form of a type. -/
def datum : Ty → Datum
  | .atomic a => .symbol none a.name
  | .named name => .symbol none name
  | .wildcard => .symbol none "_"
  | .procedure [] result => .list none [.symbol none "Empty", .symbol none "->", result.datum]
  | .procedure (p :: ps) result => .list none (p.datum :: afterParam ps result.datum)

/-- What follows the first parameter of a procedure type, up to the result. -/
def afterParam : List Ty → Datum → List Datum
  | [], result => [.symbol none "->", result]
  | p :: ps, result => .symbol none "*" :: p.datum :: afterParam ps result
end

/-- The data behind the first parameter of a procedure type are the same as themselves if those of
its types are, by induction on the parameters.
-/
theorem sameAll_afterParam {params : List Ty} {result : Datum}
    (each : ∀ param ∈ params, param.datum.same param.datum = true)
    (last : result.same result = true)
    : sameAll (afterParam params result) (afterParam params result) = true := by
  induction params with
  | nil => simp [afterParam, last]
  | cons p ps ih =>
      have first := each p (by simp)
      have others := ih fun param member => each param (by simp [member])
      simp [afterParam, first, others]

/-- There are no numbers in a type, so that it is equal to itself. -/
theorem same_datum (ty : Ty) : ty.datum.same ty.datum = true := by
  induction ty using partsInduction with
  | atomic | named | wildcard => simp [datum]
  | procedure params result each last =>
      cases params with
      | nil => simp [datum, last]
      | cons p ps =>
          have first := each p (by simp)
          have eachOther param (member : param ∈ ps) := each param (List.mem_cons_of_mem p member)
          simp [datum, first, sameAll_afterParam eachOther last]

end Ty

namespace TypeExpr

mutual
/-- A type is written as its datum says. -/
theorem Written.alike {d : Datum} {t : TypeExpr} : Written d t → Alike d t.ty.datum
  | .atomic pos known => by
      rw [ty, Ty.datum, Atomic.name_of_ofName? known]
      exact .symbol _ _ _
  | .named pos unknown noMarker => by
      rw [ty, Ty.datum]
      exact .symbol _ _ _
  | .thunk pos emptyPos arrowPos inResult => by
      rw [ty, tys, Ty.datum]
      exact .list _ _ (.cons (.symbol _ _ _) (.cons (.symbol _ _ _) (.cons inResult.alike .nil)))
  | .procedure pos inside => by
      obtain ⟨p, ps, same, alike⟩ := inside.alike
      rw [ty, same, Ty.datum]
      exact .list _ _ alike

/-- What a signature was written as is like the data of its types, by induction over the written
form.
-/
theorem SignatureWritten.alike {items : List Datum} {params : List TypeExpr} {result : TypeExpr}
    : SignatureWritten items params result
      → ∃ p ps,
          tys params = p :: ps
          ∧ List.Forall₂ Alike items (p.datum :: Ty.afterParam ps result.ty.datum)
  | @SignatureWritten.last arrowPos p d param result inParam inResult => by
      refine ⟨param.ty, [], by simp [tys], ?_⟩
      rw [Ty.afterParam]
      exact .cons inParam.alike (.cons (.symbol _ _ _) (.cons inResult.alike .nil))
  | @SignatureWritten.more starPos p ds param params result inParam others => by
      obtain ⟨next, ps, same, alike⟩ := others.alike
      refine ⟨param.ty, next :: ps, by simp [tys, same], ?_⟩
      rw [Ty.afterParam]
      exact .cons inParam.alike (.cons (.symbol _ _ _) alike)
end

/-- A written type is a wildcard if its type is one. -/
theorem isWildcard_ty (t : TypeExpr) : t.ty.isWildcard = t.isWildcard := by
  cases t with
  | atomic | named | wildcard | procedure => simp only [ty, Ty.isWildcard, isWildcard]

end TypeExpr

namespace Declaration

/-- The written form of a declaration. -/
def datum (declaration : Declaration) : Datum :=
  if declaration.type.ty.isWildcard then .symbol none declaration.id.name
  else
    .list none [.symbol none declaration.id.name, .symbol none ":", declaration.type.ty.datum]

/-- What a declaration was written as is like its datum. -/
theorem Written.alike {d : Datum} {declaration : Declaration} (written : Written d declaration)
    : Alike d declaration.datum := by
  cases written with
  | plain pos free => exact .symbol _ _ _
  | typed pos idPos colonPos free inType =>
      rw [datum, TypeExpr.isWildcard_ty, TypeExpr.notWildcard_of_written inType]
      exact .list _ _ (.cons (.symbol _ _ _) (.cons (.symbol _ _ _) (.cons inType.alike .nil)))

/-- What declarations were written as is like their data. -/
theorem alike_data {ds : List Datum} {declarations : List Declaration}
    (written : List.Forall₂ Written ds declarations)
    : List.Forall₂ Alike ds (declarations.map datum) :=
  List.forall₂_map_right_iff.mpr (written.imp fun _ _ => Written.alike)

/-- Declarations that are the same have the same data. -/
theorem same_datum {a b : Declaration} (equal : a.same b = true) : a.datum.same b.datum = true := by
  simp only [same, Identifier.same, Bool.and_eq_true, decide_eq_true_eq] at equal
  obtain ⟨names, types⟩ := equal
  rw [datum, datum, names, types]
  split
  · simp
  · simp [Ty.same_datum]

/-- Lists of declarations that are the same have the same data, by induction on the comparison. -/
theorem sameAll_data {as bs : List Declaration} (equal : sameAll as bs = true)
    : Datum.sameAll (as.map datum) (bs.map datum) = true := by
  fun_induction sameAll as bs with
  | case1 => simp
  | case2 a as b bs ih =>
      rw [Bool.and_eq_true] at equal
      simp [same_datum equal.1, ih equal.2]
  | case3 => cases equal

end Declaration

-----------------------------------------------------------------------------------------
-- Expressions
-----------------------------------------------------------------------------------------

namespace Expr

/-- The written form of the result type of a lambda expression. -/
def resultData (result : Ty) : List Datum :=
  if result.isWildcard then [] else [.symbol none ":", result.datum]

mutual
/-- The written form of an expression. -/
def datum : Expr → Datum
  | .number _ value => .number none value
  | .boolean _ value => .boolean none value
  | .string _ value => .string none value
  | .primitive _ op => .symbol none op.symbol
  | .var _ id => .symbol none id.name
  | .conditional _ test yes no =>
      .list none [.symbol none "if", test.datum, yes.datum, no.datum]
  | .lambda _ params result body =>
      .list none (.symbol none "lambda" :: .list none (params.map Declaration.datum)
        :: (resultData result.ty ++ data body))
  | .application _ operator operands => .list none (operator.datum :: data operands)
  | .letIn _ bindings body =>
      .list none (.symbol none "let" :: .list none (bindingData bindings) :: data body)
  | .letrec _ bindings body =>
      .list none (.symbol none "letrec" :: .list none (bindingData bindings) :: data body)
  | .define _ declaration value =>
      .list none [.symbol none "define", declaration.datum, value.datum]
  | .program _ exprs => .list none (.symbol none "L5" :: data exprs)
  | .quote _ d => .list none [.symbol none "quote", d]
  | .assign _ id value => .list none [.symbol none "set!", .symbol none id.name, value.datum]

def data : List Expr → List Datum
  | [] => []
  | e :: es => e.datum :: data es

def bindingData : List (Declaration × Expr) → List Datum
  | [] => []
  | (declaration, value) :: bindings =>
      .list none [declaration.datum, value.datum] :: bindingData bindings
end

mutual
/-- An expression is written as its datum says. -/
theorem Written.alike {d : Datum} {e : Expr} : Written d e → Alike d e.datum
  | .number pos value => by
      rw [datum]
      exact .number _ _ _
  | .boolean pos value => by
      rw [datum]
      exact .boolean _ _ _
  | .string pos value => by
      rw [datum]
      exact .string _ _ _
  | .primitive pos known => by
      rw [datum, Primitive.symbol_of_ofSymbol? known]
      exact .symbol _ _ _
  | .var pos unknown => by
      rw [datum]
      exact .symbol _ _ _
  | .conditional pos headPos inTest inYes inNo => by
      rw [datum]
      exact .list _ _ (.cons (.symbol _ _ _)
        (.cons inTest.alike (.cons inYes.alike (.cons inNo.alike .nil))))
  | .lambda pos headPos paramsPos inParams inBody nonempty noColon => by
      rw [datum]
      have params := Declaration.alike_data inParams
      exact .list _ _ (.cons (.symbol _ _ _) (.cons (.list _ _ params) inBody.alike))
  | .typedLambda pos headPos paramsPos colonPos inParams inResult inBody nonempty => by
      rw [datum, resultData, TypeExpr.isWildcard_ty, TypeExpr.notWildcard_of_written inResult]
      have params := Declaration.alike_data inParams
      exact .list _ _ (.cons (.symbol _ _ _) (.cons (.list _ _ params)
        (.cons (.symbol _ _ _) (.cons inResult.alike inBody.alike))))
  | .application pos inOperator inOperands noKeyword => by
      rw [datum]
      exact .list _ _ (.cons inOperator.alike inOperands.alike)
  | .letIn pos headPos bindingsPos inBindings inBody nonempty
  | .letrec pos headPos bindingsPos inBindings inBody nonempty => by
      rw [datum]
      exact .list _ _ (.cons (.symbol _ _ _) (.cons (.list _ _ inBindings.alike) inBody.alike))
  | .define pos headPos inDeclaration inValue => by
      rw [datum]
      exact .list _ _ (.cons (.symbol _ _ _)
        (.cons inDeclaration.alike (.cons inValue.alike .nil)))
  | .quote pos headPos d => by
      rw [datum]
      exact .list _ _ (.cons (.symbol _ _ _) (.cons (.refl d) .nil))
  | .assign pos headPos idPos name inValue => by
      rw [datum]
      exact .list _ _ (.cons (.symbol _ _ _) (.cons (.symbol _ _ _) (.cons inValue.alike .nil)))

/-- What expressions were written as is like their data. -/
theorem AllWritten.alike {ds : List Datum} {es : List Expr}
    : AllWritten ds es → List.Forall₂ Alike ds (data es)
  | .nil => by
      rw [data]
      exact .nil
  | .cons first others => by
      rw [data]
      exact .cons first.alike others.alike

/-- What bindings were written as is like their data. -/
theorem BindingsWritten.alike {ds : List Datum} {bindings : List (Declaration × Expr)}
    : BindingsWritten ds bindings → List.Forall₂ Alike ds (bindingData bindings)
  | .nil => by
      rw [bindingData]
      exact .nil
  | .cons pos inDeclaration inValue others => by
      rw [bindingData]
      exact .cons (.list _ _ (.cons inDeclaration.alike (.cons inValue.alike .nil))) others.alike
end

/-- The data of a result type are the same as themselves. -/
theorem sameAll_resultData (result : Ty)
    : Datum.sameAll (resultData result) (resultData result) = true := by
  rw [resultData]
  split
  · simp
  · simp [Ty.same_datum]

mutual
/-- Equal expressions have equal data. -/
theorem same_datum {e e' : Expr} (equal : e.same e' = true) : e.datum.same e'.datum = true := by
  cases e with
  | number pos value =>
      cases e' with
      | number pos' value' =>
          rw [same] at equal
          simpa [datum, Datum.same] using equal
      | _ => cases equal
  | boolean pos value =>
      cases e' with
      | boolean pos' value' =>
          rw [same] at equal
          simpa [datum, Datum.same] using equal
      | _ => cases equal
  | string pos value =>
      cases e' with
      | string pos' value' =>
          rw [same] at equal
          simpa [datum, Datum.same] using equal
      | _ => cases equal
  | primitive pos op =>
      cases e' with
      | primitive pos' op' =>
          rw [same, decide_eq_true_eq] at equal
          simp [datum, equal]
      | _ => cases equal
  | var pos id =>
      cases e' with
      | var pos' id' =>
          rw [same, Identifier.same] at equal
          simpa [datum] using equal
      | _ => cases equal
  | conditional pos test yes no =>
      cases e' with
      | conditional pos' test' yes' no' =>
          simp only [same, Bool.and_eq_true] at equal
          obtain ⟨⟨inTest, inYes⟩, inNo⟩ := equal
          simp [datum, same_datum inTest, same_datum inYes, same_datum inNo]
      | _ => cases equal
  | lambda pos params result body =>
      cases e' with
      | lambda pos' params' result' body' =>
          simp only [same, Bool.and_eq_true, decide_eq_true_eq] at equal
          obtain ⟨⟨inParams, results⟩, inBody⟩ := equal
          have after := sameAll_append (sameAll_resultData result'.ty) (sameAll_data inBody)
          simp [datum, Declaration.sameAll_data inParams, results, after]
      | _ => cases equal
  | application pos operator operands =>
      cases e' with
      | application pos' operator' operands' =>
          rw [same, Bool.and_eq_true] at equal
          simp [datum, same_datum equal.1, sameAll_data equal.2]
      | _ => cases equal
  | letIn pos bindings body =>
      cases e' with
      | letIn pos' bindings' body' =>
          rw [same, Bool.and_eq_true] at equal
          simp [datum, sameAll_bindingData equal.1, sameAll_data equal.2]
      | _ => cases equal
  | letrec pos bindings body =>
      cases e' with
      | letrec pos' bindings' body' =>
          rw [same, Bool.and_eq_true] at equal
          simp [datum, sameAll_bindingData equal.1, sameAll_data equal.2]
      | _ => cases equal
  | define pos declaration value =>
      cases e' with
      | define pos' declaration' value' =>
          rw [same, Bool.and_eq_true] at equal
          simp [datum, Declaration.same_datum equal.1, same_datum equal.2]
      | _ => cases equal
  | program pos exprs =>
      cases e' with
      | program pos' exprs' =>
          rw [same] at equal
          simp [datum, sameAll_data equal]
      | _ => cases equal
  | quote pos d =>
      cases e' with
      | quote pos' d' =>
          rw [same] at equal
          simp [datum, equal]
      | _ => cases equal
  | assign pos id value =>
      cases e' with
      | assign pos' id' value' =>
          simp only [same, Identifier.same, Bool.and_eq_true, decide_eq_true_eq] at equal
          simp [datum, equal.1, same_datum equal.2]
      | _ => cases equal

/-- Lists of expressions that are the same have the same data. -/
theorem sameAll_data {es es' : List Expr} (equal : sameAll es es' = true)
    : Datum.sameAll (data es) (data es') = true := by
  cases es with
  | nil =>
      cases es' with
      | nil => simp [data]
      | cons e' es' => cases equal
  | cons e es =>
      cases es' with
      | nil => cases equal
      | cons e' es' =>
          rw [sameAll, Bool.and_eq_true] at equal
          simp [data, same_datum equal.1, sameAll_data equal.2]

/-- Lists of bindings that are the same have the same data. -/
theorem sameAll_bindingData {bindings bindings' : List (Declaration × Expr)}
    (equal : sameBindings bindings bindings' = true)
    : Datum.sameAll (bindingData bindings) (bindingData bindings') = true := by
  cases bindings with
  | nil =>
      cases bindings' with
      | nil => simp [bindingData]
      | cons binding' bindings' => cases equal
  | cons binding bindings =>
      cases bindings' with
      | nil => cases equal
      | cons binding' bindings' =>
          simp only [sameBindings, Bool.and_eq_true] at equal
          obtain ⟨⟨inDeclaration, inValue⟩, others⟩ := equal
          simp [bindingData, Declaration.same_datum inDeclaration, same_datum inValue,
            sameAll_bindingData others]
end

/-- What a source was written as is like the datum of its expression. -/
theorem RootWritten.alike {d : Datum} {e : Expr} (written : RootWritten d e) : Alike d e.datum := by
  cases written with
  | expr written => exact written.alike
  | program pos headPos inside nonempty =>
      rw [datum]
      exact .list _ _ (.cons (.symbol _ _ _) inside.alike)

/-- Equal expressions are written by equal data. -/
theorem RootWritten.same {d d' : Datum} {e e' : Expr} (written : RootWritten d e)
    (written' : RootWritten d' e') (equal : e.same e' = true)
    : d.same d' = true := by
  rw [same_congr written.alike written'.alike]
  exact same_datum equal

end Expr

end TypedScheme
