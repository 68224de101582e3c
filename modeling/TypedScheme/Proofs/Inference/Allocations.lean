import Mathlib.Algebra.GroupWithZero.Nat
import Mathlib.Data.Finset.Card
import Mathlib.Data.List.Perm.Basic
import Mathlib.Data.List.ReduceOption
import TypedScheme.Proofs.Inference.Derivations
import TypedScheme.Proofs.Inference.Relocation

/-! How many variables an inference allocates.
Unification allocates none. What is left can be read off the expression: a variable for each
application, for each wildcard and for each variable in the type of an operator, and one for each
name in an annotation that was not known before. Main statement: the table of a successful inference
grows by just these.
-/

namespace TypedScheme

-----------------------------------------------------------------------------------------
-- Unification allocates nothing
-----------------------------------------------------------------------------------------

namespace Unify

variable {α β : Type}

/-- The table may be any, and what is bound in it may make no sense. -/
def KeepsSize (x : Unify α) : Prop := ∀ t : Table, (finalState (x t)).size = t.size

/-- A value allocates nothing. -/
theorem keepsSize_pure (a : α) : KeepsSize (pure a) := fun _ => rfl

/-- Nor does an error. -/
theorem keepsSize_throw (e : UnifyError) : KeepsSize (throw e : Unify α) := fun _ => rfl

/-- A sequence keeps the number of variables if both of its parts do. -/
theorem KeepsSize.bind {x : Unify α} {f : α → Unify β} (first : KeepsSize x)
    (rest : ∀ a, KeepsSize (f a))
    : KeepsSize (x >>= f) := by
  intro t
  have here := first t
  cases run : x t with
  | error e t₁ =>
      rw [run_bind_error run]
      rw [run] at here
      exact here
  | ok a t₁ =>
      rw [run_bind_ok run, rest a t₁]
      rw [run] at here
      exact here

/-- A choice keeps the number of variables if both of its branches do. -/
theorem KeepsSize.ite {x y : Unify α} (first : KeepsSize x) {c : Prop} [Decidable c]
    (second : KeepsSize y)
    : KeepsSize (if c then x else y) := by
  split
  · exact first
  · exact second

/-- Collecting the errors of a unification allocates nothing besides. -/
theorem KeepsSize.failures {x : Unify Unit} (keeps : KeepsSize x) : KeepsSize (failures x) := by
  intro t
  have here := keeps t
  rw [Unify.failures]
  cases run : x t with
  | ok _ t₁ =>
      rw [run] at here
      exact here
  | error e t₁ =>
      rw [run] at here
      dsimp only
      split
      · exact here
      · exact here

/-- Reporting errors allocates nothing. -/
theorem keepsSize_report (errors : List UnifyError) : KeepsSize (report errors) := by
  cases errors with
  | nil => exact keepsSize_pure ()
  | cons e errors => exact keepsSize_throw _

/-- Following a variable to its root allocates nothing. -/
theorem keepsSize_root (ty : OpenTy) : KeepsSize (root ty) := by
  intro t
  rw [root]
  split
  · split
    · rfl
    · rfl
  · rfl

/-- Binding a variable, or refusing to, allocates nothing. -/
theorem keepsSize_solve (v : Nat) (target : OpenTy) : KeepsSize (solve v target) := by
  refine (keepsSize_root target).bind fun ty => ?_
  refine (keepsSize_pure ()).ite fun t => ?_
  cases t.occursCheck v ty with
  | error e => rfl
  | ok _ =>
      cases allowed : t.canBind v with
      | true => exact Table.size_bind t v ty
      | false => rfl

variable {through : OpenTy → OpenTy → Unify Unit}

/-- Unifying types pair by pair allocates nothing if unifying each pair does not, by induction on
the first types.
-/
theorem keepsSize_pairsWith {as : List OpenTy}
    (each : ∀ a ∈ as, ∀ b, KeepsSize (typesWith through a b)) (bs : List OpenTy)
    : KeepsSize (pairsWith through as bs) := by
  induction as generalizing bs with
  | nil =>
      rw [pairsWith]
      · exact keepsSize_pure []
      · simp
  | cons a as ih =>
      cases bs with
      | nil =>
          rw [pairsWith]
          · exact keepsSize_pure []
          · simp
      | cons b bs =>
          rw [pairsWith]
          exact (each a (.head _) b).failures.bind fun _ =>
            (ih (fun a member => each a (.tail _ member)) bs).bind fun _ => keepsSize_pure _

/-- One level of unification allocates nothing if the levels below do not, by induction on the parts
of the first type.
-/
theorem keepsSize_typesWith (keeps : ∀ a b, KeepsSize (through a b)) (a b : OpenTy)
    : KeepsSize (typesWith through a b) := by
  induction a using OpenTy.partsInduction generalizing b with
  | var v =>
      rw [typesWith]
      refine (keepsSize_root _).bind fun ty => ?_
      split
      · exact keepsSize_solve _ b
      · exact keeps _ b
  | atomic a =>
      rw [typesWith]
      refine (keepsSize_root _).bind fun ty => ?_
      split
      · exact keepsSize_solve _ _
      · split
        · exact keepsSize_pure ()
        · exact keepsSize_throw _
  | named | wildcard =>
      rw [typesWith]
      refine (keepsSize_root _).bind fun ty => ?_
      split
      · exact keepsSize_solve _ _
      · exact keepsSize_throw _
  | procedure params result ihParams ihResult =>
      rw [typesWith]
      refine (keepsSize_root _).bind fun ty => ?_
      split
      · exact keepsSize_solve _ _
      · split
        · exact (keepsSize_pairsWith ihParams _).bind fun _ =>
            (ihResult _).failures.bind fun _ => keepsSize_report _
        · exact keepsSize_throw _
      · exact keepsSize_throw _

/-- Unification to any depth allocates nothing, by induction on the depth. -/
theorem keepsSize_typesTo (depth : Nat) (a b : OpenTy) : KeepsSize (typesTo depth a b) := by
  induction depth generalizing a b with
  | zero => exact keepsSize_throw _
  | succ depth ih => exact keepsSize_typesWith ih a b

end Unify

/-- A unification that succeeds changes neither the number of variables nor the known names. -/
theorem Infer.kept_of_unify {a b : OpenTy} {context : Expr} {s s' : State}
    (run : unify a b context s = .ok () s')
    : s'.table.size = s.table.size ∧ s'.names = s.names := by
  have size := Unify.keepsSize_typesTo (s.table.snapshot.2.size + 1) a b s.table.snapshot.2
  rw [unify, transaction] at run
  dsimp only [Unify.types] at run
  cases ends : Unify.typesTo (s.table.snapshot.2.size + 1) a b s.table.snapshot.2 with
  | error e t =>
      rw [ends] at run
      dsimp only at run
      split at run
      · cases run
      · cases run
  | ok _ t =>
      rw [ends] at run size
      dsimp only at run
      split at run
      · cases run
        exact ⟨size, rfl⟩
      · cases run

-----------------------------------------------------------------------------------------
-- What a state allocates
-----------------------------------------------------------------------------------------

namespace State

variable {s s₁ s₂ s' : State}

/-- The names among these that the state does not know. -/
def newNames (s : State) (names : List String) : Finset String :=
  names.toFinset.filter fun name => s.names.lookup name = none

/-- The later state has a new variable for each request without a name, and one for each name
requested that was not known. From then on these names are known.
-/
structure Allocates (s : State) (requests : List (Option String)) (s' : State) : Prop where
  size
    : s'.table.size
      = s.table.size + requests.count none + (s.newNames requests.reduceOption).card
  known
    : ∀ name,
        s'.names.lookup name = none ↔ s.names.lookup name = none ∧ some name ∉ requests

/-- The new names among requests are the requested ones that the state does not know. -/
theorem mem_newNames {requests : List (Option String)} {name : String}
    : name ∈ s.newNames requests.reduceOption
      ↔ some name ∈ requests ∧ s.names.lookup name = none := by
  rw [newNames, Finset.mem_filter, List.mem_toFinset, List.reduceOption_mem_iff]

/-- Nothing is requested where variables and names stay as they are. -/
theorem Allocates.of_same (size : s'.table.size = s.table.size) (names : s'.names = s.names)
    : s.Allocates [] s' :=
  ⟨by simp [size, newNames], by simp [names]⟩

/-- What the second state does not know was unknown before, unless it was requested since. -/
theorem Allocates.trans {requests₁ requests₂ : List (Option String)}
    (first : s.Allocates requests₁ s₁) (second : s₁.Allocates requests₂ s₂)
    : s.Allocates (requests₁ ++ requests₂) s₂ := by
  constructor
  · have splits
        : s.newNames (requests₁ ++ requests₂).reduceOption
          = s.newNames requests₁.reduceOption ∪ s₁.newNames requests₂.reduceOption := by
      ext name
      simp only [mem_newNames, Finset.mem_union, List.mem_append, first.known]
      tauto
    have apart
        : Disjoint (s.newNames requests₁.reduceOption) (s₁.newNames requests₂.reduceOption) := by
      rw [Finset.disjoint_left]
      intro name inFirst inSecond
      exact ((first.known name).mp (mem_newNames.mp inSecond).2).2 (mem_newNames.mp inFirst).1
    rw [second.size, first.size, splits, Finset.card_union_of_disjoint apart, List.count_append]
    omega
  · intro name
    rw [second.known, first.known, List.mem_append, not_or, and_assoc]

/-- The order of requests does not count. -/
theorem Allocates.perm {requests requests' : List (Option String)}
    (allocates : s.Allocates requests s') (same : requests.Perm requests')
    : s.Allocates requests' s' := by
  have names : s.newNames requests.reduceOption = s.newNames requests'.reduceOption := by
    ext name
    rw [mem_newNames, mem_newNames, same.mem_iff]
  constructor
  · rw [allocates.size, same.count_eq, names]
  · intro name
    rw [allocates.known, same.mem_iff]

/-- A step that allocates nothing. -/
theorem Allocates.andThen {requests : List (Option String)} (first : s.Allocates requests s₁)
    (second : s₁.Allocates [] s')
    : s.Allocates requests s' := by
  simpa using first.trans second

/-- A fresh variable is one request without a name. -/
theorem allocates_fresh (s : State) : s.Allocates [none] s.fresh.2 :=
  ⟨by simp [newNames], by simp⟩

/-- The variable of a name is one request with it, granted only if the name is new. -/
theorem allocates_named (s : State) (name : String)
    : s.Allocates [some name] (s.named name).2 := by
  cases found : s.names.lookup name with
  | some v =>
      rw [named_of_known found]
      have nothing : s.newNames [name] = ∅ := by
        ext other
        simp only [newNames, Finset.mem_filter, List.mem_toFinset, List.mem_singleton,
          Finset.notMem_empty, iff_false]
        rintro ⟨rfl, unknown⟩
        rw [found] at unknown
        cases unknown
      constructor
      · simp [nothing]
      · intro other
        simp only [List.mem_singleton, Option.some.injEq]
        constructor
        · intro unknown
          refine ⟨unknown, ?_⟩
          rintro rfl
          rw [found] at unknown
          cases unknown
        · exact And.left
  | none =>
      rw [named_eq_of_unknown found]
      have one : s.newNames [name] = {name} := by
        ext other
        simp only [newNames, Finset.mem_filter, List.mem_toFinset, List.mem_singleton,
          Finset.mem_singleton]
        constructor
        · exact And.left
        · rintro rfl
          exact ⟨rfl, found⟩
      constructor
      · simp [one]
      · intro other
        simp only [List.mem_singleton, Option.some.injEq]
        by_cases same : other = name
        · subst same
          simp
        · rw [lookup_cons_of_ne same]
          simp [same]

/-- Several fresh variables are as many requests without a name, by induction on their number. -/
theorem allocates_freshMany (n : Nat) (s : State)
    : s.Allocates (List.replicate n none) (s.freshMany n) := by
  induction n generalizing s with
  | zero => exact .of_same rfl rfl
  | succ n ih =>
      rw [List.replicate_succ]
      exact (allocates_fresh s).trans (ih s.fresh.2)

end State

-----------------------------------------------------------------------------------------
-- Written types
-----------------------------------------------------------------------------------------

namespace Ty

mutual
/-- The number of wildcards in a written type. -/
def wildcards : Ty → Nat
  | .atomic _ | .named _ => 0
  | .wildcard => 1
  | .procedure params result => wildcardsOfAll params + result.wildcards

def wildcardsOfAll : List Ty → Nat
  | [] => 0
  | ty :: tys => ty.wildcards + wildcardsOfAll tys
end

mutual
/-- What is requested for a written type, from left to right. -/
def requests : Ty → List (Option String)
  | .atomic _ => []
  | .named name => [some name]
  | .wildcard => [none]
  | .procedure params result => requestsOfAll params ++ result.requests

def requestsOfAll : List Ty → List (Option String)
  | [] => []
  | ty :: tys => ty.requests ++ requestsOfAll tys
end

/-- Types request one after the other, by induction on the types. -/
theorem requestsOfAll_eq_flatMap (tys : List Ty) : requestsOfAll tys = tys.flatMap requests := by
  induction tys with
  | nil => rfl
  | cons ty tys ih => rw [requestsOfAll, List.flatMap_cons, ih]

mutual
/-- The requests of a type without a name are its wildcards. -/
theorem count_requests : (ty : Ty) → ty.requests.count none = ty.wildcards
  | .atomic _ | .named _ | .wildcard => rfl
  | .procedure params result => by
      rw [requests, wildcards, List.count_append, count_requestsOfAll params,
        count_requests result]

/-- So are those of several types. -/
theorem count_requestsOfAll : (tys : List Ty) → (requestsOfAll tys).count none = wildcardsOfAll tys
  | [] => rfl
  | ty :: tys => by
      rw [requestsOfAll, wildcardsOfAll, List.count_append, count_requests ty,
        count_requestsOfAll tys]
end

/-- Taken together, the requests of types without a name are all their wildcards. -/
theorem count_flatMap_requests (tys : List Ty)
    : (tys.flatMap requests).count none = (tys.map wildcards).sum := by
  rw [List.count_flatMap]
  exact congrArg List.sum (List.map_congr_left fun ty _ => count_requests ty)

/-- The requests of a type with a name are its names, by induction on its parts. -/
theorem some_mem_requests {name : String} (ty : Ty)
    : some name ∈ ty.requests ↔ name ∈ ty.names := by
  induction ty using Ty.partsInduction with
  | atomic | wildcard => simp [requests, names]
  | named other => simp [requests, names]
  | procedure params result ihParams ihResult =>
      rw [requests, names, requestsOfAll_eq_flatMap, List.mem_append, List.mem_append, ihResult,
        List.mem_flatMap, mem_namesOfAll]
      refine or_congr_left (exists_congr fun ty => and_congr_right fun member => ?_)
      exact ihParams ty member

end Ty

namespace State

mutual
/-- A conversion allocates what the type requests, by induction on the type. -/
theorem allocates_convert (s : State) : (ty : Ty) → s.Allocates ty.requests (s.convert ty).2
  | .atomic _ => .of_same rfl rfl
  | .named name => s.allocates_named name
  | .wildcard => s.allocates_fresh
  | .procedure params result =>
      (allocates_convertAll s params).trans (allocates_convert (s.convertAll params).2 result)

/-- Conversions allocate what the types request one after the other. -/
theorem allocates_convertAll (s : State)
    : (tys : List Ty) → s.Allocates (Ty.requestsOfAll tys) (s.convertAll tys).2
  | [] => .of_same rfl rfl
  | ty :: tys => (allocates_convert s ty).trans (allocates_convertAll (s.convert ty).2 tys)
end

end State

-----------------------------------------------------------------------------------------
-- What is asked for by an expression
-----------------------------------------------------------------------------------------

namespace Expr

open Infer

mutual
/-- The expression with all expressions inside it, but none inside the value of a definition. -/
def visited (e : Expr) : List Expr :=
  e :: match e with
    | .number _ _ | .boolean _ _ | .string _ _ | .primitive _ _ | .var _ _ | .define _ _ _
    | .quote _ _ => []
    | .conditional _ test yes no => test.visited ++ yes.visited ++ no.visited
    | .lambda _ _ _ body => visitedOfAll body
    | .application _ operator operands => operator.visited ++ visitedOfAll operands
    | .letIn _ bindings body | .letrec _ bindings body =>
        visitedOfBindings bindings ++ visitedOfAll body
    | .program _ exprs => visitedOfAll exprs
    | .assign _ _ value => value.visited

def visitedOfAll : List Expr → List Expr
  | [] => []
  | e :: es => e.visited ++ visitedOfAll es

def visitedOfBindings : List (Declaration × Expr) → List Expr
  | [] => []
  | (_, value) :: bindings => value.visited ++ visitedOfBindings bindings
end

/-- The types written at the parameters and for the result of a lambda expression, or at the
variables of a `let`. Those at the variables of a `letrec` and of a definition do not matter.
-/
def ownAnnotations : Expr → List Ty
  | .lambda _ params result _ => declaredTypes params ++ [result.ty]
  | .letIn _ bindings _ => declaredTypes (bindings.map (·.1))
  | _ => []

/-- The annotations that an inference converts. -/
def annotations (e : Expr) : List Ty := e.visited.flatMap ownAnnotations

/-- The operators that ask for a type. -/
def predicates : List Primitive :=
  [.isNumber, .isBoolean, .isString, .isSymbol, .isList, .isPair]

/-- The operators that compare values of any two types. -/
def comparisons : List Primitive := [.eq, .equal, .stringEq]

def isApplication : Expr → Bool
  | .application .. => true
  | _ => false

/-- The expression is one of the operators. -/
def refersTo (ops : List Primitive) : Expr → Bool
  | .primitive _ op => ops.contains op
  | _ => false

/-- What is requested for an expression, besides what is requested for its parts. -/
def ownRequests (e : Expr) : List (Option String) :=
  match e with
  | .primitive _ op => List.replicate op.quantified none
  | .application _ _ _ => [none]
  | e => e.ownAnnotations.flatMap Ty.requests

/-- What is requested by the inference of the types of expressions. -/
def requestsOf (es : List Expr) : List (Option String) := es.flatMap ownRequests

/-- Expressions request one after the other. -/
@[simp]
theorem requestsOf_cons (e : Expr) (es : List Expr)
    : requestsOf (e :: es) = e.ownRequests ++ requestsOf es := rfl

/-- The requests of expressions put one after the other are put one after the other. -/
@[simp]
theorem requestsOf_append (es es' : List Expr)
    : requestsOf (es ++ es') = requestsOf es ++ requestsOf es' :=
  List.flatMap_append

/-- Expressions in another order request the same in another order. -/
theorem requestsOf_perm {es es' : List Expr} (same : es.Perm es')
    : (requestsOf es).Perm (requestsOf es') :=
  same.flatMap_right _

/-- A procedure is visited before its body, so that the procedures of a `letrec` can be taken out
and put before all their bodies.
-/
theorem visitedOfBindings_perm {bindings : List (Declaration × Expr)}
    (procedures : ∀ binding ∈ bindings, isLambda binding.2 = true)
    : (bindings.map (·.2)
        ++ bindings.flatMap fun binding => visitedOfAll binding.2.procedureBody).Perm
        (visitedOfBindings bindings) := by
  induction bindings with
  | nil => exact .refl _
  | cons binding rest ih =>
      obtain ⟨declaration, value⟩ := binding
      have here := procedures _ (.head _)
      cases value with
      | lambda pos params result body =>
          refine .cons _ ((List.perm_append_comm_assoc _ _ _).trans ?_)
          exact (ih fun b member => procedures b (.tail _ member)).append_left _
      | number | boolean | string | primitive | var | conditional | application | letIn
      | letrec | define | program | quote | assign => cases here

/-- The signature of a procedure allocates what its annotations request. -/
theorem allocates_signature {params : List Declaration} {result : TypeExpr} {s s' : State}
    {sig : List OpenTy × OpenTy} (run : signature params result s = .ok sig s')
    : s.Allocates ((declaredTypes params ++ [result.ty]).flatMap Ty.requests) s' := by
  cases run
  have all :=
    (s.allocates_convertAll (declaredTypes params)).trans (State.allocates_convert _ result.ty)
  simpa [Ty.requestsOfAll_eq_flatMap] using all

/-- The signatures of bound procedures allocate what their annotations request, by induction on the
bindings.
-/
theorem allocates_signatures {bindings : List (Declaration × Expr)}
    (procedures : ∀ binding ∈ bindings, isLambda binding.2 = true) {s s' : State}
    {sigs : List (List OpenTy × OpenTy)} (run : signatures bindings s = .ok sigs s')
    : s.Allocates (requestsOf (bindings.map (·.2))) s' := by
  induction bindings generalizing s sigs with
  | nil =>
      cases run
      exact .of_same rfl rfl
  | cons binding rest ih =>
      obtain ⟨declaration, value⟩ := binding
      have here := procedures _ (.head _)
      cases value with
      | lambda pos params result body =>
          obtain ⟨first, s₁, runFirst, run⟩ := run_bind_eq_ok_iff.mp run
          obtain ⟨others, s₂, runRest, results⟩ := run_bind_eq_ok_iff.mp run
          cases results
          exact (allocates_signature runFirst).trans
            (ih (fun b member => procedures b (.tail _ member)) runRest)
      | number | boolean | string | primitive | var | conditional | application | letIn
      | letrec | define | program | quote | assign => cases here

/-- A unification that succeeds allocates nothing. -/
theorem allocates_unify {a b : OpenTy} {context : Expr} {s s' : State}
    (run : unify a b context s = .ok () s')
    : s.Allocates [] s' :=
  .of_same (kept_of_unify run).1 (kept_of_unify run).2

mutual
/-- A derivation allocates what the expressions visited request, by induction on the derivation. -/
theorem Infers.allocates {env : TypeEnv} {e : Expr} {s s' : State} {u : OpenTy}
    : Infers env e s u s' → s.Allocates (requestsOf e.visited) s'
  | .noted byRule => by
      have noted : s.Allocates [] (s.typing e) := .of_same rfl rfl
      exact noted.trans byRule.allocates

/-- So does the rule of an expression. -/
theorem RuleInfers.allocates {env : TypeEnv} {e : Expr} {s s' : State} {u : OpenTy}
    : RuleInfers env e s u s' → s.Allocates (requestsOf e.visited) s'
  | .number | .boolean | .string | .define | .var _ => .of_same rfl rfl
  | .primitive => by
      rw [visited, requestsOf_cons, State.instantiate]
      exact (s.allocates_freshMany _).trans (.of_same rfl rfl)
  | .conditional inTest inYes inNo sameTest sameNo => by
      have parts := (inTest.allocates.trans inYes.allocates).trans inNo.allocates
      have all := (parts.andThen (allocates_unify sameTest)).andThen (allocates_unify sameNo)
      simpa [visited, ownRequests, ownAnnotations] using all
  | .lambda signed inBody same => by
      rw [visited, requestsOf_cons]
      exact ((allocates_signature signed).trans inBody.allocates).andThen (allocates_unify same)
  | .application inOperator inOperands same => by
      have parts := inOperator.allocates.trans inOperands.allocates
      have all := (parts.trans (State.allocates_fresh _)).andThen (allocates_unify same)
      rw [visited, requestsOf_cons, requestsOf_append]
      exact all.perm List.perm_append_comm
  | .letIn inBindings inBody => by
      rw [visited, requestsOf_cons, requestsOf_append, ← List.append_assoc]
      exact inBindings.allocates.trans inBody.allocates
  | .letrec procedures signed inProcedures inBody => by
      have values := (allocates_signatures procedures signed).trans inProcedures.allocates
      rw [← requestsOf_append] at values
      have inOrder := values.perm (requestsOf_perm (visitedOfBindings_perm procedures))
      simpa [visited, ownRequests, ownAnnotations] using inOrder.trans inBody.allocates

/-- So does a body. -/
theorem BodyInfers.allocates {env : TypeEnv} {es : List Expr} {s s' : State} {u : OpenTy}
    : BodyInfers env es s u s' → s.Allocates (requestsOf (visitedOfAll es)) s'
  | .last inLast => by
      simpa [visitedOfAll] using inLast.allocates
  | .next inFirst inRest => by
      rw [visitedOfAll, requestsOf_append]
      exact inFirst.allocates.trans inRest.allocates

/-- So do several expressions. -/
theorem EachInfers.allocates {env : TypeEnv} {es : List Expr} {s s' : State} {us : List OpenTy}
    : EachInfers env es s us s' → s.Allocates (requestsOf (visitedOfAll es)) s'
  | .nil => .of_same rfl rfl
  | .cons inFirst inRest => by
      rw [visitedOfAll, requestsOf_append]
      exact inFirst.allocates.trans inRest.allocates

/-- So do bindings, besides what their own annotations request. -/
theorem BindingsInfer.allocates {env : TypeEnv} {bindings : List (Declaration × Expr)}
    {s s' : State} {declared : List (String × OpenTy)}
    : BindingsInfer env bindings s declared s'
      → s.Allocates
          ((declaredTypes (bindings.map (·.1))).flatMap Ty.requests
            ++ requestsOf (visitedOfBindings bindings))
          s'
  | .nil => .of_same rfl rfl
  | .cons inValue same inRest => by
      have first := (s.allocates_convert _).trans inValue.allocates
      have all := (first.andThen (allocates_unify same)).trans inRest.allocates
      refine all.perm ?_
      simp only [visitedOfBindings, requestsOf_append, declaredTypes, List.map_cons,
        List.flatMap_cons, List.append_assoc]
      exact (List.perm_append_comm_assoc _ _ _).append_left _

/-- So do bound procedures, whose signatures were allocated before. -/
theorem ProceduresInfer.allocates {env : TypeEnv} {bindings : List (Declaration × Expr)}
    {sigs : List (List OpenTy × OpenTy)} {s s' : State}
    : ProceduresInfer env bindings sigs s s'
      → s.Allocates
          (requestsOf (bindings.flatMap fun binding => visitedOfAll binding.2.procedureBody)) s'
  | .nil => .of_same rfl rfl
  | .cons inBody same inRest => by
      rw [List.flatMap_cons, requestsOf_append]
      exact (inBody.allocates.andThen (allocates_unify same)).trans inRest.allocates
end

-----------------------------------------------------------------------------------------
-- Counting
-----------------------------------------------------------------------------------------

/-- The requests without a name that an expression makes itself, by its kind. -/
theorem count_ownRequests (e : Expr)
    : e.ownRequests.count none
      = (if e.isApplication then 1 else 0)
        + (e.ownAnnotations.map Ty.wildcards).sum
        + (if e.refersTo (.display :: predicates) then 1 else 0)
        + 2 * if e.refersTo comparisons then 1 else 0 := by
  cases e with
  | primitive pos op => cases op <;> rfl
  | lambda | letIn =>
      simp [ownRequests, isApplication, refersTo, Ty.count_flatMap_requests]
  | number | boolean | string | var | conditional | application | letrec | define | program
  | quote | assign => rfl

/-- The requests without a name are one for each application, wildcard, predicate and `display`, and
two for each comparison, by induction on the expressions.
-/
theorem count_requestsOf (es : List Expr)
    : (requestsOf es).count none
      = es.countP isApplication
        + ((es.flatMap ownAnnotations).map Ty.wildcards).sum
        + es.countP (refersTo (.display :: predicates))
        + 2 * es.countP (refersTo comparisons) := by
  induction es with
  | nil => rfl
  | cons e es ih =>
      simp only [requestsOf_cons, List.count_append, count_ownRequests, ih, List.countP_cons,
        List.flatMap_cons, List.map_append, List.sum_append]
      omega

/-- The requests of an expression with a name are the names in its annotations. -/
theorem some_mem_ownRequests (e : Expr) (name : String)
    : some name ∈ e.ownRequests ↔ ∃ ty ∈ e.ownAnnotations, name ∈ ty.names := by
  cases e with
  | primitive pos op => simp [ownRequests, ownAnnotations]
  | lambda | letIn => simp [ownRequests, List.mem_flatMap, Ty.some_mem_requests]
  | number | boolean | string | var | conditional | application | letrec | define | program
  | quote | assign => simp [ownRequests, ownAnnotations]

/-- The requests of expressions with a name are the names in their annotations. -/
theorem some_mem_requestsOf (es : List Expr) (name : String)
    : some name ∈ requestsOf es ↔ name ∈ (es.flatMap ownAnnotations).flatMap Ty.names := by
  simp only [requestsOf, List.mem_flatMap, some_mem_ownRequests]
  constructor
  · rintro ⟨e, member, ty, written, occurs⟩
    exact ⟨ty, ⟨e, member, written⟩, occurs⟩
  · rintro ⟨ty, ⟨e, member, written⟩, occurs⟩
    exact ⟨e, member, ty, written, occurs⟩

/-- The names known after a successful inference are those of its annotations and those known
before.
-/
theorem known_of_typeOf {env : TypeEnv} {e : Expr} {s s' : State} {u : OpenTy}
    (run : e.typeOf env s = .ok u s') (name : String)
    : s'.names.lookup name = none
      ↔ s.names.lookup name = none ∧ name ∉ e.annotations.flatMap Ty.names := by
  rw [(infers_of_typeOf e env s u s' run).allocates.known, some_mem_requestsOf, annotations]

/-- A successful inference allocates a variable for each application, for each wildcard in an
annotation, for each reference to a predicate on types or to `display`, two for each reference to a
comparison of any values, and one for each name in an annotation that the state did not know.
Neither what is written inside the value of a definition counts nor the annotation at a variable of
a `letrec` or of a definition.
-/
theorem typeOf_allocates {env : TypeEnv} {e : Expr} {s s' : State} {u : OpenTy}
    (run : e.typeOf env s = .ok u s')
    : s'.table.size
      = s.table.size
        + e.visited.countP isApplication
        + (e.annotations.map Ty.wildcards).sum
        + e.visited.countP (refersTo (.display :: predicates))
        + 2 * e.visited.countP (refersTo comparisons)
        + (s.newNames (e.annotations.flatMap Ty.names)).card := by
  have allocates := (infers_of_typeOf e env s u s' run).allocates
  have names
      : s.newNames (requestsOf e.visited).reduceOption
        = s.newNames (e.annotations.flatMap Ty.names) := by
    ext name
    rw [State.mem_newNames, some_mem_requestsOf, State.newNames, Finset.mem_filter,
      List.mem_toFinset, annotations]
  rw [allocates.size, count_requestsOf, names, annotations]
  omega

/-- The annotations `V` and `W` and the application in the definition do not count. -/
def countedSource : String :=
  "(letrec (((f : V) (lambda ((x : T) y) : U (display (eq? x y)) (f x y))))
     (let (((z : T) 1)) (define (q : W) (f 2 3)) (number? z)))"

/-- The state knows `T` from before. -/
theorem typeOf_allocates_counted
    : ∃ e u s',
        parse 1 countedSource = .ok e
        ∧ e.typeOf .empty (State.empty.named "T").2 = .ok u s'
        ∧ s'.table.size = 1 + 4 + 1 + 2 + 2 * 1 + 1 := by
  have runs
      : (parse 1 countedSource).toOption.any (fun e =>
          e.visited.countP isApplication = 4
          && (e.annotations.map Ty.wildcards).sum = 1
          && e.visited.countP (refersTo (.display :: predicates)) = 2
          && e.visited.countP (refersTo comparisons) = 1
          && ((State.empty.named "T").2.newNames (e.annotations.flatMap Ty.names)).card = 1
          && SucceededWith (fun _ _ => True) (e.typeOf .empty (State.empty.named "T").2))
        = true := by
    decide +kernel
  obtain ⟨e, parsed, counts⟩ := exists_ok_of_any runs
  simp only [Bool.and_eq_true, decide_eq_true_eq] at counts
  obtain ⟨⟨⟨⟨⟨applications, wildcards⟩, ones⟩, twos⟩, names⟩, succeeded⟩ := counts
  obtain ⟨u, s', run, _⟩ := succeeded.exists_ok
  have size := typeOf_allocates run
  rw [applications, wildcards, ones, twos, names] at size
  exact ⟨e, u, s', parsed, run, size⟩

end Expr

end TypedScheme
