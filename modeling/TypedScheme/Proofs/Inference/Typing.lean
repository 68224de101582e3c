import Mathlib.Data.List.Forall2
import TypedScheme.Proofs.Inference.Moves

/-! The type system that inference is meant to decide, stated without tables and variables.
A typing fixes one type for every name in written types; a wildcard may be any type, each time
another one. There is no rule for programs, quotes, assignments and empty bodies.
-/

namespace TypedScheme

open Infer

/-- A type that may stand for a written type, where names stand for the types that `ρ` gives. -/
inductive Annotates (ρ : String → OpenTy) : Ty → OpenTy → Prop
  | atomic (a : Atomic) : Annotates ρ (.atomic a) (.atomic a)
  | named (name : String) : Annotates ρ (.named name) (ρ name)
  | wildcard (t : OpenTy) : Annotates ρ .wildcard t
  | procedure {params : List Ty} {result : Ty} {ts : List OpenTy} {t : OpenTy}
      (eachParam : List.Forall₂ (Annotates ρ) params ts) (ofResult : Annotates ρ result t)
    : Annotates ρ (.procedure params result) (.procedure ts t)

mutual
/-- The expression has the type in the environment. -/
inductive HasType (ρ : String → OpenTy) : TypeEnv → Expr → OpenTy → Prop
  | number {Γ : TypeEnv} {pos : Position} {value : Number}
    : HasType ρ Γ (.number pos value) (.atomic .number)
  | boolean {Γ : TypeEnv} {pos : Position} {value : Bool}
    : HasType ρ Γ (.boolean pos value) (.atomic .boolean)
  | string {Γ : TypeEnv} {pos : Position} {value : String}
    : HasType ρ Γ (.string pos value) (.atomic .string)
  | primitive {Γ : TypeEnv} {pos : Position} {op : Primitive} (τ : Nat → OpenTy)
    : HasType ρ Γ (.primitive pos op) (op.scheme.subst τ)
  | var {Γ : TypeEnv} {pos : Position} {id : Identifier} {t : OpenTy}
      (found : Γ.get? id.name = some t)
    : HasType ρ Γ (.var pos id) t
  | conditional {Γ : TypeEnv} {pos : Position} {test yes no : Expr} {t : OpenTy}
      (ofTest : HasType ρ Γ test (.atomic .boolean)) (ofYes : HasType ρ Γ yes t)
      (ofNo : HasType ρ Γ no t)
    : HasType ρ Γ (.conditional pos test yes no) t
  | lambda {Γ : TypeEnv} {pos : Position} {params : List Declaration} {result : TypeExpr}
      {body : List Expr} {ts : List OpenTy} {t : OpenTy}
      (eachParam : List.Forall₂ (Annotates ρ) (declaredTypes params) ts)
      (ofResult : Annotates ρ result.ty t)
      (ofBody : BodyHasType ρ (Γ.extend ((declaredNames params).zip ts)) body t)
    : HasType ρ Γ (.lambda pos params result body) (.procedure ts t)
  | application {Γ : TypeEnv} {pos : Position} {operator : Expr} {operands : List Expr}
      {ts : List OpenTy} {t : OpenTy}
      (ofOperator : HasType ρ Γ operator (.procedure ts t))
      (ofOperands : EachHasType ρ Γ operands ts)
    : HasType ρ Γ (.application pos operator operands) t
  /-- The values do not see the variables that the expression declares. -/
  | letIn {Γ : TypeEnv} {pos : Position} {bindings : List (Declaration × Expr)}
      {body : List Expr} {ts : List OpenTy} {t : OpenTy}
      (eachDeclared : List.Forall₂ (Annotates ρ) (declaredTypes (bindings.map (·.1))) ts)
      (ofValues : EachHasType ρ Γ (bindings.map (·.2)) ts)
      (ofBody : BodyHasType ρ (Γ.extend ((declaredNames (bindings.map (·.1))).zip ts)) body t)
    : HasType ρ Γ (.letIn pos bindings body) t
  /-- The types written for the declared variables do not matter. -/
  | letrec {Γ : TypeEnv} {pos : Position} {bindings : List (Declaration × Expr)}
      {body : List Expr} {ts : List OpenTy} {t : OpenTy}
      (procedures : ∀ binding ∈ bindings, isLambda binding.2 = true)
      (ofValues
        : EachHasType ρ (Γ.extend ((declaredNames (bindings.map (·.1))).zip ts))
            (bindings.map (·.2)) ts)
      (ofBody : BodyHasType ρ (Γ.extend ((declaredNames (bindings.map (·.1))).zip ts)) body t)
    : HasType ρ Γ (.letrec pos bindings body) t
  /-- A definition has no value, and the one written in it is not looked at. -/
  | define {Γ : TypeEnv} {pos : Position} {declaration : Declaration} {value : Expr}
    : HasType ρ Γ (.define pos declaration value) (.atomic .void)

/-- Every expression of the body has a type, and the last one has this type. -/
inductive BodyHasType (ρ : String → OpenTy) : TypeEnv → List Expr → OpenTy → Prop
  | last {Γ : TypeEnv} {e : Expr} {t : OpenTy} (ofLast : HasType ρ Γ e t)
    : BodyHasType ρ Γ [e] t
  | next {Γ : TypeEnv} {e next : Expr} {rest : List Expr} {ignored t : OpenTy}
      (ofFirst : HasType ρ Γ e ignored) (ofRest : BodyHasType ρ Γ (next :: rest) t)
    : BodyHasType ρ Γ (e :: next :: rest) t

/-- The expressions have the types, one by one. -/
inductive EachHasType (ρ : String → OpenTy) : TypeEnv → List Expr → List OpenTy → Prop
  | nil {Γ : TypeEnv} : EachHasType ρ Γ [] []
  | cons {Γ : TypeEnv} {e : Expr} {es : List Expr} {t : OpenTy} {ts : List OpenTy}
      (ofFirst : HasType ρ Γ e t) (ofRest : EachHasType ρ Γ es ts)
    : EachHasType ρ Γ (e :: es) (t :: ts)
end

-----------------------------------------------------------------------------------------
-- Environments under a function on types
-----------------------------------------------------------------------------------------

namespace Environment

variable {α β : Type}

/-- Applies a function to every value of an environment. -/
def map (f : α → β) (env : Environment α) : Environment β :=
  ⟨env.current.map (Prod.map id f), env.outer.map (List.map (Prod.map id f))⟩

/-- Names are found in a layer whatever is done to the values, by induction on the layer. -/
theorem lookup_map (f : α → β) (layer : Layer α) (name : String)
    : List.lookup name (layer.map (Prod.map id f)) = (layer.lookup name).map f := by
  induction layer with
  | nil => rfl
  | cons binding layer ih =>
      obtain ⟨key, a⟩ := binding
      rw [List.map_cons, Prod.map_apply, id, List.lookup_cons, List.lookup_cons, ih]
      cases name == key with
      | true => rfl
      | false => rfl

/-- Names are found in an environment whatever is done to the values, by induction on the layers. -/
theorem get?_map (f : α → β) (env : Environment α) (name : String)
    : (env.map f).get? name = (env.get? name).map f := by
  have everyLayer (layers : List (Layer α))
      : (layers.map (List.map (Prod.map id f))).findSome? (List.lookup name)
        = (layers.findSome? (List.lookup name)).map f := by
    induction layers with
    | nil => rfl
    | cons layer layers ih =>
        rw [List.map_cons, List.findSome?_cons, List.findSome?_cons, lookup_map, ih]
        cases layer.lookup name with
        | some a => rfl
        | none => rfl
  exact everyLayer env.layers

/-- There are no values in the empty environment. -/
@[simp]
theorem map_empty (f : α → β) : (empty : Environment α).map f = empty := rfl

/-- New bindings are mapped as the environment is. -/
@[simp]
theorem map_extend (f : α → β) (env : Environment α) (names : List String) (values : List α)
    : (env.extend (names.zip values)).map f
      = (env.map f).extend (names.zip (values.map f)) := by
  simp only [extend, map, layers, List.map_reverse, List.zip_map_right, List.map_cons]

-----------------------------------------------------------------------------------------
-- Environments with related values
-----------------------------------------------------------------------------------------

/-- A new layer hides the bindings of the same names in the layers before. -/
theorem get?_extend (env : Environment α) (bindings : List (String × α)) (name : String)
    : (env.extend bindings).get? name = (bindings.reverse.lookup name).or (env.get? name) := by
  rw [get?, extend, layers, List.findSome?_cons]
  cases bindings.reverse.lookup name with
  | none => rfl
  | some value => rfl

/-- Layers that bind the same names to related values give each name related values. -/
theorem rel_lookup {R : α → β → Prop} {layer : Layer α} {layer' : Layer β} (name : String)
    (related
      : List.Forall₂ (fun binding binding' => binding.1 = binding'.1 ∧ R binding.2 binding'.2)
          layer layer')
    : Option.Rel R (layer.lookup name) (layer'.lookup name) := by
  induction related with
  | nil => exact .none
  | cons first _ ih =>
      obtain ⟨sameName, related⟩ := first
      rw [List.lookup_cons, List.lookup_cons, sameName]
      split
      · exact .some related
      · exact ih

/-- Related values stay so when they are given names, by induction on the pairs. -/
theorem rel_zip {R : α → β → Prop} (names : List String) {values : List α} {values' : List β}
    (related : List.Forall₂ R values values')
    : List.Forall₂ (fun binding binding' => binding.1 = binding'.1 ∧ R binding.2 binding'.2)
        (names.zip values) (names.zip values') := by
  induction related generalizing names with
  | nil => simp
  | cons first _ ih =>
      cases names with
      | nil => exact .nil
      | cons name names => exact .cons ⟨rfl, first⟩ (ih names)

/-- Environments with related answers keep them when related bindings are added. -/
theorem rel_get?_extend {R : α → β → Prop} {env : Environment α} {env' : Environment β}
    (related : ∀ name, Option.Rel R (env.get? name) (env'.get? name))
    {bindings : List (String × α)} {bindings' : List (String × β)}
    (relatedBindings
      : List.Forall₂ (fun binding binding' => binding.1 = binding'.1 ∧ R binding.2 binding'.2)
          bindings bindings')
    (name : String)
    : Option.Rel R ((env.extend bindings).get? name) ((env'.extend bindings').get? name) := by
  have here := rel_lookup name (List.forall₂_reverse_iff.mpr relatedBindings)
  rw [get?_extend, get?_extend]
  generalize bindings.reverse.lookup name = found, bindings'.reverse.lookup name = found' at here ⊢
  cases here with
  | some related => exact .some related
  | none => exact related name

end Environment

-----------------------------------------------------------------------------------------
-- Solutions of states
-----------------------------------------------------------------------------------------

/-- The substitution solves the table and gives the variable of a name what `ρ` gives the name. -/
structure State.SolvedBy (s : State) (σ : Nat → OpenTy) (ρ : String → OpenTy) : Prop where
  table : s.table.SolvedBy σ
  names : ∀ {name v}, s.names.lookup name = some v → σ v = ρ name

/-- A solution of a later state is one of the earlier state. -/
theorem State.SolvedBy.of_extends {s s' : State} {σ : Nat → OpenTy} {ρ : String → OpenTy}
    (solved : s'.SolvedBy σ ρ) (later : s.Extends s')
    : s.SolvedBy σ ρ :=
  ⟨solved.table.of_extends later.table, fun found => solved.names (later.names found)⟩

/-- The type that a state gives to a name in written types; a name not met yet stands for itself. -/
def State.annotation (s : State) (name : String) : OpenTy :=
  match s.names.lookup name with
  | some v => s.table.resolve (.var v)
  | none => .named name

/-- A well-formed state is solved by what its variables are resolved to. -/
theorem State.WellFormed.solvedBy_resolve {s : State} (wf : s.WellFormed)
    : s.SolvedBy (fun v => s.table.resolve (.var v)) s.annotation where
  table := wf.table.solvedBy_resolve
  names := by
    intro name v found
    simp only [State.annotation, found]

end TypedScheme
