import TypedScheme.Expr.Parser
import TypedScheme.Proofs.Inference.Soundness

/-! Inference asks the environment for the free variables of an expression and for nothing else.
Main statement: in two environments that answer alike for the free variables, whatever their layers
are, an inference has the same result and leaves the same state.
-/

namespace TypedScheme

-----------------------------------------------------------------------------------------
-- Free variables
-----------------------------------------------------------------------------------------

namespace Expr

open Infer

/-- The names of the definitions among some expressions. -/
def definedNames : List Expr → List String
  | [] => []
  | .define _ declaration _ :: es => declaration.id.name :: definedNames es
  | _ :: es => definedNames es

mutual
/-- The names of the variables that occur free. The values of a `let` are outside the scope of its
variables, and those of a `letrec` inside. A definition binds its name in its value and in the
program that it belongs to; in a body it binds nothing.
-/
def freeVars : Expr → List String
  | .number _ _ | .boolean _ _ | .string _ _ | .primitive _ _ | .quote _ _ => []
  | .var _ id => [id.name]
  | .conditional _ test yes no => test.freeVars ++ yes.freeVars ++ no.freeVars
  | .lambda _ params _ body => (freeVarsOfAll body).removeAll (declaredNames params)
  | .application _ operator operands => operator.freeVars ++ freeVarsOfAll operands
  | .letIn _ bindings body =>
      freeVarsOfValues bindings
        ++ (freeVarsOfAll body).removeAll (declaredNames (bindings.map (·.1)))
  | .letrec _ bindings body =>
      (freeVarsOfValues bindings ++ freeVarsOfAll body).removeAll
        (declaredNames (bindings.map (·.1)))
  | .define _ declaration value => value.freeVars.removeAll [declaration.id.name]
  | .program _ exprs => (freeVarsOfAll exprs).removeAll (definedNames exprs)
  | .assign _ id value => id.name :: value.freeVars

def freeVarsOfAll : List Expr → List String
  | [] => []
  | e :: es => e.freeVars ++ freeVarsOfAll es

def freeVarsOfValues : List (Declaration × Expr) → List String
  | [] => []
  | (_, value) :: bindings => value.freeVars ++ freeVarsOfValues bindings
end

end Expr

-----------------------------------------------------------------------------------------
-- Environments that agree
-----------------------------------------------------------------------------------------

namespace Environment

variable {α : Type} {env env' : Environment α}

/-- The environments give the same answer for each of the names. -/
def AgreeOn (env env' : Environment α) (names : List String) : Prop :=
  ∀ name ∈ names, env.get? name = env'.get? name

instance [DecidableEq α] (env env' : Environment α) (names : List String)
    : Decidable (env.AgreeOn env' names) :=
  inferInstanceAs (Decidable (∀ name ∈ names, env.get? name = env'.get? name))

/-- Environments that agree on names agree on any of them. -/
theorem AgreeOn.mono {names names' : List String} (agree : env.AgreeOn env' names)
    (among : ∀ name ∈ names', name ∈ names)
    : env.AgreeOn env' names' :=
  fun name member => agree name (among name member)

/-- Under a common layer the environments need not agree on the names bound there. -/
theorem AgreeOn.extend {names : List String} {bindings : List (String × α)}
    (agree : env.AgreeOn env' (names.removeAll (bindings.map (·.1))))
    : (env.extend bindings).AgreeOn (env'.extend bindings) names := by
  intro name member
  rw [get?_extend, get?_extend]
  cases found : bindings.reverse.lookup name with
  | some value => rfl
  | none =>
      rw [Option.none_or, Option.none_or]
      refine agree name (List.mem_filter.mpr ⟨member, ?_⟩)
      have absent : name ∉ bindings.map (·.1) := by
        intro bound
        obtain ⟨binding, inside, rfl⟩ := List.mem_map.mp bound
        have other := List.lookup_eq_none_iff.mp found binding (List.mem_reverse.mpr inside)
        simp at other
      simpa using absent

/-- Environments that agree on names together agree on each part of them. -/
theorem AgreeOn.parts {names names' : List String} (agree : env.AgreeOn env' (names ++ names'))
    : env.AgreeOn env' names ∧ env.AgreeOn env' names' :=
  ⟨agree.mono fun _ => List.mem_append_left _, agree.mono fun _ => List.mem_append_right _⟩

/-- The layer binds all the names, each to one of the values. -/
theorem AgreeOn.underNames {names bound : List String} {values : List α}
    (agree : env.AgreeOn env' (names.removeAll bound)) (length : bound.length = values.length)
    : (env.extend (bound.zip values)).AgreeOn (env'.extend (bound.zip values)) names := by
  rw [← List.map_fst_zip (Nat.le_of_eq length)] at agree
  exact agree.extend

end Environment

-----------------------------------------------------------------------------------------
-- The names that a rule adds to the environment
-----------------------------------------------------------------------------------------

/-- The parameters of a lambda expression; other expressions have none. -/
def Expr.params : Expr → List Declaration
  | .lambda _ params _ _ => params
  | _ => []

/-- As many types come out of a conversion as go in, by induction on the types. -/
theorem State.length_convertAll (tys : List Ty) (s : State)
    : (s.convertAll tys).1.length = tys.length := by
  induction tys generalizing s with
  | nil => rfl
  | cons ty tys ih => simp only [State.convertAll, List.length_cons, ih]

namespace Infer

variable {α β : Type} {s s' : State}

/-- There is one name for each declaration. -/
@[simp]
theorem length_declaredNames (declarations : List Declaration)
    : (declaredNames declarations).length = declarations.length := by
  rw [declaredNames, List.length_map]

/-- A signature has one type for each parameter. -/
theorem length_of_signature {params : List Declaration} {result : TypeExpr}
    {sig : List OpenTy × OpenTy} (run : signature params result s = .ok sig s')
    : (declaredNames params).length = sig.1.length := by
  cases run
  rw [State.length_convertAll, declaredTypes, List.length_map, length_declaredNames]

/-- Lambda expressions have a signature each, with a type for each parameter. -/
theorem signed_of_signatures {bindings : List (Declaration × Expr)}
    {sigs : List (List OpenTy × OpenTy)} (run : signatures bindings s = .ok sigs s')
    (lambdas : bindings.all (fun binding => isLambda binding.2) = true)
    : List.Forall₂ (fun binding sig => (declaredNames binding.2.params).length = sig.1.length)
        bindings sigs := by
  induction bindings generalizing s sigs with
  | nil =>
      cases run
      exact .nil
  | cons binding rest ih =>
      obtain ⟨declaration, value⟩ := binding
      rw [List.all_cons, Bool.and_eq_true] at lambdas
      cases value with
      | lambda pos params result body =>
          obtain ⟨_, _, first, others⟩ := run_bind_eq_ok_iff.mp run
          obtain ⟨_, _, ran, last⟩ := run_bind_eq_ok_iff.mp others
          cases last
          exact .cons (length_of_signature first) (ih ran lambdas.2)
      | number | boolean | string | primitive | var | conditional | application | letIn | letrec
      | define | program | quote | assign => cases lambdas.1

/-- The checks of bindings bind the declared names. -/
theorem names_of_checkBindings {env : TypeEnv} {bindings : List (Declaration × Expr)}
    {checks : List (Except TypeError (String × OpenTy))} {declared : List (String × OpenTy)}
    (run : Expr.checkBindings env bindings s = .ok checks s') (all : checks = declared.map .ok)
    : declared.map (·.1) = declaredNames (bindings.map (·.1)) := by
  induction bindings generalizing s checks declared with
  | nil =>
      cases run
      rw [List.map_eq_nil_iff.mp all.symm]
      rfl
  | cons binding rest ih =>
      obtain ⟨_, _, _, afterType⟩ := run_bind_eq_ok_iff.mp run
      obtain ⟨_, _, _, afterValue⟩ := run_bind_eq_ok_iff.mp afterType
      obtain ⟨checked, _, _, afterCheck⟩ := run_bind_eq_ok_iff.mp afterValue
      obtain ⟨others, _, ran, last⟩ := run_bind_eq_ok_iff.mp afterCheck
      cases last
      cases declared with
      | nil => cases all
      | cons first declared =>
          obtain ⟨here, there⟩ := List.cons.inj all
          cases checked with
          | error e => cases here
          | ok _ =>
              cases here
              exact congrArg (binding.1.id.name :: ·) (ih ran there)

/-- Two computations in a row are alike if the first ones are and the second ones are after them. -/
theorem run_bind_congr {x y : Infer α} {f g : α → Infer β} (first : x s = y s)
    (next : ∀ a s', x s = .ok a s' → f a s' = g a s')
    : (x >>= f) s = (y >>= g) s := by
  cases run : x s with
  | error e s' => rw [run_bind_error run, run_bind_error (first ▸ run)]
  | ok a s' => rw [run_bind_ok run, run_bind_ok (first ▸ run), next a s' run]

/-- Computations that run alike are attempted alike. -/
theorem attempt_congr {x y : Infer α} (same : x s = y s) : x.attempt s = y.attempt s := by
  rw [Infer.attempt, Infer.attempt, same]

end Infer

-----------------------------------------------------------------------------------------
-- The typing rules
-----------------------------------------------------------------------------------------

namespace Expr

open Infer

/-- Environments that agree on the free variables infer the expression alike in every state. -/
def TypingAlike (e : Expr) : Prop :=
  ∀ (s : State) (env env' : TypeEnv),
    env.AgreeOn env' e.freeVars → e.typeOf env s = e.typeOf env' s

variable {env env' : TypeEnv}

/-- A body is inferred alike in agreeing environments if its expressions are, by induction on the
expressions.
-/
theorem typeOfBody_alike {es : List Expr} (each : ∀ e ∈ es, e.TypingAlike)
    (agree : env.AgreeOn env' (freeVarsOfAll es)) (context : Expr) (s : State)
    : typeOfBody env context es s = typeOfBody env' context es s := by
  induction es generalizing s with
  | nil => rfl
  | cons e es ih =>
      have inHead := each e (.head _) s env env' (agree.mono fun _ => List.mem_append_left _)
      have inTail := agree.mono fun _ => List.mem_append_right e.freeVars
      cases es with
      | nil => exact inHead
      | cons next rest =>
          exact run_bind_congr inHead fun _ s₁ _ =>
            ih (fun e member => each e (.tail _ member)) inTail s₁

/-- Expressions are inferred alike in agreeing environments if each of them is, by induction on the
expressions.
-/
theorem typeOfEach_alike {es : List Expr} (each : ∀ e ∈ es, e.TypingAlike)
    (agree : env.AgreeOn env' (freeVarsOfAll es)) (s : State)
    : typeOfEach env es s = typeOfEach env' es s := by
  induction es generalizing s with
  | nil => rfl
  | cons e es ih =>
      have inHead := each e (.head _) s env env' (agree.mono fun _ => List.mem_append_left _)
      have inTail := agree.mono fun _ => List.mem_append_right e.freeVars
      refine run_bind_congr (attempt_congr inHead) fun _ s₁ _ => ?_
      refine run_bind_congr (ih (fun e member => each e (.tail _ member)) inTail s₁) ?_
      exact fun _ _ _ => rfl

/-- Bindings are checked alike in agreeing environments if their values are inferred alike, by
induction on the bindings.
-/
theorem checkBindings_alike {bindings : List (Declaration × Expr)}
    (each : ∀ binding ∈ bindings, binding.2.TypingAlike)
    (agree : env.AgreeOn env' (freeVarsOfValues bindings)) (s : State)
    : checkBindings env bindings s = checkBindings env' bindings s := by
  induction bindings generalizing s with
  | nil => rfl
  | cons binding rest ih =>
      have inHead := agree.mono fun _ => List.mem_append_left _
      have inTail := agree.mono fun _ => List.mem_append_right binding.2.freeVars
      refine run_bind_congr rfl fun _ s₁ _ => ?_
      refine run_bind_congr (attempt_congr (each binding (.head _) s₁ env env' inHead)) ?_
      intro _ s₂ _
      refine run_bind_congr rfl fun _ s₃ _ => ?_
      refine run_bind_congr (ih (fun binding member => each binding (.tail _ member)) inTail s₃) ?_
      exact fun _ _ _ => rfl

/-- The procedures are checked in the common environment of the `letrec`, each with its parameters.
-/
theorem checkProcedures_alike {bindings : List (Declaration × Expr)}
    {sigs : List (List OpenTy × OpenTy)}
    (each : ∀ binding ∈ bindings, ∀ e ∈ binding.2.procedureBody, e.TypingAlike)
    (signed
      : List.Forall₂ (fun binding sig => (declaredNames binding.2.params).length = sig.1.length)
          bindings sigs)
    (agree : env.AgreeOn env' (freeVarsOfValues bindings)) (s : State)
    : checkProcedures env bindings sigs s = checkProcedures env' bindings sigs s := by
  induction signed generalizing s with
  | nil => rfl
  | @cons binding sig rest sigs length _ ih =>
      obtain ⟨declaration, value⟩ := binding
      cases value with
      | lambda pos params result body =>
          have inHead := agree.mono fun _ => List.mem_append_left _
          have inTail := agree.mono fun _ => List.mem_append_right _
          have inBody := inHead.underNames length
          have bodies :=
            typeOfBody_alike (each _ (.head _)) inBody (.lambda pos params result body) s
          refine run_bind_congr (attempt_congr bodies) fun _ s₁ _ => ?_
          refine run_bind_congr rfl fun _ s₂ _ => ?_
          have others := ih (fun binding member => each binding (.tail _ member)) inTail s₂
          refine run_bind_congr others ?_
          exact fun _ _ _ => rfl
      | number | boolean | string | primitive | var | conditional | application | letIn | letrec
      | define | program | quote | assign => rfl

/-- Inference is alike where the environments agree on the free variables, by induction over the
expression.
-/
theorem typeOf_alike (e : Expr) : e.TypingAlike := by
  induction e using partsInduction with
  | number | boolean | string | primitive | define | program | quote | assign =>
      intro s env env' _
      rfl
  | var pos id =>
      intro s env env' agree
      have same : env.get? id.name = env'.get? id.name := agree id.name (.head _)
      refine run_bind_congr rfl fun _ s₁ _ => ?_
      simp only [same]
  | conditional pos test yes no ihTest ihYes ihNo =>
      intro s env env' agree
      obtain ⟨agreeBoth, agreeNo⟩ := agree.parts
      obtain ⟨agreeTest, agreeYes⟩ := agreeBoth.parts
      refine run_bind_congr rfl fun _ s₁ _ => ?_
      refine run_bind_congr (attempt_congr (ihTest s₁ env env' agreeTest)) fun _ s₂ _ => ?_
      refine run_bind_congr (attempt_congr (ihYes s₂ env env' agreeYes)) fun _ s₃ _ => ?_
      refine run_bind_congr (attempt_congr (ihNo s₃ env env' agreeNo)) fun _ s₄ _ => ?_
      rfl
  | lambda pos params result body ihBody =>
      intro s env env' agree
      refine run_bind_congr rfl fun _ s₁ _ => ?_
      refine run_bind_congr rfl fun sig s₂ signed => ?_
      have inBody := agree.underNames (length_of_signature signed)
      have bodies := typeOfBody_alike ihBody inBody (.lambda pos params result body) s₂
      refine run_bind_congr (attempt_congr bodies) fun _ s₃ _ => ?_
      rfl
  | application pos operator operands ihOperator ihOperands =>
      intro s env env' agree
      obtain ⟨agreeOperator, agreeOperands⟩ := agree.parts
      refine run_bind_congr rfl fun _ s₁ _ => ?_
      refine run_bind_congr (ihOperator s₁ env env' agreeOperator) fun _ s₂ _ => ?_
      refine run_bind_congr (typeOfEach_alike ihOperands agreeOperands s₂) fun _ s₃ _ => ?_
      rfl
  | letIn pos bindings body ihBindings ihBody =>
      intro s env env' agree
      obtain ⟨inValues, inBody⟩ := agree.parts
      refine run_bind_congr rfl fun _ s₁ _ => ?_
      refine run_bind_congr (checkBindings_alike ihBindings inValues s₁) fun checks s₂ checked => ?_
      rcases collect_cases checks (.letIn pos bindings body) with
        ⟨declared, all, values⟩ | ⟨e, fails, _⟩
      · rw [values]
        rw [← names_of_checkBindings checked all] at inBody
        exact typeOfBody_alike ihBody inBody.extend _ s₂
      · rw [fails]
        rfl
  | letrec pos bindings body ihProcedures ihBody =>
      intro s env env' agree
      refine run_bind_congr rfl fun _ s₁ _ => ?_
      dsimp only
      split
      · next lambdas =>
          refine run_bind_congr rfl fun sigs s₂ signed => ?_
          have signed := signed_of_signatures signed lambdas
          have length
              : (declaredNames (bindings.map (·.1))).length
                = (sigs.map fun sig => OpenTy.procedure sig.1 sig.2).length := by
            simp [signed.length_eq]
          obtain ⟨inValues, inBody⟩ := (agree.underNames length).parts
          have checks := checkProcedures_alike ihProcedures signed inValues s₂
          refine run_bind_congr checks fun _ s₃ _ => ?_
          refine run_bind_congr rfl fun _ s₄ _ => ?_
          exact typeOfBody_alike ihBody inBody _ s₄
      · rfl

/-- Whatever the expression, the state and the two environments are: if the environments give the
same answer for every variable that occurs free in the expression, then inference ends in the same
way, with the same type or the same error, and leaves the same state. The same holds where the
inferred type is then resolved.
-/
theorem typeOf_eq_of_agree (e : Expr) (s : State) (env env' : TypeEnv)
    (agree : ∀ name ∈ e.freeVars, env.get? name = env'.get? name)
    : e.typeOf env s = e.typeOf env' s ∧ e.inferIn env s = e.inferIn env' s := by
  have same := typeOf_alike e s env env' agree
  exact ⟨same, run_bind_congr same fun _ _ _ => rfl⟩

/-- The variables `x` and `g` are bound, and so is `y` in the procedure; `f` and another `y` are
free.
-/
def scopesSource : String := "(let ((x (f y))) (letrec ((g (lambda (y) (f x)))) (g #t)))"

def negation : OpenTy := .procedure [.atomic .boolean] (.atomic .boolean)

def flatEnv : TypeEnv := .ofList [("f", negation), ("y", .atomic .boolean)]

/-- Binds what is free as `flatEnv` does, in a layer above others and after bindings that it hides.
-/
def layeredEnv : TypeEnv :=
  (Environment.ofList [("f", .atomic .void), ("x", negation), ("g", .atomic .string)]).extend
    [("y", .atomic .number), ("f", negation), ("y", .atomic .boolean)]

/-- The environments agree on the free variables and differ in a bound one. -/
theorem typeOf_eq_of_agree_scopes
    : ∃ e u s',
        Expr.parse 1 scopesSource = .ok e
        ∧ e.freeVars = ["f", "y", "f"]
        ∧ (∀ name ∈ e.freeVars, flatEnv.get? name = layeredEnv.get? name)
        ∧ flatEnv.get? "x" ≠ layeredEnv.get? "x"
        ∧ e.typeOf flatEnv .empty = .ok u s'
        ∧ s'.table.resolve u = .atomic .boolean
        ∧ e.typeOf layeredEnv .empty = .ok u s' := by
  have runs
      : (Expr.parse 1 scopesSource).toOption.any (fun e =>
          e.freeVars = ["f", "y", "f"]
          ∧ flatEnv.AgreeOn layeredEnv e.freeVars
          ∧ SucceededWith (fun u s' => s'.table.resolve u = .atomic .boolean)
              (e.typeOf flatEnv .empty))
        = true := by
    decide +kernel
  obtain ⟨e, parsed, ran⟩ := exists_ok_of_any runs
  obtain ⟨free, agree, succeeded⟩ := of_decide_eq_true ran
  obtain ⟨u, s', run, resolved⟩ := succeeded.exists_ok
  have same := (typeOf_eq_of_agree e .empty flatEnv layeredEnv agree).1
  exact ⟨e, u, s', parsed, free, agree, by decide, run, resolved, same ▸ run⟩

end Expr

end TypedScheme
