import TypedScheme.Inference.State
import TypedScheme.Unification.Unify

/-! Unification as a system of rules without any bound on its recursions.
A derivation is the finite tree of the calls made, so that a call has one only if it ends. The rules
leave no choice: a call ends with one result at most.
-/

namespace TypedScheme

namespace Table

/-- Following bindings from variable to variable ends at the given type. -/
inductive ChainEnds (t : Table) : Nat → OpenTy → Prop
  | unbound {v : Nat} (inside : v < t.size) (unbound : t.binding? v = none)
    : ChainEnds t v (.var v)
  | link {v w : Nat} {ty : OpenTy} (bound : t.binding? v = some (.var w))
    (rest : ChainEnds t w ty)
    : ChainEnds t v ty
  | type {v : Nat} {ty : OpenTy} (bound : t.binding? v = some ty) (notVar : ∀ w, ty ≠ .var w)
    : ChainEnds t v ty

inductive RootEnds (t : Table) : OpenTy → OpenTy → Prop
  | var {v : Nat} {ty : OpenTy} (chain : t.ChainEnds v ty) : RootEnds t (.var v) ty
  | other {ty : OpenTy} (notVar : ∀ w, ty ≠ .var w) : RootEnds t ty ty

mutual
/-- The occurs check of `v` in a part of `whole` ends with the given outcome. -/
inductive CheckEnds (t : Table) (v : Nat) (whole : OpenTy)
    : OpenTy → Except UnifyError Unit → Prop
  | self : CheckEnds t v whole (.var v) (.error (.occurs v whole))
  | unbound {w : Nat} (other : w ≠ v) (inside : w < t.size) (unbound : t.binding? w = none)
    : CheckEnds t v whole (.var w) (.ok ())
  | bound {w : Nat} {ty : OpenTy} {outcome : Except UnifyError Unit} (other : w ≠ v)
    (bound : t.binding? w = some ty) (check : CheckEnds t v whole ty outcome)
    : CheckEnds t v whole (.var w) outcome
  | atomic (a : Atomic) : CheckEnds t v whole (.atomic a) (.ok ())
  | named (name : String) : CheckEnds t v whole (.named name) (.error (.badType (.named name)))
  | wildcard : CheckEnds t v whole .wildcard (.error (.badType .wildcard))
  | procedure {params : List OpenTy} {result : OpenTy} {outcome : Except UnifyError Unit}
    (inParams : ChecksEnd t v whole params (.ok ())) (inResult : CheckEnds t v whole result outcome)
    : CheckEnds t v whole (.procedure params result) outcome
  | parameter {params : List OpenTy} {result : OpenTy} {e : UnifyError}
    (inParams : ChecksEnd t v whole params (.error e))
    : CheckEnds t v whole (.procedure params result) (.error e)

/-- The parts are checked from left to right until one is refused. -/
inductive ChecksEnd (t : Table) (v : Nat) (whole : OpenTy)
    : List OpenTy → Except UnifyError Unit → Prop
  | nil : ChecksEnd t v whole [] (.ok ())
  | passed {ty : OpenTy} {tys : List OpenTy} {outcome : Except UnifyError Unit}
    (first : CheckEnds t v whole ty (.ok ())) (rest : ChecksEnd t v whole tys outcome)
    : ChecksEnd t v whole (ty :: tys) outcome
  | refused {ty : OpenTy} {tys : List OpenTy} {e : UnifyError}
    (first : CheckEnds t v whole ty (.error e))
    : ChecksEnd t v whole (ty :: tys) (.error e)
end

mutual
/-- Replacing variables by their bindings and at last by their names ends with the given type. -/
inductive ConversionEnds (t : Table) : OpenTy → Ty → Prop
  | bound {v : Nat} {ty : OpenTy} {converted : Ty} (bound : t.binding? v = some ty)
    (conversion : ConversionEnds t ty converted)
    : ConversionEnds t (.var v) converted
  | unbound {v : Nat} (inside : v < t.size) (unbound : t.binding? v = none)
    : ConversionEnds t (.var v) (.named (t.nameOf v))
  | atomic (a : Atomic) : ConversionEnds t (.atomic a) (.atomic a)
  | named (name : String) : ConversionEnds t (.named name) (.named name)
  | wildcard : ConversionEnds t .wildcard .wildcard
  | procedure {params : List OpenTy} {params' : List Ty} {result : OpenTy} {result' : Ty}
    (inParams : ConversionsEnd t params params') (inResult : ConversionEnds t result result')
    : ConversionEnds t (.procedure params result) (.procedure params' result')

inductive ConversionsEnd (t : Table) : List OpenTy → List Ty → Prop
  | nil : ConversionsEnd t [] []
  | cons {ty : OpenTy} {tys : List OpenTy} {converted : Ty} {converteds : List Ty}
    (first : ConversionEnds t ty converted) (rest : ConversionsEnd t tys converteds)
    : ConversionsEnd t (ty :: tys) (converted :: converteds)
end

end Table

namespace UnifyError

mutual
/-- The conversion of an error and of all its types ends with the given error. A fatal error has no
conversion.
-/
inductive ExplanationEnds (t : Table) (context : Expr) : UnifyError → TypeError → Prop
  | mismatch {expected inferred : OpenTy} {expected' inferred' : Ty}
    (first : t.ConversionEnds expected expected') (second : t.ConversionEnds inferred inferred')
    : ExplanationEnds t context (.mismatch expected inferred)
        (.mismatch expected' inferred' context.pos)
  | arity {n m : Nat} {expected inferred : OpenTy} {expected' inferred' : Ty}
    (first : t.ConversionEnds expected expected') (second : t.ConversionEnds inferred inferred')
    : ExplanationEnds t context (.arity n m (some (expected, inferred)))
        (.arity n m (some (expected', inferred')) context.pos)
  | lengths (n m : Nat)
    : ExplanationEnds t context (.arity n m none) (.arity n m none context.pos)
  | occurs {v : Nat} {ty : OpenTy} {var' ty' : Ty} (first : t.ConversionEnds (.var v) var')
    (second : t.ConversionEnds ty ty')
    : ExplanationEnds t context (.occurs v ty) (.occurs var' ty' context.pos)
  | badType {ty : OpenTy} {ty' : Ty} (conversion : t.ConversionEnds ty ty')
    : ExplanationEnds t context (.badType ty) (.badType ty' context.pos)
  | multiple {errors : List UnifyError} {errors' : List TypeError}
    (each : ExplanationsEnd t context errors errors')
    : ExplanationEnds t context (.multiple errors)
        (.multiple (Text.cap contextWidth context.text) errors' context.pos)

inductive ExplanationsEnd (t : Table) (context : Expr)
    : List UnifyError → List TypeError → Prop
  | nil : ExplanationsEnd t context [] []
  | cons {e : UnifyError} {es : List UnifyError} {e' : TypeError} {es' : List TypeError}
    (first : ExplanationEnds t context e e') (rest : ExplanationsEnd t context es es')
    : ExplanationsEnd t context (e :: es) (e' :: es')
end

end UnifyError

namespace Unify

/-- How a unification ends. -/
abbrev Outcome := EStateM.Result UnifyError Table Unit

/-- Roots that can never be made equal: no variables, not one and the same atomic type, not two
procedure types.
-/
def Mismatched : OpenTy → OpenTy → Prop
  | .var _, _ | _, .var _ => False
  | .atomic a, .atomic b => a ≠ b
  | .procedure _ _, .procedure _ _ => False
  | _, _ => True

mutual
/-- Making a variable equal to a type ends with the given result. -/
inductive AssignEnds : Nat → OpenTy → Table → Outcome → Prop
  | bound {t : Table} {v : Nat} {ty target : OpenTy} {r : Outcome}
    (bound : t.binding? v = some ty) (unified : TypesEnd ty target t r)
    : AssignEnds v target t r
  | self {t : Table} {v : Nat} {target : OpenTy} (inside : v < t.size)
    (unbound : t.binding? v = none) (root : t.RootEnds target (.var v))
    : AssignEnds v target t (.ok () t)
  | refused {t : Table} {v : Nat} {target ty : OpenTy} {e : UnifyError} (inside : v < t.size)
    (unbound : t.binding? v = none) (root : t.RootEnds target ty) (other : ty ≠ .var v)
    (check : t.CheckEnds v ty ty (.error e))
    : AssignEnds v target t (.error e t)
  | binds {t : Table} {v : Nat} {target ty : OpenTy} (inside : v < t.size)
    (unbound : t.binding? v = none) (root : t.RootEnds target ty) (other : ty ≠ .var v)
    (check : t.CheckEnds v ty ty (.ok ()))
    : AssignEnds v target t (.ok () (t.bind v ty))

/-- Unifying two types ends with the given result. -/
inductive TypesEnd : OpenTy → OpenTy → Table → Outcome → Prop
  | roots {t : Table} {a b rootA rootB : OpenTy} {r : Outcome}
    (first : t.RootEnds a rootA) (second : t.RootEnds b rootB) (unified : RootsEnd rootA rootB t r)
    : TypesEnd a b t r

/-- Unifying two roots ends with the given result. -/
inductive RootsEnd : OpenTy → OpenTy → Table → Outcome → Prop
  | self (t : Table) (v : Nat) : RootsEnd (.var v) (.var v) t (.ok () t)
  | left {t : Table} {v : Nat} {b : OpenTy} {r : Outcome}
    (other : b ≠ .var v) (assigned : AssignEnds v b t r)
    : RootsEnd (.var v) b t r
  | right {t : Table} {v : Nat} {a : OpenTy} {r : Outcome}
    (notVar : ∀ w, a ≠ .var w) (assigned : AssignEnds v a t r)
    : RootsEnd a (.var v) t r
  | atomic (t : Table) (a : Atomic) : RootsEnd (.atomic a) (.atomic a) t (.ok () t)
  | procedures {t : Table} {params params' : List OpenTy} {result result' : OpenTy} {r : Outcome}
    (length : params.length = params'.length)
    (unified : AllTypesEnd (params ++ [result]) (params' ++ [result']) t r)
    : RootsEnd (.procedure params result) (.procedure params' result') t r
  | arity {t : Table} {params params' : List OpenTy} {result result' : OpenTy}
    (lengths : params.length ≠ params'.length)
    : RootsEnd (.procedure params result) (.procedure params' result') t
        (.error (.arity params.length params'.length
          (some (.procedure params result, .procedure params' result'))) t)
  | mismatch {t : Table} {a b : OpenTy} (mismatched : Mismatched a b)
    : RootsEnd a b t (.error (.mismatch a b) t)

/-- Unifying two lists of types pair by pair ends with the given result. -/
inductive AllTypesEnd : List OpenTy → List OpenTy → Table → Outcome → Prop
  | lengths {t : Table} {as bs : List OpenTy} (lengths : as.length ≠ bs.length)
    : AllTypesEnd as bs t (.error (.arity as.length bs.length none) t)
  | success {t t' : Table} {as bs : List OpenTy} (length : as.length = bs.length)
    (pairs : PairsEnd (as.zip bs) t [] t')
    : AllTypesEnd as bs t (.ok () t')
  | failures {t t' : Table} {as bs : List OpenTy} {errors : List UnifyError}
    (length : as.length = bs.length) (failed : errors ≠ []) (pairs : PairsEnd (as.zip bs) t errors t')
    : AllTypesEnd as bs t (.error (.multiple errors) t')

/-- The pass over the pairs, which goes on after a failure, ends with these errors in this table. -/
inductive PairsEnd : List (OpenTy × OpenTy) → Table → List UnifyError → Table → Prop
  | nil (t : Table) : PairsEnd [] t [] t
  | success {t middle t' : Table} {a b : OpenTy} {pairs : List (OpenTy × OpenTy)}
    {errors : List UnifyError} (first : TypesEnd a b t (.ok () middle))
    (rest : PairsEnd pairs middle errors t')
    : PairsEnd ((a, b) :: pairs) t errors t'
  | failure {t middle t' : Table} {a b : OpenTy} {pairs : List (OpenTy × OpenTy)}
    {e : UnifyError} {errors : List UnifyError} (first : TypesEnd a b t (.error e middle))
    (rest : PairsEnd pairs middle errors t')
    : PairsEnd ((a, b) :: pairs) t (e :: errors) t'
end

end Unify

-----------------------------------------------------------------------------------------
-- The rules leave no choice
-----------------------------------------------------------------------------------------

namespace Table

variable {t : Table}

/-- A chain of variables has one end, by induction on the chain. -/
theorem ChainEnds.unique {v : Nat} {ty ty' : OpenTy} (chain : t.ChainEnds v ty)
    (again : t.ChainEnds v ty')
    : ty = ty' := by
  induction chain with
  | unbound => cases again <;> simp_all
  | link => cases again <;> simp_all
  | type bound notVar =>
      cases again with
      | unbound _ unbound => simp [bound] at unbound
      | link bound' => exact absurd (Option.some.inj (bound.symm.trans bound')) (notVar _)
      | type bound' => exact Option.some.inj (bound.symm.trans bound')

/-- A type has one root. -/
theorem RootEnds.unique {a root root' : OpenTy} (ends : t.RootEnds a root)
    (again : t.RootEnds a root')
    : root = root' := by
  cases ends with
  | var chain =>
      cases again with
      | var chain' => exact chain.unique chain'
      | other notVar => exact absurd rfl (notVar _)
  | other notVar =>
      cases again with
      | var => exact absurd rfl (notVar _)
      | other => rfl

mutual
/-- An occurs check has one outcome, by induction on its run. -/
theorem CheckEnds.unique {v : Nat} {whole ty : OpenTy} {outcome outcome' : Except UnifyError Unit}
    (again : t.CheckEnds v whole ty outcome')
    : t.CheckEnds v whole ty outcome → outcome = outcome'
  | .self => by cases again <;> simp_all
  | .unbound _ _ _ => by cases again <;> simp_all
  | .bound _ bound check => by
      cases again with
      | self => contradiction
      | unbound _ _ unbound => simp_all
      | bound _ bound' check' =>
          cases Option.some.inj (bound.symm.trans bound')
          exact CheckEnds.unique check' check
  | .atomic _ => by cases again; rfl
  | .named _ => by cases again; rfl
  | .wildcard => by cases again; rfl
  | .procedure inParams inResult => by
      cases again with
      | procedure _ inResult' => exact CheckEnds.unique inResult' inResult
      | parameter inParams' => cases ChecksEnd.unique inParams' inParams
  | .parameter inParams => by
      cases again with
      | procedure inParams' _ => cases ChecksEnd.unique inParams' inParams
      | parameter inParams' => exact ChecksEnd.unique inParams' inParams

/-- So do the checks of several types. -/
theorem ChecksEnd.unique {v : Nat} {whole : OpenTy} {tys : List OpenTy}
    {outcome outcome' : Except UnifyError Unit} (again : t.ChecksEnd v whole tys outcome')
    : t.ChecksEnd v whole tys outcome → outcome = outcome'
  | .nil => by cases again; rfl
  | .passed first rest => by
      cases again with
      | passed _ rest' => exact ChecksEnd.unique rest' rest
      | refused first' => cases CheckEnds.unique first' first
  | .refused first => by
      cases again with
      | passed first' _ => cases CheckEnds.unique first' first
      | refused first' => exact CheckEnds.unique first' first
end

mutual
/-- A type is converted in one way, by induction on the conversion. -/
theorem ConversionEnds.unique {ty : OpenTy} {converted converted' : Ty}
    (again : t.ConversionEnds ty converted')
    : t.ConversionEnds ty converted → converted = converted'
  | .bound bound conversion => by
      cases again with
      | unbound _ unbound => simp_all
      | bound bound' conversion' =>
          cases Option.some.inj (bound.symm.trans bound')
          exact ConversionEnds.unique conversion' conversion
  | .unbound _ _ => by cases again <;> simp_all
  | .atomic _ => by cases again; rfl
  | .named _ => by cases again; rfl
  | .wildcard => by cases again; rfl
  | .procedure inParams inResult => by
      cases again with
      | procedure inParams' inResult' =>
          rw [ConversionsEnd.unique inParams' inParams, ConversionEnds.unique inResult' inResult]

/-- So are several types. -/
theorem ConversionsEnd.unique {tys : List OpenTy} {converted converted' : List Ty}
    (again : t.ConversionsEnd tys converted')
    : t.ConversionsEnd tys converted → converted = converted'
  | .nil => by cases again; rfl
  | .cons first rest => by
      cases again with
      | cons first' rest' =>
          rw [ConversionEnds.unique first' first, ConversionsEnd.unique rest' rest]
end

end Table

namespace UnifyError

mutual
/-- An error is explained in one way, by induction on the explanation. -/
theorem ExplanationEnds.unique {t : Table} {context : Expr} {e : UnifyError}
    {explained explained' : TypeError} (again : e.ExplanationEnds t context explained')
    : e.ExplanationEnds t context explained → explained = explained'
  | .mismatch first second => by
      cases again with
      | mismatch first' second' => rw [first.unique first', second.unique second']
  | .arity first second => by
      cases again with
      | arity first' second' => rw [first.unique first', second.unique second']
  | .lengths _ _ => by cases again; rfl
  | .occurs first second => by
      cases again with
      | occurs first' second' => rw [first.unique first', second.unique second']
  | .badType conversion => by
      cases again with
      | badType conversion' => rw [conversion.unique conversion']
  | .multiple each => by
      cases again with
      | multiple each' => rw [ExplanationsEnd.unique each' each]

/-- So are several errors. -/
theorem ExplanationsEnd.unique {t : Table} {context : Expr} {errors : List UnifyError}
    {explained explained' : List TypeError} (again : ExplanationsEnd t context errors explained')
    : ExplanationsEnd t context errors explained → explained = explained'
  | .nil => by cases again; rfl
  | .cons first rest => by
      cases again with
      | cons first' rest' =>
          rw [ExplanationEnds.unique first' first, ExplanationsEnd.unique rest' rest]
end

end UnifyError

namespace Unify

mutual
/-- An assignment has one outcome, by induction on its run. -/
theorem AssignEnds.unique {t : Table} {v : Nat} {target : OpenTy} {r r' : Outcome}
    (again : AssignEnds v target t r')
    : AssignEnds v target t r → r = r'
  | .bound bound unified => by
      cases again with
      | bound bound' unified' =>
          cases Option.some.inj (bound.symm.trans bound')
          exact TypesEnd.unique unified' unified
      | self _ unbound | refused _ unbound | binds _ unbound => simp [bound] at unbound
  | .self _ unbound root => by
      cases again with
      | bound bound => simp [bound] at unbound
      | self => rfl
      | refused _ _ root' other | binds _ _ root' other => exact absurd (root'.unique root) other
  | .refused _ unbound root other check => by
      cases again with
      | bound bound => simp [bound] at unbound
      | self _ _ root' => exact absurd (root.unique root') other
      | refused _ _ root' _ check' =>
          cases root.unique root'
          cases check.unique check'
          rfl
      | binds _ _ root' _ check' =>
          cases root.unique root'
          cases check.unique check'
  | .binds _ unbound root other check => by
      cases again with
      | bound bound => simp [bound] at unbound
      | self _ _ root' => exact absurd (root.unique root') other
      | refused _ _ root' _ check' =>
          cases root.unique root'
          cases check.unique check'
      | binds _ _ root' _ check' =>
          cases root.unique root'
          rfl
termination_by structural ends => ends

/-- So does the unification of two types. The recursion is on the run itself, not on the types: a
binding may be larger than the variable it replaces.
-/
theorem TypesEnd.unique {t : Table} {a b : OpenTy} {r r' : Outcome} (again : TypesEnd a b t r')
    : TypesEnd a b t r → r = r'
  | .roots first second unified => by
      cases again with
      | roots first' second' unified' =>
          cases first.unique first'
          cases second.unique second'
          exact RootsEnd.unique unified' unified
termination_by structural ends => ends

/-- So does that of two roots: the rules do not overlap. -/
theorem RootsEnd.unique {t : Table} {a b : OpenTy} {r r' : Outcome} (again : RootsEnd a b t r')
    : RootsEnd a b t r → r = r'
  | .self _ _ => by cases again <;> simp_all [Mismatched]
  | .left other assigned => by
      cases again with
      | left _ assigned' => exact AssignEnds.unique assigned' assigned
      | self | right | mismatch => simp_all [Mismatched]
  | .right notVar assigned => by
      cases again with
      | right _ assigned' => exact AssignEnds.unique assigned' assigned
      | self | left => simp_all
      | mismatch mismatched => cases a <;> simp_all [Mismatched]
  | .atomic _ _ => by cases again <;> simp_all [Mismatched]
  | .procedures length unified => by
      cases again with
      | procedures _ unified' => exact AllTypesEnd.unique unified' unified
      | arity lengths => exact absurd length lengths
      | mismatch mismatched => exact mismatched.elim
  | .arity lengths => by
      cases again with
      | procedures length => exact absurd length lengths
      | arity => rfl
      | mismatch mismatched => exact mismatched.elim
  | .mismatch mismatched => by
      cases again <;> simp_all [Mismatched]
termination_by structural ends => ends

/-- So does that of equally many types. -/
theorem AllTypesEnd.unique {t : Table} {as bs : List OpenTy} {r r' : Outcome}
    (again : AllTypesEnd as bs t r')
    : AllTypesEnd as bs t r → r = r'
  | .lengths lengths => by cases again <;> simp_all
  | .success _ pairs => by
      cases again with
      | lengths => contradiction
      | success _ pairs' => rw [(PairsEnd.unique pairs' pairs).2]
      | failures _ failed pairs' => exact absurd (PairsEnd.unique pairs' pairs).1.symm failed
  | .failures _ failed pairs => by
      cases again with
      | lengths => contradiction
      | success _ pairs' => exact absurd (PairsEnd.unique pairs' pairs).1 failed
      | failures _ _ pairs' =>
          obtain ⟨rfl, rfl⟩ := PairsEnd.unique pairs' pairs
          rfl
termination_by structural ends => ends

/-- Unifications of pairs collect one list of errors and leave one table. -/
theorem PairsEnd.unique {t left left' : Table} {pairs : List (OpenTy × OpenTy)}
    {errors errors' : List UnifyError} (again : PairsEnd pairs t errors' left')
    : PairsEnd pairs t errors left → errors = errors' ∧ left = left'
  | .nil _ => by cases again; exact ⟨rfl, rfl⟩
  | .success first rest => by
      cases again with
      | success first' rest' =>
          cases TypesEnd.unique first' first
          exact PairsEnd.unique rest' rest
      | failure first' rest' => cases TypesEnd.unique first' first
  | .failure first rest => by
      cases again with
      | success first' rest' => cases TypesEnd.unique first' first
      | failure first' rest' =>
          cases TypesEnd.unique first' first
          obtain ⟨rfl, rfl⟩ := PairsEnd.unique rest' rest
          exact ⟨rfl, rfl⟩
termination_by structural ends => ends
end

end Unify

end TypedScheme
