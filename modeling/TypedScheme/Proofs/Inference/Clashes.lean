import TypedScheme.Proofs.Diagnostic.Labels
import TypedScheme.Proofs.Inference.OccursErrors

/-! What the errors of an inference are.
A mismatch is found between two roots that are no variables and have different heads. Bindings that
are made later change what is inside them but not their heads, so that the types shown differ in the
same way. Main statement: every leaf of an error is a clash of this kind or a failure without types,
and an error always has a leaf.
-/

namespace TypedScheme

-----------------------------------------------------------------------------------------
-- Genuine errors
-----------------------------------------------------------------------------------------

/-- Two different atomic types, or an atomic type and a procedure type. -/
def Ty.HeadsDiffer : Ty → Ty → Prop
  | .atomic a, .atomic b => a ≠ b
  | .atomic _, .procedure _ _ | .procedure _ _, .atomic _ => True
  | _, _ => False

/-- The types of a mismatch have different heads, those of an arity mismatch are procedure types
with the recorded numbers of parameters, and several failures are some.
-/
inductive TypeError.Genuine : TypeError → Prop
  | unboundIdentifier (id : Identifier) (pos : Position) : Genuine (.unboundIdentifier id pos)
  | mismatch {expected inferred : Ty} (differ : expected.HeadsDiffer inferred) (pos : Position)
    : Genuine (.mismatch expected inferred pos)
  | arity {n m : Nat} {params params' : List Ty} {result result' : Ty}
      (expected : params.length = n)
      (inferred : params'.length = m) (differ : n ≠ m) (pos : Position)
    : Genuine (.arity n m (some (.procedure params result, .procedure params' result')) pos)
  | occurs (var ty : Ty) (pos : Position) : Genuine (.occurs var ty pos)
  | unsupported (construct reason context : String) (pos : Position)
    : Genuine (.unsupported construct reason context pos)
  | multiple {errors : List TypeError} (some : errors ≠ [])
      (each : ∀ error ∈ errors, Genuine error) (context : String) (pos : Position)
    : Genuine (.multiple context errors pos)

namespace TypeError.Genuine

variable {error : TypeError}

/-- A genuine error has a leaf, by induction on the error. -/
theorem leaves_ne_nil (genuine : error.Genuine) : error.leaves ≠ [] := by
  induction genuine with
  | unboundIdentifier | mismatch | arity | occurs | unsupported => simp [leaves]
  | @multiple errors some _ _ _ ih =>
      obtain ⟨first, rest, rfl⟩ := List.exists_cons_of_ne_nil some
      rw [leaves, leavesOfAll]
      exact List.append_ne_nil_of_left_ne_nil (ih first (.head _)) _

/-- The leaves of a genuine error are genuine, by induction on the error. -/
theorem leaf (genuine : error.Genuine) {leaf : TypeError} (isLeaf : leaf ∈ error.leaves)
    : leaf.Genuine := by
  induction genuine with
  | unboundIdentifier | mismatch | arity | occurs | unsupported =>
      rw [leaves, List.mem_singleton] at isLeaf
      subst isLeaf
      constructor <;> assumption
  | multiple _ _ _ _ ih =>
      rw [leaves] at isLeaf
      obtain ⟨error, member, inside⟩ := mem_leavesOfAll.mp isLeaf
      exact ih error member inside

/-- The nodes of a genuine error are genuine, by induction on the error. -/
theorem node (genuine : error.Genuine) {node : TypeError} (isNode : node ∈ error.nodes)
    : node.Genuine := by
  induction genuine with
  | unboundIdentifier | mismatch | arity | occurs | unsupported =>
      rw [nodes, List.mem_singleton] at isNode
      subst isNode
      constructor <;> assumption
  | multiple some each context pos ih =>
      rw [nodes] at isNode
      rcases List.mem_cons.mp isNode with rfl | inside
      · exact .multiple some each context pos
      · obtain ⟨error, member, isInside⟩ := mem_nodesOfAll.mp inside
        exact ih error member isInside

end TypeError.Genuine

-----------------------------------------------------------------------------------------
-- Errors of unification
-----------------------------------------------------------------------------------------

/-- A mismatch is one of roots, an arity mismatch one of procedure types. -/
inductive UnifyError.Genuine : UnifyError → Prop
  | mismatch {expected inferred : OpenTy} (mismatched : Unify.Mismatched expected inferred)
    : Genuine (.mismatch expected inferred)
  | arity {params params' : List OpenTy} {result result' : OpenTy}
      (lengths : params.length ≠ params'.length)
    : Genuine (.arity params.length params'.length
        (some (.procedure params result, .procedure params' result')))
  | occurs (v : Nat) (ty : OpenTy) : Genuine (.occurs v ty)
  | badType (ty : OpenTy) : Genuine (.badType ty)
  | multiple {errors : List UnifyError} (some : errors ≠ []) (each : ∀ e ∈ errors, Genuine e)
    : Genuine (.multiple errors)

namespace Table

/-- If the check is refused, then with a genuine error. -/
def RefusedGenuinely : Except UnifyError Unit → Prop
  | .ok _ => True
  | .error e => e.Genuine

mutual
/-- An occurs check is refused with a genuine error only, by induction on its run. -/
theorem CheckEnds.genuine {t : Table} {v : Nat} {whole ty : OpenTy}
    {outcome : Except UnifyError Unit}
    : t.CheckEnds v whole ty outcome → RefusedGenuinely outcome
  | .self => .occurs v whole
  | .unbound _ _ _ | .atomic _ => trivial
  | .bound _ _ check => check.genuine
  | .named _ | .wildcard => .badType _
  | .procedure _ inResult => inResult.genuine
  | .parameter inParams => inParams.genuine

/-- So are the checks of several types. -/
theorem ChecksEnd.genuine {t : Table} {v : Nat} {whole : OpenTy} {tys : List OpenTy}
    {outcome : Except UnifyError Unit}
    : t.ChecksEnd v whole tys outcome → RefusedGenuinely outcome
  | .nil => trivial
  | .passed _ rest => rest.genuine
  | .refused first => first.genuine
end

end Table

namespace Unify

/-- If the unification fails, then with a genuine error. -/
def FailsGenuinely : Outcome → Prop
  | .ok _ _ => True
  | .error e _ => e.Genuine

mutual
/-- A variable is refused its type with a genuine error only. -/
theorem AssignEnds.genuine {t : Table} {v : Nat} {target : OpenTy} {r : Outcome}
    : AssignEnds v target t r → FailsGenuinely r
  | .bound _ unified => unified.genuine
  | .self _ _ _ | .binds _ _ _ _ _ => trivial
  | .refused _ _ _ _ check => check.genuine

/-- A unification fails with a genuine error only, by induction on its run. -/
theorem TypesEnd.genuine {t : Table} {a b : OpenTy} {r : Outcome}
    : TypesEnd a b t r → FailsGenuinely r
  | .roots _ _ unified => unified.genuine

/-- So does the unification of roots. -/
theorem RootsEnd.genuine {t : Table} {a b : OpenTy} {r : Outcome}
    : RootsEnd a b t r → FailsGenuinely r
  | .self _ _ | .atomic _ _ => trivial
  | .left _ assigned | .right _ assigned => assigned.genuine
  | .procedures length unified => unified.genuine (by simpa using length)
  | .arity lengths => .arity lengths
  | .mismatch mismatched => .mismatch mismatched

/-- Lists of one length are unified pair by pair. -/
theorem AllTypesEnd.genuine {t : Table} {as bs : List OpenTy} {r : Outcome}
    (length : as.length = bs.length)
    : AllTypesEnd as bs t r → FailsGenuinely r
  | .lengths lengths => absurd length lengths
  | .success _ _ => trivial
  | .failures _ failed pairs => .multiple failed pairs.genuine

/-- All errors of unifications pair by pair are genuine. -/
theorem PairsEnd.genuine {t t' : Table} {pairs : List (OpenTy × OpenTy)} {errors : List UnifyError}
    : PairsEnd pairs t errors t' → ∀ e ∈ errors, e.Genuine
  | .nil _ => nofun
  | .success _ rest => rest.genuine
  | .failure first rest => List.forall_mem_cons.mpr ⟨first.genuine, rest.genuine⟩
end

end Unify

-----------------------------------------------------------------------------------------
-- Explanations keep the heads of types
-----------------------------------------------------------------------------------------

/-- A procedure type is printed part by part. -/
theorem Table.toTy_procedure (t : Table) (params : List OpenTy) (result : OpenTy)
    : t.toTy (.procedure params result) = .procedure (params.map t.toTy) (t.toTy result) :=
  OpenTy.toTy_subst_procedure params result

/-- Plain roots that can never be made equal are shown with different heads in every table. -/
theorem Unify.Mismatched.headsDiffer {a b : OpenTy} (mismatched : Mismatched a b)
    (plainA : a.isPlain = true) (plainB : b.isPlain = true) (t : Table)
    : (t.toTy a).HeadsDiffer (t.toTy b) := by
  cases a with
  | var v => exact mismatched.elim
  | named | wildcard => simp [OpenTy.isPlain] at plainA
  | atomic x =>
      cases b with
      | var v => exact mismatched.elim
      | named | wildcard => simp [OpenTy.isPlain] at plainB
      | atomic y => exact mismatched
      | procedure params result => trivial
  | procedure params result =>
      cases b with
      | var v => exact mismatched.elim
      | named | wildcard => simp [OpenTy.isPlain] at plainB
      | atomic y => trivial
      | procedure params' result' => exact mismatched.elim

/-- A genuine error about held types is explained as a genuine error. -/
theorem UnifyError.Genuine.toTypeError {error : UnifyError} (genuine : error.Genuine) {s : State}
    (about : error.About s.Holds) (t : Table) (context : Expr)
    : (error.toTypeError t context).Genuine := by
  induction genuine with
  | mismatch mismatched =>
      cases about with
      | mismatch first second =>
          rw [UnifyError.toTypeError]
          exact .mismatch (mismatched.headsDiffer first.plain second.plain t) context.pos
  | arity lengths =>
      rw [UnifyError.toTypeError, Option.map_some]
      dsimp only
      rw [t.toTy_procedure, t.toTy_procedure]
      exact .arity (List.length_map _) (List.length_map _) lengths context.pos
  | occurs =>
      rw [UnifyError.toTypeError]
      exact .occurs _ _ _
  | badType ty =>
      cases about with
      | badType holds bad =>
          rw [holds.plain] at bad
          cases bad
  | multiple some _ ih =>
      cases about with
      | multiple each =>
          rw [UnifyError.toTypeError, toTypeErrors_eq_map]
          refine .multiple (by simpa using some) ?_ _ _
          intro error member
          obtain ⟨unified, inside, rfl⟩ := List.mem_map.mp member
          exact ih unified inside (each unified inside)

/-- The error of a clash in a state is genuine. -/
theorem State.Clashed.genuine {s : State} {error : UnifyError} {left : Table}
    (clashed : s.Clashed error left)
    : error.Genuine := by
  obtain @⟨_, a, b, _, _, _, wf, holdsA, holdsB, failed⟩ := clashed
  have ends := Unify.types_ends wf.table.snapshot.toGrounded holdsA.below holdsB.below
  rw [failed] at ends
  exact ends.genuine

-----------------------------------------------------------------------------------------
-- Errors of an inference
-----------------------------------------------------------------------------------------

namespace Expr

/-- Every error that an inference reports is genuine, by induction on the report. -/
theorem Reports.genuine {e : Expr} {s : State} {error : TypeError} (reports : e.Reports s error)
    : error.Genuine := by
  induction reports with
  | unboundIdentifier => exact .unboundIdentifier _ _
  | @clash e _ _ left clashed =>
      rw [clashed.explain_eq]
      exact clashed.genuine.toTypeError (clashed.about.imp fun _ holds => holds.1) left e
  | unsupported | emptyBody => exact .unsupported _ _ _ _
  | several _ ih => exact .multiple (List.cons_ne_nil _ _) ih _ _
  | inPart _ _ ih => exact ih

/-- Every error has a leaf and no empty node, the types of a mismatch have different heads and are
no variables, and the types of an arity mismatch are procedure types with the different numbers of
parameters that it records.
-/
theorem clashes_genuine {env : TypeEnv} {s : State} (converted : env.ConvertedInto s) (e : Expr)
    {error : TypeError} {s' : State}
    (failed : e.typeOf env s = .error error s' ∨ e.inferIn env s = .error error s')
    : error.leaves ≠ []
      ∧ (∀ context pos, .multiple context [] pos ∉ error.nodes)
      ∧ (∀ expected inferred pos,
          .mismatch expected inferred pos ∈ error.leaves → expected.HeadsDiffer inferred)
      ∧ ∀ n m types pos,
          .arity n m types pos ∈ error.leaves
          → n ≠ m
            ∧ ∃ params result params' result',
                types = some (.procedure params result, .procedure params' result')
                ∧ params.length = n
                ∧ params'.length = m := by
  obtain ⟨wf, holds⟩ := converted.wellFormed_holdsEnv
  have gives := e.typeOf_gives s env wf holds
  have genuine : error.Genuine := by
    rcases failed with failed | failed
    · exact (gives.error failed).genuine
    · exact ((inferIn_gives gives).error failed).genuine
  refine ⟨genuine.leaves_ne_nil, ?_, ?_, ?_⟩
  · intro context pos isNode
    obtain - | - | - | - | - | ⟨some, -⟩ := genuine.node isNode
    exact some rfl
  · intro expected inferred pos isLeaf
    obtain - | ⟨differ⟩ := genuine.leaf isLeaf
    exact differ
  · intro n m types pos isLeaf
    obtain - | - | ⟨expected, inferred, differ⟩ := genuine.leaf isLeaf
    exact ⟨differ, _, _, _, _, rfl, expected, inferred⟩

end Expr

namespace TypeError

/-- The numbers of parameters, where they clash, and the types that do. -/
def clash? : TypeError → Option (Option (Nat × Nat) × Ty × Ty)
  | .mismatch expected inferred _ => some (none, expected, inferred)
  | .arity n m (some (expected, inferred)) _ => some (some (n, m), expected, inferred)
  | _ => none

/-- A clash without numbers of parameters is a mismatch. -/
theorem eq_mismatch_of_clash? {leaf : TypeError} {expected inferred : Ty}
    (clash : leaf.clash? = some (none, expected, inferred))
    : leaf = .mismatch expected inferred leaf.pos := by
  unfold clash? at clash
  split at clash <;> cases clash
  rfl

/-- A clash with numbers of parameters is an arity mismatch. -/
theorem eq_arity_of_clash? {leaf : TypeError} {n m : Nat} {expected inferred : Ty}
    (clash : leaf.clash? = some (some (n, m), expected, inferred))
    : leaf = .arity n m (some (expected, inferred)) leaf.pos := by
  unfold clash? at clash
  split at clash <;> cases clash
  rfl

end TypeError

namespace Expr

/-- The type `(number -> T)`, converted in a new state. -/
def oneParameter : OpenTy × State := State.empty.convert (.procedure [.atomic .number] (.named "T"))

def oneParameterEnv : TypeEnv := .ofList [("f", oneParameter.1)]

/-- The environment was converted as the one type that it binds. -/
theorem oneParameterEnv_convertedInto : oneParameterEnv.ConvertedInto oneParameter.2 :=
  ⟨[.procedure [.atomic .number] (.named "T")], rfl, fun _ member => member⟩

/-- In a place for a boolean stands a procedure, and then this procedure gets an operand too many.
-/
def clashingCallsSource : String := "(let ((a (not f)) (b (f #t #f))) b)"

/-- Both kinds of clashes are met in one source. -/
theorem clashes_genuine_calls
    : ∃ e error s' pos pos',
        Expr.parse 1 clashingCallsSource = .ok e
        ∧ e.typeOf oneParameterEnv oneParameter.2 = .error error s'
        ∧ .mismatch (.atomic .boolean) (.procedure [.atomic .number] (.named "T")) pos
          ∈ error.leaves
        ∧ Ty.HeadsDiffer (.atomic .boolean) (.procedure [.atomic .number] (.named "T"))
        ∧ .arity 1 2
            (some (.procedure [.atomic .number] (.named "T"),
              .procedure [.atomic .boolean, .atomic .boolean] (.named "T_4")))
            pos'
          ∈ error.leaves
        ∧ 1 ≠ 2
        ∧ ∀ context pos, .multiple context [] pos ∉ error.nodes := by
  have runs
      : (Expr.parse 1 clashingCallsSource).toOption.any (fun e =>
          FailedWith
            (fun error =>
              error.leaves.map TypeError.clash?
              = [some (none, .atomic .boolean, .procedure [.atomic .number] (.named "T")),
                  some (some (1, 2), .procedure [.atomic .number] (.named "T"),
                    .procedure [.atomic .boolean, .atomic .boolean] (.named "T_4"))])
            (e.typeOf oneParameterEnv oneParameter.2))
        = true := by
    decide +kernel
  obtain ⟨e, parsed, ran⟩ := exists_ok_of_any runs
  obtain ⟨error, s', failed, clashes⟩ := (of_decide_eq_true ran).exists_error
  obtain ⟨first, isFirst, mismatch⟩ := List.mem_map.mp (clashes ▸ List.mem_cons_self)
  obtain ⟨second, isSecond, arity⟩ :=
    List.mem_map.mp (clashes ▸ List.mem_cons_of_mem _ List.mem_cons_self)
  rw [TypeError.eq_mismatch_of_clash? mismatch] at isFirst
  rw [TypeError.eq_arity_of_clash? arity] at isSecond
  obtain ⟨_, noneEmpty, differ, lengths⟩ :=
    clashes_genuine oneParameterEnv_convertedInto e (.inl failed)
  exact ⟨e, error, s', first.pos, second.pos, parsed, failed, isFirst, differ _ _ _ isFirst,
    isSecond, (lengths _ _ _ _ isSecond).1, noneEmpty⟩

end Expr

end TypedScheme
