import TypedScheme.Proofs.Expr.Parts
import TypedScheme.Proofs.Inference.Reports

/-! The inference of a parsed source never comes to its defensive branches.
The types unified are held by the state, so that no name, no wildcard and no variable from elsewhere
is met; and a source with an empty body is not parsed.
-/

namespace TypedScheme

namespace TypeError

/-- Failures against which inference guards although no source can cause them: types that should have
been converted, lists of types of different lengths, empty bodies, variables that the table does not
hold, and a table on which an operation was not allowed.
-/
def isDefensive : TypeError → Bool
  | .badType _ _ | .arity _ _ none _ | .unallocated _ _ | .corrupt _ => true
  | .unsupported construct _ _ _ => construct = "empty sequence"
  | _ => false

/-- No leaf of the error is defensive. -/
def Expected (error : TypeError) : Prop := ∀ leaf ∈ error.leaves, leaf.isDefensive = false

/-- An error that is its only leaf is expected if it is not defensive. -/
theorem expected_single {error : TypeError} (single : error.leaves = [error])
    (undefensive : error.isDefensive = false)
    : error.Expected := by
  intro leaf member
  rw [single] at member
  cases List.mem_singleton.mp member
  exact undefensive

/-- Several errors are expected together if each of them is. -/
theorem expected_multiple {context : String} {errors : List TypeError} {pos : Position}
    (each : ∀ error ∈ errors, error.Expected)
    : (TypeError.multiple context errors pos).Expected := by
  intro leaf member
  rw [leaves] at member
  obtain ⟨error, inside, isLeaf⟩ := mem_leavesOfAll.mp member
  exact each error inside leaf isLeaf

end TypeError

namespace UnifyError

/-- An error about held types is expected: held types are plain. -/
theorem About.expected {s : State} {error : UnifyError} (about : error.About s.Holds) (t : Table)
    (context : Expr)
    : (error.toTypeError t context).Expected := by
  induction about with
  | mismatch | arity | occurs =>
      rw [toTypeError]
      exact TypeError.expected_single (by rw [TypeError.leaves]) rfl
  | badType holds bad =>
      have plain := holds.plain
      rw [bad] at plain
      cases plain
  | multiple _ ih =>
      rw [toTypeError, toTypeErrors_eq_map]
      apply TypeError.expected_multiple
      intro error member
      obtain ⟨unified, inside, rfl⟩ := List.mem_map.mp member
      exact ih unified inside

end UnifyError

namespace Expr

/-- The constructs without a type do not include the empty sequence. -/
theorem unsupported?_ne_empty {e : Expr} {construct reason : String}
    (untyped : e.unsupported? = some (construct, reason))
    : construct ≠ "empty sequence" := by
  cases e with
  | letrec pos bindings body =>
      rw [unsupported?] at untyped
      split at untyped
      · cases untyped
      · cases untyped
        decide
  | program | quote | assign =>
      cases untyped
      decide
  | number | boolean | string | primitive | var | conditional | lambda | application | letIn
  | define => cases untyped

/-- What is reported for a parsed source is expected, by induction on the report. -/
theorem Reports.expected {e : Expr} {s : State} {error : TypeError} (reports : e.Reports s error)
    {d : Datum} (written : RootWritten d e)
    : error.Expected := by
  induction reports generalizing d with
  | unboundIdentifier => exact TypeError.expected_single (by rw [TypeError.leaves]) rfl
  | clash clashed =>
      rw [clashed.explain_eq]
      exact (clashed.about.imp fun _ holds => holds.1).expected _ _
  | unsupported untyped =>
      apply TypeError.expected_single (by rw [TypeError.leaves])
      simpa [TypeError.isDefensive] using unsupported?_ne_empty untyped
  | emptyBody empty => exact absurd empty written.body_ne_nil
  | several _ ih => exact TypeError.expected_multiple fun error member => ih error member written
  | inPart member _ ih =>
      obtain ⟨d', _, written'⟩ := written.exists_datum member
      exact ih written'

/-- A parsed source is inferred to a held type or to an expected error that is not fatal. -/
theorem typeOf_givesExpected {file : FileId} {text : String} {e : Expr}
    (parsed : Expr.parse file text = .ok e) {s : State} {env : TypeEnv} (wf : s.WellFormed)
    (holds : s.HoldsEnv env)
    : Infer.Gives s (e.typeOf env) State.Holds
        fun _ error => error.isFatal = false ∧ error.Expected := by
  obtain ⟨d, _, written⟩ := parse_eq_ok_iff.mp parsed
  exact (e.typeOf_gives s env wf holds).imp (fun _ _ => id) fun _ _ reports =>
    ⟨reports.not_fatal, reports.expected written⟩

/-- Whatever source is parsed, and whatever types were converted into a new state for its
environment: inference does not end with a fatal error, which is what a variable outside the table
and a binding, commit or rollback that the table does not allow would lead to. If it fails, no leaf
of the error is a type that cannot be unified, a mismatch of arities without types, or an empty
sequence. The same holds where the inferred type is then resolved.
-/
theorem inference_avoids_defences {file : FileId} {text : String} {e : Expr}
    (parsed : Expr.parse file text = .ok e) {env : TypeEnv} {s : State}
    (converted : env.ConvertedInto s) (error : TypeError) (s' : State)
    (failed : e.typeOf env s = .error error s' ∨ e.inferIn env s = .error error s')
    : error.isFatal = false ∧ ∀ leaf ∈ error.leaves, leaf.isDefensive = false := by
  obtain ⟨wf, holds⟩ := converted.wellFormed_holdsEnv
  have gives := typeOf_givesExpected parsed wf holds
  rcases failed with failed | failed
  · exact gives.error failed
  · exact (inferIn_gives gives).error failed

/-- A call with a number of operands that does not fit, an unbound identifier, and a parameter that is
called with itself.
-/
def troubledSource : String := "(let ((a (f 1 \"\")) (b (f x)) (c (lambda ((y : T)) (y y)))) a)"

/-- Three errors are reported, and none of them is defensive. -/
theorem inference_avoids_defences_troubledSource
    : identityEnv.ConvertedInto identityState
      ∧ ∃ e error s',
          Expr.parse 1 troubledSource = .ok e
          ∧ e.typeOf identityEnv identityState = .error error s'
          ∧ error.leaves.length = 3
          ∧ error.isFatal = false
          ∧ ∀ leaf ∈ error.leaves, leaf.isDefensive = false := by
  have runs
      : (Expr.parse 1 troubledSource).toOption.any (fun e =>
          FailedWith (fun error => error.leaves.length = 3) (e.typeOf identityEnv identityState))
        = true := by
    decide +kernel
  cases parsed : Expr.parse 1 troubledSource with
  | error error =>
      rw [parsed] at runs
      cases runs
  | ok e =>
      rw [parsed] at runs
      simp only [Except.toOption, Option.any_some, decide_eq_true_eq] at runs
      obtain ⟨error, s', failed, three⟩ := runs.exists_error
      exact ⟨identityEnv_convertedInto, e, error, s', rfl, failed, three,
        inference_avoids_defences parsed identityEnv_convertedInto error s' (.inl failed)⟩

end Expr

end TypedScheme
