import TypedScheme.Expr.Parser
import TypedScheme.Proofs.Inference.Reports
import TypedScheme.Proofs.Unification.Occurrences

/-! What the errors of the occurs check show.
The first type is always a proper part of the second, so that the two differ. The first is a type
variable if the variable for which the check failed is still unbound when the error is explained; a
later pair of the same unification may have bound it.
-/

namespace TypedScheme

-----------------------------------------------------------------------------------------
-- Proper parts of types
-----------------------------------------------------------------------------------------

namespace Ty

/-- A parameter or the result of a procedure type. -/
inductive DirectPart : Ty → Ty → Prop
  | param {params : List Ty} {result part : Ty} (member : part ∈ params)
    : DirectPart part (.procedure params result)
  | result (params : List Ty) (result : Ty) : DirectPart result (.procedure params result)

/-- A part of a type other than the type itself. -/
abbrev ProperPart : Ty → Ty → Prop := Relation.TransGen DirectPart

/-- A part of a type is smaller than it. -/
theorem DirectPart.sizeOf_lt {part ty : Ty} (isPart : DirectPart part ty)
    : sizeOf part < sizeOf ty := by
  cases isPart with
  | @param params result _ member =>
      have smaller := List.sizeOf_lt_of_mem member
      have whole := Ty.procedure.sizeOf_spec params result
      omega
  | result params =>
      have whole := Ty.procedure.sizeOf_spec params part
      omega

/-- So is a part of a part, by induction on the steps between them. -/
theorem ProperPart.sizeOf_lt {part ty : Ty} (isPart : ProperPart part ty)
    : sizeOf part < sizeOf ty := by
  induction isPart with
  | single direct => exact direct.sizeOf_lt
  | tail _ direct ih => exact ih.trans direct.sizeOf_lt

end Ty

namespace OpenTy

variable {σ : Nat → OpenTy} {nameOf : Nat → String} {v : Nat}

/-- A procedure type is substituted and printed part by part. -/
theorem toTy_subst_procedure (params : List OpenTy) (result : OpenTy)
    : ((OpenTy.procedure params result).subst σ).toTy nameOf
      = .procedure (params.map fun param => (param.subst σ).toTy nameOf)
          ((result.subst σ).toTy nameOf) := by
  rw [subst_procedure, toTy, toTys_eq_map, List.map_map]
  rfl

/-- What is put for a variable of a procedure type becomes a proper part if what is put for a variable
of a part becomes a part.
-/
theorem properPart_of_parts {params : List OpenTy} {result : OpenTy}
    (inParams
      : ∀ param ∈ params,
          v ∈ param.vars
          → Relation.ReflTransGen Ty.DirectPart ((σ v).toTy nameOf) ((param.subst σ).toTy nameOf))
    (inResult
      : v ∈ result.vars
        → Relation.ReflTransGen Ty.DirectPart ((σ v).toTy nameOf) ((result.subst σ).toTy nameOf))
    (occurs : v ∈ (OpenTy.procedure params result).vars)
    : Ty.ProperPart ((σ v).toTy nameOf) (((OpenTy.procedure params result).subst σ).toTy nameOf) := by
  rw [toTy_subst_procedure]
  rcases mem_vars_procedure.mp occurs with ⟨param, member, inParam⟩ | inside
  · exact .tail' (inParams param member inParam) (.param (List.mem_map_of_mem member))
  · exact .tail' (inResult inside) (.result _ _)

/-- What a variable stands for is a part of what every type stands for that it occurs in, by
induction on the parts of the type.
-/
theorem part_of_mem_vars {ty : OpenTy} (occurs : v ∈ ty.vars)
    : Relation.ReflTransGen Ty.DirectPart ((σ v).toTy nameOf) ((ty.subst σ).toTy nameOf) := by
  induction ty using partsInduction with
  | var w =>
      have same : v = w := by simpa using occurs
      rw [same, subst_var]
  | atomic | named | wildcard => simp [vars] at occurs
  | procedure params result ihParams ihResult =>
      exact (properPart_of_parts ihParams ihResult occurs).to_reflTransGen

/-- In a procedure type it is a proper part. -/
theorem properPart_of_mem_vars {params : List OpenTy} {result : OpenTy}
    (occurs : v ∈ (OpenTy.procedure params result).vars)
    : Ty.ProperPart ((σ v).toTy nameOf) (((OpenTy.procedure params result).subst σ).toTy nameOf) :=
  properPart_of_parts (fun _ _ => part_of_mem_vars) part_of_mem_vars occurs

end OpenTy

-----------------------------------------------------------------------------------------
-- Errors of the occurs check
-----------------------------------------------------------------------------------------

/-- Bindings made after the check change both types alike, so that one stays a part of the other. -/
theorem Table.Refused.properPart {t left : Table} {v : Nat} {u : OpenTy}
    (refused : t.Refused left v u) (grounded : left.Grounded)
    : Ty.ProperPart (left.toTy (.var v)) (left.toTy u) := by
  obtain ⟨_, after, _, _, occurs⟩ := refused
  rw [Table.toTy, Table.toTy, grounded.resolve_of_extends after.extends (.procedure _ _)]
  rw [resolve_procedure] at occurs ⊢
  exact OpenTy.properPart_of_mem_vars occurs

/-- What a clash refused to bind was refused in a table that grew from an earlier state. -/
theorem State.Clashed.exists_refused {s : State} {unified : UnifyError} {left : Table}
    (clashed : s.Clashed unified left) {v : Nat} {u : OpenTy} (refuses : unified.Refuses v u)
    : ∃ earlier : State, earlier.Extends s ∧ earlier.table.snapshot.2.Refused left v u := by
  obtain @⟨earlier, a, b, _, _, later, wf, holdsA, holdsB, failed⟩ := clashed
  have grounded := wf.table.snapshot.toGrounded
  have ends := Unify.types_ends grounded holdsA.below holdsB.below
  rw [failed] at ends
  exact ⟨earlier, later, (ends.endsRefused grounded holdsA.below holdsB.below).2 v u refuses⟩

/-- An occurs error comes from a refusal and shows the variable and the type refused, by induction
on what the error is about.
-/
theorem UnifyError.About.exists_refuses {P : OpenTy → Prop} {unified : UnifyError}
    (about : unified.About P) {t : Table} {context : Expr} {var ty : Ty} {pos : Position}
    (isLeaf : .occurs var ty pos ∈ (unified.toTypeError t context).leaves)
    : ∃ v u, unified.Refuses v u ∧ var = t.toTy (.var v) ∧ ty = t.toTy u := by
  induction about with
  | mismatch | arity | badType =>
      rw [toTypeError, TypeError.leaves, List.mem_singleton] at isLeaf
      cases isLeaf
  | occurs =>
      rw [toTypeError, TypeError.leaves, List.mem_singleton] at isLeaf
      cases isLeaf
      exact ⟨_, _, .occurs, rfl, rfl⟩
  | multiple _ ih =>
      rw [toTypeError, toTypeErrors_eq_map, TypeError.leaves] at isLeaf
      obtain ⟨_, member, inside⟩ := TypeError.mem_leavesOfAll.mp isLeaf
      obtain ⟨unified, isError, rfl⟩ := List.mem_map.mp member
      obtain ⟨v, u, refuses, shown⟩ := ih unified isError inside
      exact ⟨v, u, .multiple isError refuses, shown⟩

namespace TypeError

/-- The variable and the type of a failed occurs check. -/
def occurs? : TypeError → Option (Ty × Ty)
  | .occurs var ty _ => some (var, ty)
  | _ => none

/-- An error with the types of an occurs error is one. -/
theorem eq_of_occurs? {leaf : TypeError} {var ty : Ty} (isOccurs : leaf.occurs? = some (var, ty))
    : leaf = .occurs var ty leaf.pos := by
  cases leaf with
  | occurs =>
      cases isOccurs
      rfl
  | unboundIdentifier | mismatch | arity | unsupported | multiple | badType | unallocated | corrupt =>
      cases isOccurs

/-- Some leaf shows that the first type occurs in the second. -/
def ShowsOccurs (error : TypeError) (var ty : Ty) : Prop :=
  error.leaves.any (fun leaf => leaf.occurs? = some (var, ty)) = true

instance (error : TypeError) (var ty : Ty) : Decidable (error.ShowsOccurs var ty) :=
  inferInstanceAs (Decidable (_ = true))

/-- The leaf that a decision has found. -/
theorem ShowsOccurs.exists_leaf {error : TypeError} {var ty : Ty} (shows : error.ShowsOccurs var ty)
    : ∃ pos, .occurs var ty pos ∈ error.leaves := by
  obtain ⟨leaf, isLeaf, isOccurs⟩ := List.any_eq_true.mp shows
  exact ⟨leaf.pos, eq_of_occurs? (of_decide_eq_true isOccurs) ▸ isLeaf⟩

end TypeError

namespace Expr

/-- In every error of an inference, the first type of a failed occurs check is a proper part of the
second. The check failed for a variable that was unbound then and occurred in the type; it is shown as
a type variable unless the same unification bound it afterwards.
-/
theorem occurs_error_shows {env : TypeEnv} {s : State} (converted : env.ConvertedInto s) (e : Expr)
    {error : TypeError} {s' : State} (failed : e.inferIn env s = .error error s') {var ty : Ty}
    {pos : Position} (isLeaf : .occurs var ty pos ∈ error.leaves)
    : Ty.ProperPart var ty
      ∧ var ≠ ty
      ∧ ∃ (earlier : State) (left : Table) (v : Nat) (u : OpenTy),
          earlier.Extends s'
          ∧ earlier.table.snapshot.2.Refused left v u
          ∧ var = left.toTy (.var v)
          ∧ ty = left.toTy u
          ∧ (left.binding? v = none → var = .named (left.nameOf v)) := by
  obtain ⟨wf, holds⟩ := converted.wellFormed_holdsEnv
  have reports := (inferIn_gives (e.typeOf_gives s env wf holds)).error failed
  obtain ⟨unified, left, context, clashed, inside⟩ := reports.exists_clashed isLeaf nofun
  obtain ⟨v, u, refuses, rfl, rfl⟩ := clashed.about.exists_refuses inside
  obtain ⟨earlier, later, refused⟩ := clashed.exists_refused refuses
  have isPart := refused.properPart clashed.wellFormed_named.1.toGrounded
  refine ⟨isPart, ?_, earlier, left, v, u, later, refused, rfl, rfl, ?_⟩
  · intro same
    exact absurd isPart.sizeOf_lt (same ▸ Nat.lt_irrefl _)
  · intro unbound
    rw [Table.toTy, Table.resolve_unbound unbound, OpenTy.toTy]

/-- A parameter that is called with itself. -/
def selfCallSource : String := "(lambda ((x : T)) (x x))"

/-- The variable is still unbound when the error is printed, and the type contains it. -/
theorem occurs_error_shows_selfCall
    : ∃ e error s' pos,
        Expr.parse 1 selfCallSource = .ok e
        ∧ e.inferIn .empty .empty = .error error s'
        ∧ .occurs (.named "T") (.procedure [.named "T"] (.named "T_2")) pos ∈ error.leaves
        ∧ Ty.ProperPart (.named "T") (.procedure [.named "T"] (.named "T_2")) := by
  have runs
      : (Expr.parse 1 selfCallSource).toOption.any (fun e =>
          FailedWith
            (fun error => error.ShowsOccurs (.named "T") (.procedure [.named "T"] (.named "T_2")))
            (e.inferIn .empty .empty))
        = true := by
    decide +kernel
  obtain ⟨e, parsed, ran⟩ := exists_ok_of_any runs
  obtain ⟨error, s', failed, shows⟩ := (of_decide_eq_true ran).exists_error
  obtain ⟨pos, isLeaf⟩ := shows.exists_leaf
  obtain ⟨isPart, _⟩ := occurs_error_shows Environment.convertedInto_empty e failed isLeaf
  exact ⟨e, error, s', pos, parsed, failed, isLeaf, isPart⟩

/-- The first operand fails the occurs check of `T`, and then the second binds `T` to `number`. -/
def boundLaterSource : String := "((lambda ((x : T) (y : T)) x) (lambda ((z : T)) z) 1)"

/-- The variable is bound when the error is printed, and both types show what it is bound to. -/
theorem occurs_error_hides_boundLater
    : ∃ e error s' pos,
        Expr.parse 1 boundLaterSource = .ok e
        ∧ e.inferIn .empty .empty = .error error s'
        ∧ .occurs (.atomic .number) (.procedure [.atomic .number] (.atomic .number)) pos
          ∈ error.leaves := by
  have runs
      : (Expr.parse 1 boundLaterSource).toOption.any (fun e =>
          FailedWith
            (fun error =>
              error.ShowsOccurs (.atomic .number) (.procedure [.atomic .number] (.atomic .number)))
            (e.inferIn .empty .empty))
        = true := by
    decide +kernel
  obtain ⟨e, parsed, ran⟩ := exists_ok_of_any runs
  obtain ⟨error, s', failed, shows⟩ := (of_decide_eq_true ran).exists_error
  obtain ⟨pos, isLeaf⟩ := shows.exists_leaf
  exact ⟨e, error, s', pos, parsed, failed, isLeaf⟩

end Expr

end TypedScheme
