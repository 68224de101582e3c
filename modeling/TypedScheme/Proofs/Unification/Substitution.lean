import TypedScheme.Unification.OpenTy

/-! Variables of open types and the laws of substitution.
A procedure type holds a list of parameters, so facts about types are proved by an induction that
gives the property of every part.
-/

namespace TypedScheme

namespace OpenTy

/-- Induction over types: a procedure type may use the property of each of its parts. -/
@[elab_as_elim]
theorem partsInduction {motive : OpenTy → Prop}
    (var : ∀ v, motive (.var v))
    (atomic : ∀ a, motive (.atomic a))
    (named : ∀ name, motive (.named name))
    (wildcard : motive .wildcard)
    (procedure
      : ∀ params result,
          (∀ param ∈ params, motive param) → motive result → motive (.procedure params result))
    : ∀ ty, motive ty
  | .var v => var v
  | .atomic a => atomic a
  | .named name => named name
  | .wildcard => wildcard
  | .procedure params result =>
      procedure params result
        (fun param _ => partsInduction var atomic named wildcard procedure param)
        (partsInduction var atomic named wildcard procedure result)
termination_by ty => sizeOf ty
decreasing_by
  · have smaller := List.sizeOf_lt_of_mem ‹param ∈ params›
    simp only [OpenTy.procedure.sizeOf_spec]
    omega
  · simp only [OpenTy.procedure.sizeOf_spec]
    omega

-----------------------------------------------------------------------------------------
-- Variables, range and plainness
-----------------------------------------------------------------------------------------

mutual
/-- The variables of a type, from left to right. -/
def vars : OpenTy → List Nat
  | .var v => [v]
  | .atomic _ | .named _ | .wildcard => []
  | .procedure params result => varsOfAll params ++ result.vars

def varsOfAll : List OpenTy → List Nat
  | [] => []
  | t :: ts => t.vars ++ varsOfAll ts
end

mutual
/-- A type without names and wildcards, which the unifier rejects. -/
def isPlain : OpenTy → Bool
  | .var _ | .atomic _ => true
  | .named _ | .wildcard => false
  | .procedure params result => allPlain params && result.isPlain

def allPlain : List OpenTy → Bool
  | [] => true
  | t :: ts => t.isPlain && allPlain ts
end

mutual
/-- The names in the type, for which no variables were put. -/
def names : OpenTy → List String
  | .var _ | .atomic _ | .wildcard => []
  | .named name => [name]
  | .procedure params result => namesOfAll params ++ result.names

def namesOfAll : List OpenTy → List String
  | [] => []
  | t :: ts => t.names ++ namesOfAll ts
end

/-- All variables of the type are below `size`. -/
def Below (size : Nat) (ty : OpenTy) : Prop := ∀ v ∈ ty.vars, v < size

instance (size : Nat) (ty : OpenTy) : Decidable (ty.Below size) :=
  inferInstanceAs (Decidable (∀ v ∈ ty.vars, v < size))

/-- A variable is its only variable. -/
@[simp]
theorem vars_var (v : Nat) : (OpenTy.var v).vars = [v] := by simp only [vars]

/-- An atomic type has no variables. -/
@[simp]
theorem vars_atomic (a : Atomic) : (OpenTy.atomic a).vars = [] := by simp only [vars]

/-- The variables of several types are those of each of them, by induction on the types. -/
theorem mem_varsOfAll {v : Nat} {ts : List OpenTy} : v ∈ varsOfAll ts ↔ ∃ t ∈ ts, v ∈ t.vars := by
  induction ts with
  | nil => simp [varsOfAll]
  | cons t ts ih => simp [varsOfAll, ih]

/-- A variable of a procedure type is one of a parameter or of the result. -/
@[simp]
theorem mem_vars_procedure {v : Nat} {params : List OpenTy} {result : OpenTy}
    : v ∈ (OpenTy.procedure params result).vars
      ↔ (∃ param ∈ params, v ∈ param.vars) ∨ v ∈ result.vars := by
  simp only [vars, List.mem_append, mem_varsOfAll]

/-- Types are plain together exactly if each of them is, by induction on the types. -/
theorem allPlain_iff {ts : List OpenTy} : allPlain ts = true ↔ ∀ t ∈ ts, t.isPlain = true := by
  induction ts with
  | nil => simp [allPlain]
  | cons t ts ih => simp [allPlain, ih]

/-- A variable is plain. -/
@[simp]
theorem isPlain_var (v : Nat) : (OpenTy.var v).isPlain = true := by simp only [isPlain]

/-- An atomic type is plain. -/
@[simp]
theorem isPlain_atomic (a : Atomic) : (OpenTy.atomic a).isPlain = true := by simp only [isPlain]

/-- A procedure type is plain exactly if its parts are. -/
@[simp]
theorem isPlain_procedure {params : List OpenTy} {result : OpenTy}
    : (OpenTy.procedure params result).isPlain = true
      ↔ (∀ param ∈ params, param.isPlain = true) ∧ result.isPlain = true := by
  simp only [isPlain, Bool.and_eq_true, allPlain_iff]

/-- The names of several types are those of each of them, by induction on the types. -/
theorem mem_namesOfAll {name : String} {ts : List OpenTy}
    : name ∈ namesOfAll ts ↔ ∃ t ∈ ts, name ∈ t.names := by
  induction ts with
  | nil => simp [namesOfAll]
  | cons t ts ih => simp [namesOfAll, ih]

/-- The names of a procedure type are those of its parts. -/
theorem mem_names_procedure {name : String} {params : List OpenTy} {result : OpenTy}
    : name ∈ (OpenTy.procedure params result).names
      ↔ (∃ param ∈ params, name ∈ param.names) ∨ name ∈ result.names := by
  rw [names, List.mem_append, mem_namesOfAll]

/-- A variable is below a size exactly if its number is. -/
@[simp]
theorem below_var {size v : Nat} : (OpenTy.var v).Below size ↔ v < size := by
  simp [Below]

/-- An atomic type is below every size. -/
@[simp]
theorem below_atomic (size : Nat) (a : Atomic) : (OpenTy.atomic a).Below size := by
  simp [Below]

/-- A procedure type is below a size exactly if its parts are. -/
@[simp]
theorem below_procedure {size : Nat} {params : List OpenTy} {result : OpenTy}
    : (OpenTy.procedure params result).Below size
      ↔ (∀ param ∈ params, param.Below size) ∧ result.Below size := by
  simp only [Below, mem_vars_procedure]
  constructor
  · intro below
    exact ⟨fun param member v occurs => below v (.inl ⟨param, member, occurs⟩),
      fun v occurs => below v (.inr occurs)⟩
  · rintro ⟨inParams, inResult⟩ v (⟨param, member, occurs⟩ | occurs)
    · exact inParams param member v occurs
    · exact inResult v occurs

/-- What is below a size is below every larger one. -/
theorem Below.mono {size size' : Nat} {ty : OpenTy} (below : ty.Below size) (le : size ≤ size')
    : ty.Below size' :=
  fun v occurs => Nat.lt_of_lt_of_le (below v occurs) le

-----------------------------------------------------------------------------------------
-- Substitution
-----------------------------------------------------------------------------------------

/-- Types are substituted one by one, by induction on the types. -/
theorem substAll_eq_map (σ : Nat → OpenTy) (ts : List OpenTy)
    : substAll σ ts = ts.map (subst σ) := by
  induction ts with
  | nil => simp [substAll]
  | cons t ts ih => simp [substAll, ih]

/-- A variable is replaced by what it stands for. -/
@[simp]
theorem subst_var (σ : Nat → OpenTy) (v : Nat) : (OpenTy.var v).subst σ = σ v := by
  simp only [subst]

/-- Atomic types are not changed by a substitution. -/
@[simp]
theorem subst_atomic (σ : Nat → OpenTy) (a : Atomic)
    : (OpenTy.atomic a).subst σ = .atomic a := by
  simp only [subst]

/-- A procedure type is substituted part by part. -/
@[simp]
theorem subst_procedure (σ : Nat → OpenTy) (params : List OpenTy) (result : OpenTy)
    : (OpenTy.procedure params result).subst σ
      = .procedure (params.map (subst σ)) (result.subst σ) := by
  simp only [subst, substAll_eq_map]

/-- Substitution depends only on the variables that occur, by induction over the parts. -/
theorem subst_congr {σ τ : Nat → OpenTy} {ty : OpenTy} (agree : ∀ v ∈ ty.vars, σ v = τ v)
    : ty.subst σ = ty.subst τ := by
  induction ty using partsInduction with
  | var v => simpa using agree v (by simp)
  | atomic a => simp
  | named name => simp [subst]
  | wildcard => simp [subst]
  | procedure params result ihParams ihResult =>
      have same : params.map (subst σ) = params.map (subst τ) :=
        List.map_congr_left fun param member =>
          ihParams param member fun v occurs =>
            agree v (mem_vars_procedure.mpr (.inl ⟨param, member, occurs⟩))
      have sameResult : result.subst σ = result.subst τ :=
        ihResult fun v occurs => agree v (mem_vars_procedure.mpr (.inr occurs))
      simp only [subst_procedure, same, sameResult]

/-- Two substitutions in a row are one, by induction over the parts. -/
theorem subst_subst (σ τ : Nat → OpenTy) (ty : OpenTy)
    : (ty.subst σ).subst τ = ty.subst fun v => (σ v).subst τ := by
  induction ty using partsInduction with
  | var v => simp
  | atomic a => simp
  | named name => simp [subst]
  | wildcard => simp [subst]
  | procedure params result ihParams ihResult =>
      have same : (params.map (subst σ)).map (subst τ)
          = params.map (subst fun v => (σ v).subst τ) := by
        simpa using ihParams
      simp only [subst_procedure, same, ihResult]

/-- Plain types for the variables of a plain type make a plain type, by induction on its parts. -/
theorem isPlain_subst {σ : Nat → OpenTy} (plainImages : ∀ v, (σ v).isPlain = true) {ty : OpenTy}
    (plain : ty.isPlain = true)
    : (ty.subst σ).isPlain = true := by
  induction ty using partsInduction with
  | var v => simpa using plainImages v
  | atomic a => simp
  | named name => simp [isPlain] at plain
  | wildcard => simp [isPlain] at plain
  | procedure params result ihParams ihResult =>
      obtain ⟨plainParams, plainResult⟩ := isPlain_procedure.mp plain
      rw [subst_procedure]
      refine isPlain_procedure.mpr ⟨?_, ihResult plainResult⟩
      intro image member
      obtain ⟨param, inParams, rfl⟩ := List.mem_map.mp member
      exact ihParams param inParams (plainParams param inParams)

/-- A plain type has no names, by induction on its parts. -/
theorem names_eq_nil_of_isPlain {ty : OpenTy} (plain : ty.isPlain = true) : ty.names = [] := by
  induction ty using partsInduction with
  | var | atomic => rw [names]
  | named | wildcard => simp [isPlain] at plain
  | procedure params result ihParams ihResult =>
      obtain ⟨plainParams, plainResult⟩ := isPlain_procedure.mp plain
      refine List.eq_nil_iff_forall_not_mem.mpr fun name isName => ?_
      rcases mem_names_procedure.mp isName with ⟨param, member, inParam⟩ | inResult
      · rw [ihParams param member (plainParams param member)] at inParam
        cases inParam
      · rw [ihResult plainResult] at inResult
        cases inResult

/-- What is put for variables brings no names with it, by induction over the parts. -/
theorem mem_names_subst {σ : Nat → OpenTy} (plainImages : ∀ v, (σ v).isPlain = true) {ty : OpenTy}
    {name : String} (isName : name ∈ (ty.subst σ).names)
    : name ∈ ty.names := by
  induction ty using partsInduction with
  | var v =>
      rw [subst_var, names_eq_nil_of_isPlain (plainImages v)] at isName
      cases isName
  | atomic | named | wildcard => simpa [subst] using isName
  | procedure params result ihParams ihResult =>
      rw [subst_procedure] at isName
      rcases mem_names_procedure.mp isName with ⟨_, member, inImage⟩ | inResult
      · obtain ⟨param, inParams, rfl⟩ := List.mem_map.mp member
        exact mem_names_procedure.mpr (.inl ⟨param, inParams, ihParams param inParams inImage⟩)
      · exact mem_names_procedure.mpr (.inr (ihResult inResult))

/-- A variable after a substitution comes from what was put for a variable, by induction over the
parts.
-/
theorem mem_vars_subst {σ : Nat → OpenTy} {v : Nat} {ty : OpenTy} (occurs : v ∈ (ty.subst σ).vars)
    : ∃ w ∈ ty.vars, v ∈ (σ w).vars := by
  induction ty using partsInduction with
  | var w => exact ⟨w, by simp, by simpa using occurs⟩
  | atomic a => simp at occurs
  | named name => simp [subst, vars] at occurs
  | wildcard => simp [subst, vars] at occurs
  | procedure params result ihParams ihResult =>
      rw [subst_procedure] at occurs
      rcases mem_vars_procedure.mp occurs with ⟨image, member, inImage⟩ | inResult
      · obtain ⟨param, inParams, rfl⟩ := List.mem_map.mp member
        obtain ⟨w, inParam, inside⟩ := ihParams param inParams inImage
        exact ⟨w, mem_vars_procedure.mpr (.inl ⟨param, inParams, inParam⟩), inside⟩
      · obtain ⟨w, inResult, inside⟩ := ihResult inResult
        exact ⟨w, mem_vars_procedure.mpr (.inr inResult), inside⟩

/-- What is put for a variable is no larger than the whole, by induction over the parts. -/
theorem sizeOf_image_le (σ : Nat → OpenTy) {v : Nat} {ty : OpenTy} (occurs : v ∈ ty.vars)
    : sizeOf (σ v) ≤ sizeOf (ty.subst σ) := by
  induction ty using partsInduction with
  | var w =>
      have same : v = w := by simpa using occurs
      simp [same]
  | atomic a => simp at occurs
  | named name => simp [vars] at occurs
  | wildcard => simp [vars] at occurs
  | procedure params result ihParams ihResult =>
      simp only [subst_procedure, procedure.sizeOf_spec]
      rcases mem_vars_procedure.mp occurs with ⟨param, member, inParam⟩ | inResult
      · have le := ihParams param member inParam
        have lt := List.sizeOf_lt_of_mem (List.mem_map_of_mem (f := subst σ) member)
        omega
      · have le := ihResult inResult
        omega

/-- What is put for a variable inside a procedure type is smaller than the whole. -/
theorem sizeOf_image_lt (σ : Nat → OpenTy) {v : Nat} {params : List OpenTy} {result : OpenTy}
    (occurs : v ∈ (OpenTy.procedure params result).vars)
    : sizeOf (σ v) < sizeOf ((OpenTy.procedure params result).subst σ) := by
  simp only [subst_procedure, procedure.sizeOf_spec]
  rcases mem_vars_procedure.mp occurs with ⟨param, member, inParam⟩ | inResult
  · have le := sizeOf_image_le σ inParam
    have lt := List.sizeOf_lt_of_mem (List.mem_map_of_mem (f := subst σ) member)
    omega
  · have le := sizeOf_image_le σ inResult
    omega

-----------------------------------------------------------------------------------------
-- Names for variables
-----------------------------------------------------------------------------------------

/-- Types are printed one by one, by induction on the types. -/
theorem toTys_eq_map (nameOf : Nat → String) (tys : List OpenTy)
    : toTys nameOf tys = tys.map (toTy nameOf) := by
  induction tys with
  | nil => rw [toTys, List.map_nil]
  | cons ty tys ih => rw [toTys, List.map_cons, ih]

end OpenTy

end TypedScheme
