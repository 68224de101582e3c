import TypedScheme.Proofs.Inference.VariableNames
import TypedScheme.Proofs.Inference.Typing
import TypedScheme.Proofs.Unification.Relocation

/-! Inference does not depend on the numbers of its variables.
Two inferences of one expression run side by side. The second one started in a state with other
variables, so that its table holds a copy of the table of the first. Main statement: both end in the
same way, with a moved type or with errors that show the same types, up to the names of the
variables.
-/

namespace TypedScheme

-----------------------------------------------------------------------------------------
-- Names in annotations
-----------------------------------------------------------------------------------------

namespace Ty

mutual
/-- The type variables in a written type. -/
def names : Ty → List String
  | .atomic _ | .wildcard => []
  | .named name => [name]
  | .procedure params result => namesOfAll params ++ result.names

def namesOfAll : List Ty → List String
  | [] => []
  | ty :: tys => ty.names ++ namesOfAll tys
end

/-- The names of several types are those of each of them, by induction on the types. -/
theorem mem_namesOfAll {name : String} {tys : List Ty}
    : name ∈ namesOfAll tys ↔ ∃ ty ∈ tys, name ∈ ty.names := by
  induction tys with
  | nil => simp [namesOfAll]
  | cons ty tys ih => simp [namesOfAll, ih]

end Ty

namespace Expr

mutual
/-- The type variables in the annotations of an expression. -/
def typeNames : Expr → List String
  | .number _ _ | .boolean _ _ | .string _ _ | .primitive _ _ | .var _ _ | .quote _ _ => []
  | .conditional _ test yes no => test.typeNames ++ yes.typeNames ++ no.typeNames
  | .lambda _ params result body =>
      Ty.namesOfAll (Infer.declaredTypes params) ++ result.ty.names ++ typeNamesOfAll body
  | .application _ operator operands => operator.typeNames ++ typeNamesOfAll operands
  | .letIn _ bindings body | .letrec _ bindings body =>
      typeNamesOfBindings bindings ++ typeNamesOfAll body
  | .define _ declaration value => declaration.type.ty.names ++ value.typeNames
  | .program _ exprs => typeNamesOfAll exprs
  | .assign _ _ value => value.typeNames

def typeNamesOfAll : List Expr → List String
  | [] => []
  | e :: es => e.typeNames ++ typeNamesOfAll es

def typeNamesOfBindings : List (Declaration × Expr) → List String
  | [] => []
  | (declaration, value) :: bindings =>
      declaration.type.ty.names ++ value.typeNames ++ typeNamesOfBindings bindings
end

/-- The type variables in the annotation of a binding and in those of its value. -/
def bindingNames (binding : Declaration × Expr) : List String :=
  binding.1.type.ty.names ++ binding.2.typeNames

/-- The names in bindings are those in each of them, by induction on the bindings. -/
theorem mem_typeNamesOfBindings {name : String} {bindings : List (Declaration × Expr)}
    : name ∈ typeNamesOfBindings bindings ↔ ∃ binding ∈ bindings, name ∈ bindingNames binding := by
  induction bindings with
  | nil => simp [typeNamesOfBindings]
  | cons binding bindings ih => simp [typeNamesOfBindings, bindingNames, ih, or_assoc]

end Expr

-----------------------------------------------------------------------------------------
-- Errors that show the same types
-----------------------------------------------------------------------------------------

/-- A printed type depends on the names of its own variables only, by induction on its parts. -/
theorem OpenTy.toTy_congr {f g : Nat → String} {ty : OpenTy} (agree : ∀ v ∈ ty.vars, f v = g v)
    : ty.toTy f = ty.toTy g := by
  induction ty using partsInduction with
  | var v => rw [toTy, toTy, agree v (by simp)]
  | atomic | named | wildcard => rw [toTy, toTy]
  | procedure params result ihParams ihResult =>
      rw [toTy, toTy, toTys_eq_map, toTys_eq_map]
      congr 1
      · refine List.map_congr_left fun param member => ihParams param member fun v occurs => ?_
        exact agree v (mem_vars_procedure.mpr (.inl ⟨param, member, occurs⟩))
      · exact ihResult fun v occurs => agree v (mem_vars_procedure.mpr (.inr occurs))

namespace TypeError

/-- The errors are the same, but where one shows the variables of a type with the names `f` the
other shows them with the names `g`. All types shown have the property.
-/
inductive ShownAlike (P : OpenTy → Prop) (f g : Nat → String) : TypeError → TypeError → Prop
  | unboundIdentifier (id : Identifier) (pos : Position)
    : ShownAlike P f g (.unboundIdentifier id pos) (.unboundIdentifier id pos)
  | mismatch {a b : OpenTy} (first : P a) (second : P b) (pos : Position)
    : ShownAlike P f g (.mismatch (a.toTy f) (b.toTy f) pos) (.mismatch (a.toTy g) (b.toTy g) pos)
  | arity {a b : OpenTy} (first : P a) (second : P b) (n m : Nat) (pos : Position)
    : ShownAlike P f g (.arity n m (some (a.toTy f, b.toTy f)) pos)
        (.arity n m (some (a.toTy g, b.toTy g)) pos)
  | occurs {a b : OpenTy} (first : P a) (second : P b) (pos : Position)
    : ShownAlike P f g (.occurs (a.toTy f) (b.toTy f) pos) (.occurs (a.toTy g) (b.toTy g) pos)
  | badType {a : OpenTy} (holds : P a) (pos : Position)
    : ShownAlike P f g (.badType (a.toTy f) pos) (.badType (a.toTy g) pos)
  | unsupported (construct reason context : String) (pos : Position)
    : ShownAlike P f g (.unsupported construct reason context pos)
        (.unsupported construct reason context pos)
  | multiple {errors errors' : List TypeError} (length : errors.length = errors'.length)
      (each : ∀ {e e'}, (e, e') ∈ errors.zip errors' → ShownAlike P f g e e') (context : String)
      (pos : Position)
    : ShownAlike P f g (.multiple context errors pos) (.multiple context errors' pos)

namespace ShownAlike

variable {P Q : OpenTy → Prop} {f f' g g' : Nat → String} {e e' : TypeError}

/-- Several errors are shown alike if each of them is. -/
theorem several {errors errors' : List TypeError}
    (each : List.Forall₂ (ShownAlike P f g) errors errors') (context : String) (pos : Position)
    : ShownAlike P f g (.multiple context errors pos) (.multiple context errors' pos) := by
  obtain ⟨length, alike⟩ := List.forall₂_iff_zip.mp each
  exact .multiple length alike context pos

/-- Errors that are shown alike are not fatal. -/
theorem not_fatal (alike : ShownAlike P f g e e') : e.isFatal = false ∧ e'.isFatal = false := by
  cases alike <;> exact ⟨rfl, rfl⟩

/-- Showing alike is symmetric, by induction on the pair. -/
theorem symm (alike : ShownAlike P f g e e') : ShownAlike P g f e' e := by
  induction alike with
  | unboundIdentifier id pos => exact .unboundIdentifier id pos
  | mismatch first second pos => exact .mismatch first second pos
  | arity first second n m pos => exact .arity first second n m pos
  | occurs first second pos => exact .occurs first second pos
  | badType holds pos => exact .badType holds pos
  | unsupported construct reason context pos => exact .unsupported construct reason context pos
  | multiple length _ context pos ih =>
      exact several (List.forall₂_iff_zip.mpr ⟨length, ih⟩).flip context pos

/-- Other names may be given to the variables, if the types shown stay the same. -/
theorem imp (alike : ShownAlike P f g e e') (implies : ∀ u, P u → Q u)
    (sameLeft : ∀ u, P u → u.toTy f = u.toTy f') (sameRight : ∀ u, P u → u.toTy g = u.toTy g')
    : ShownAlike Q f' g' e e' := by
  induction alike with
  | unboundIdentifier id pos => exact .unboundIdentifier id pos
  | mismatch first second pos =>
      rw [sameLeft _ first, sameLeft _ second, sameRight _ first, sameRight _ second]
      exact .mismatch (implies _ first) (implies _ second) pos
  | arity first second n m pos =>
      rw [sameLeft _ first, sameLeft _ second, sameRight _ first, sameRight _ second]
      exact .arity (implies _ first) (implies _ second) n m pos
  | occurs first second pos =>
      rw [sameLeft _ first, sameLeft _ second, sameRight _ first, sameRight _ second]
      exact .occurs (implies _ first) (implies _ second) pos
  | badType holds pos =>
      rw [sameLeft _ holds, sameRight _ holds]
      exact .badType (implies _ holds) pos
  | unsupported construct reason context pos => exact .unsupported construct reason context pos
  | multiple length _ context pos ih => exact .multiple length ih context pos

/-- The leaves of several errors are shown alike if those of each are, by induction on the pairs. -/
theorem leavesOfAll {errors errors' : List TypeError}
    (each
      : List.Forall₂ (fun e e' => List.Forall₂ (ShownAlike P f g) e.leaves e'.leaves) errors
          errors')
    : List.Forall₂ (ShownAlike P f g) (leavesOfAll errors) (leavesOfAll errors') := by
  induction each with
  | nil => exact .nil
  | cons first _ ih =>
      rw [TypeError.leavesOfAll, TypeError.leavesOfAll]
      exact List.rel_append first ih

/-- The leaves of errors that are shown alike are shown alike, by induction on the pair. -/
theorem leaves (alike : ShownAlike P f g e e')
    : List.Forall₂ (ShownAlike P f g) e.leaves e'.leaves := by
  induction alike with
  | unboundIdentifier | mismatch | arity | occurs | badType | unsupported =>
      simp only [TypeError.leaves]
      refine .cons ?_ .nil
      constructor <;> assumption
  | multiple length _ _ _ ih =>
      rw [TypeError.leaves, TypeError.leaves]
      exact leavesOfAll (List.forall₂_iff_zip.mpr ⟨length, ih⟩)

end ShownAlike

end TypeError

-----------------------------------------------------------------------------------------
-- Two states side by side
-----------------------------------------------------------------------------------------

/-- How a second inference runs beside a first one. Its variables have numbers larger by `offset`,
the names of `own` have the same meaning in both, and those that are `free` may stand in types as
they are.
-/
structure Relocation where
  offset : Nat
  own : List String
  free : String → Prop

namespace Relocation

variable {r : Relocation} {s₀ s s₀' s' s₀'' s'' : State}

def Owns (r : Relocation) (names : List String) : Prop := ∀ name ∈ names, name ∈ r.own

/-- Names together are owned exactly if each part of them is. -/
theorem owns_append {names names' : List String}
    : r.Owns (names ++ names') ↔ r.Owns names ∧ r.Owns names' := by
  simp only [Owns, List.mem_append, or_imp, forall_and]

/-- The second state holds a copy of the table of the first, and its own names lead into the copy.
-/
structure Copied (r : Relocation) (s₀ s : State) : Prop where
  wf₀ : s₀.WellFormed
  wf : s.WellFormed
  table : s₀.table.CopiedAt r.offset s.table
  names : ∀ name ∈ r.own, s.names.lookup name = (s₀.names.lookup name).map (r.offset + ·)

/-- The type is over the variables of the state, and the names in it are free ones. -/
structure Allows (r : Relocation) (s₀ : State) (u : OpenTy) : Prop where
  below : u.Below s₀.table.size
  names : ∀ name ∈ u.names, r.free name

/-- A plain type over the variables of the first state is allowed: it has no names. -/
theorem Allows.of_plain {u : OpenTy} (below : u.Below s₀.table.size) (plain : u.isPlain = true)
    : r.Allows s₀ u := by
  refine ⟨below, fun name isName => ?_⟩
  rw [OpenTy.names_eq_nil_of_isPlain plain] at isName
  cases isName

/-- The second type is the first one moved. -/
structure Moved (r : Relocation) (s₀ : State) (u₀ u : OpenTy) : Prop where
  allowed : r.Allows s₀ u₀
  moved : u₀.shift r.offset = u

/-- The errors are the same up to the names of the variables in the two states. -/
def FailAlike (r : Relocation) (s₀ s : State) : TypeError → TypeError → Prop :=
  TypeError.ShownAlike (r.Allows s₀) s₀.table.nameOf fun v => s.table.nameOf (r.offset + v)

/-- Both states moved on and still are a state and one with a copy. Names that are not the own ones
mean what they meant before.
-/
structure Step (r : Relocation) (s₀ s s₀' s' : State) : Prop where
  copied : r.Copied s₀' s'
  later₀ : s₀.Extends s₀'
  later : s.Extends s'
  others : ∀ name, name ∉ r.own → s'.names.lookup name = s.names.lookup name

/-- Doing nothing in both states is a step. -/
theorem Step.refl (copied : r.Copied s₀ s) : r.Step s₀ s s₀ s :=
  ⟨copied, .refl s₀, .refl s, fun _ _ => rfl⟩

/-- Steps are made one after the other. -/
theorem Step.trans (first : r.Step s₀ s s₀' s') (second : r.Step s₀' s' s₀'' s'')
    : r.Step s₀ s s₀'' s'' where
  copied := second.copied
  later₀ := first.later₀.trans second.later₀
  later := first.later.trans second.later
  others name other := (second.others name other).trans (first.others name other)

/-- An allowed type stays so in every later state. -/
theorem Allows.later {u : OpenTy} (allows : r.Allows s₀ u) (later : s₀.Extends s₀')
    : r.Allows s₀' u :=
  ⟨allows.below.mono later.table.size, allows.names⟩

/-- A moved type stays a copy after a step of both states. -/
theorem Moved.later {u₀ u : OpenTy} (moved : r.Moved s₀ u₀ u) (step : r.Step s₀ s s₀' s')
    : r.Moved s₀' u₀ u :=
  ⟨moved.allowed.later step.later₀, moved.moved⟩

/-- Atomic types are moved to themselves. -/
theorem moved_atomic (s₀ : State) (a : Atomic) : r.Moved s₀ (.atomic a) (.atomic a) :=
  ⟨.of_plain (by simp) (by simp), by simp⟩

/-- Types that are moved one by one are allowed and shifted together, by induction on the pairs. -/
theorem moved_all {us₀ us : List OpenTy} (moved : List.Forall₂ (r.Moved s₀) us₀ us)
    : (∀ u ∈ us₀, r.Allows s₀ u) ∧ us₀.map (OpenTy.shift r.offset) = us := by
  induction moved with
  | nil => exact ⟨nofun, rfl⟩
  | cons first _ ih =>
      exact ⟨List.forall_mem_cons.mpr ⟨first.allowed, ih.1⟩, congrArg₂ List.cons first.moved ih.2⟩

/-- A procedure type is moved part by part. -/
theorem Moved.procedure {params₀ params : List OpenTy} {result₀ result : OpenTy}
    (inParams : List.Forall₂ (r.Moved s₀) params₀ params) (inResult : r.Moved s₀ result₀ result)
    : r.Moved s₀ (.procedure params₀ result₀) (.procedure params result) := by
  obtain ⟨allows, moved⟩ := moved_all inParams
  refine ⟨⟨OpenTy.below_procedure.mpr ⟨?_, inResult.allowed.below⟩, fun name isName => ?_⟩, ?_⟩
  · exact fun param member => (allows param member).below
  · rcases OpenTy.mem_names_procedure.mp isName with ⟨param, member, inParam⟩ | ofResult
    · exact (allows param member).names name inParam
    · exact inResult.allowed.names name ofResult
  · rw [OpenTy.shift_procedure, moved, inResult.moved]

/-- The names of the variables stay, so the errors stay alike. -/
theorem FailAlike.later {e₀ e : TypeError} (alike : r.FailAlike s₀ s e₀ e) (copied : r.Copied s₀ s)
    (later₀ : s₀.Extends s₀') (later : s.Extends s')
    : r.FailAlike s₀' s' e₀ e := by
  refine alike.imp (fun _ allows => allows.later later₀) ?_ ?_
  · intro u allows
    refine OpenTy.toTy_congr fun v occurs => ?_
    exact (later₀.table.nameOf_eq (allows.below v occurs)).symm
  · intro u allows
    refine OpenTy.toTy_congr fun v occurs => ?_
    exact (later.table.nameOf_eq (copied.table.inside (allows.below v occurs))).symm

-----------------------------------------------------------------------------------------
-- Computations side by side
-----------------------------------------------------------------------------------------

variable {α β : Type}

/-- Both computations come to such states again and end in the same way: with related values or with
errors that are alike.
-/
def Runs (r : Relocation) (s₀ s : State) (x₀ x : Infer α) (R : State → State → α → α → Prop)
    : Prop :=
  ∃ s₀' s',
    r.Step s₀ s s₀' s'
    ∧ ((∃ a₀ a, x₀ s₀ = .ok a₀ s₀' ∧ x s = .ok a s' ∧ R s₀' s' a₀ a)
      ∨ ∃ e₀ e, x₀ s₀ = .error e₀ s₀' ∧ x s = .error e s' ∧ r.FailAlike s₀' s' e₀ e)

variable {x₀ x : Infer α} {R : State → State → α → α → Prop}

/-- Related values run alike. -/
theorem runs_pure (copied : r.Copied s₀ s) {a₀ a : α} (related : R s₀ s a₀ a)
    : r.Runs s₀ s (pure a₀) (pure a) R :=
  ⟨s₀, s, .refl copied, .inl ⟨a₀, a, rfl, rfl, related⟩⟩

/-- Errors that fail alike run alike. -/
theorem runs_throw (copied : r.Copied s₀ s) {e₀ e : TypeError} (alike : r.FailAlike s₀ s e₀ e)
    : r.Runs s₀ s (throw e₀) (throw e) R :=
  ⟨s₀, s, .refl copied, .inr ⟨e₀, e, rfl, rfl, alike⟩⟩

/-- Sequences run alike if their first parts do and then their second ones, from related values. -/
theorem Runs.bind (runs : r.Runs s₀ s x₀ x R) {f₀ f : α → Infer β}
    {Q : State → State → β → β → Prop}
    (next
      : ∀ {s₀' s' a₀ a}, r.Step s₀ s s₀' s' → R s₀' s' a₀ a → r.Runs s₀' s' (f₀ a₀) (f a) Q)
    : r.Runs s₀ s (x₀ >>= f₀) (x >>= f) Q := by
  obtain ⟨s₀', s', step, ⟨a₀, a, run₀, run, related⟩ | ⟨e₀, e, run₀, run, alike⟩⟩ := runs
  · obtain ⟨s₀'', s'', latest, ends⟩ := next step related
    refine ⟨s₀'', s'', step.trans latest, ?_⟩
    rw [run_bind_ok run₀, run_bind_ok run]
    exact ends
  · exact ⟨s₀', s', step, .inr ⟨e₀, e, run_bind_error run₀, run_bind_error run, alike⟩⟩

/-- Results kept for later: related values or errors that are alike. -/
inductive Kept (r : Relocation) (s₀ s : State) (R : α → α → Prop)
    : Except TypeError α → Except TypeError α → Prop
  | ok {a₀ a : α} (related : R a₀ a) : Kept r s₀ s R (.ok a₀) (.ok a)
  | error {e₀ e : TypeError} (alike : r.FailAlike s₀ s e₀ e) : Kept r s₀ s R (.error e₀) (.error e)

/-- Results that are kept stay so after a step of both states. -/
theorem Kept.later {R R' : α → α → Prop} {x₀ x : Except TypeError α} (kept : r.Kept s₀ s R x₀ x)
    (copied : r.Copied s₀ s) (step : r.Step s₀ s s₀' s') (values : ∀ a₀ a, R a₀ a → R' a₀ a)
    : r.Kept s₀' s' R' x₀ x := by
  cases kept with
  | ok related => exact .ok (values _ _ related)
  | error alike => exact .error (alike.later copied step.later₀ step.later)

/-- Attempts run alike if the computations do. -/
theorem Runs.attempt (runs : r.Runs s₀ s x₀ x R)
    : r.Runs s₀ s x₀.attempt x.attempt fun s₀' s' => r.Kept s₀' s' (R s₀' s') := by
  obtain ⟨s₀', s', step, ⟨a₀, a, run₀, run, related⟩ | ⟨e₀, e, run₀, run, alike⟩⟩ := runs
  · refine ⟨s₀', s', step, .inl ⟨.ok a₀, .ok a, ?_, ?_, .ok related⟩⟩
    · simp only [Infer.attempt, run₀]
    · simp only [Infer.attempt, run]
  · obtain ⟨notFatal₀, notFatal⟩ := alike.not_fatal
    refine ⟨s₀', s', step, .inl ⟨.error e₀, .error e, ?_, ?_, .error alike⟩⟩
    · simp [Infer.attempt, run₀, notFatal₀]
    · simp [Infer.attempt, run, notFatal]

/-- Kept results are passed on alike. -/
theorem runs_ofExcept (copied : r.Copied s₀ s) {R : α → α → Prop} {x₀ x : Except TypeError α}
    (kept : r.Kept s₀ s R x₀ x)
    : r.Runs s₀ s (ofExcept x₀) (ofExcept x) fun _ _ => R := by
  cases kept with
  | ok related => exact runs_pure copied related
  | error alike => exact runs_throw copied alike

/-- Two computations that cannot fail. -/
theorem runs_ofState (copied : r.Copied s₀ s) {f₀ f : State → α × State}
    (moving₀ : Infer.OnlyMoves (Infer.ofState f₀)) (moving : Infer.OnlyMoves (Infer.ofState f))
    (table : (f₀ s₀).2.table.CopiedAt r.offset (f s).2.table)
    (names
      : ∀ name ∈ r.own,
          (f s).2.names.lookup name = ((f₀ s₀).2.names.lookup name).map (r.offset + ·))
    (others : ∀ name, name ∉ r.own → (f s).2.names.lookup name = s.names.lookup name)
    (related : R (f₀ s₀).2 (f s).2 (f₀ s₀).1 (f s).1)
    : r.Runs s₀ s (Infer.ofState f₀) (Infer.ofState f) R := by
  obtain ⟨wf₀, later₀⟩ := State.Moves.wellFormed_extends (moving₀ s₀) copied.wf₀
  obtain ⟨wf, later⟩ := State.Moves.wellFormed_extends (moving s) copied.wf
  exact ⟨_, _, ⟨⟨wf₀, wf, table, names⟩, later₀, later, others⟩, .inl ⟨_, _, rfl, rfl, related⟩⟩

/-- Notes run alike. -/
theorem runs_note (copied : r.Copied s₀ s) (shape : String)
    : r.Runs s₀ s (Infer.note (.typing shape)) (Infer.note (.typing shape))
        fun _ _ _ _ => True := by
  obtain ⟨wf₀, later₀⟩ :=
    State.Moves.wellFormed_extends (Infer.onlyMoves_note shape s₀) copied.wf₀
  obtain ⟨wf, later⟩ := State.Moves.wellFormed_extends (Infer.onlyMoves_note shape s) copied.wf
  exact ⟨_, _, ⟨⟨wf₀, wf, copied.table, copied.names⟩, later₀, later, fun _ _ => rfl⟩,
    .inl ⟨(), (), rfl, rfl, trivial⟩⟩

-----------------------------------------------------------------------------------------
-- New variables and written types
-----------------------------------------------------------------------------------------

/-- The variables allocated next in both states are copies of each other. -/
theorem moved_new (copied : r.Copied s₀ s) (name : Option String) {s₀' : State}
    (table : s₀'.table = (s₀.table.allocate name).2)
    : r.Moved s₀' (.var s₀.table.size) (.var s.table.size) := by
  refine ⟨.of_plain ?_ (OpenTy.isPlain_var _), ?_⟩
  · rw [table, Table.size_allocate, OpenTy.below_var]
    omega
  · rw [OpenTy.shift_var, copied.table.size]

/-- Fresh variables run alike. -/
theorem runs_fresh (copied : r.Copied s₀ s)
    : r.Runs s₀ s Infer.fresh Infer.fresh fun s₀' _ => r.Moved s₀' :=
  runs_ofState copied Infer.onlyMoves_fresh Infer.onlyMoves_fresh (copied.table.allocate none)
    copied.names (fun _ _ => rfl) (moved_new copied none rfl)

/-- A name that is known in one of the states is known in the other, as the moved variable. -/
theorem runs_named (copied : r.Copied s₀ s) {name : String} (isOwn : name ∈ r.own)
    : r.Runs s₀ s (Infer.ofState (·.named name)) (Infer.ofState (·.named name))
        fun s₀' _ => r.Moved s₀' := by
  have moving : Infer.OnlyMoves (Infer.ofState (·.named name)) := fun _ => .single (.named name)
  have same := copied.names name isOwn
  cases known : s₀.names.lookup name with
  | some v =>
      rw [known, Option.map_some] at same
      have stays₀ := State.named_of_known known
      have stays := State.named_of_known same
      refine runs_ofState copied moving moving ?_ ?_ ?_ ?_
      · rw [stays₀, stays]
        exact copied.table
      · rw [stays₀, stays]
        exact copied.names
      · rw [stays]
        exact fun _ _ => rfl
      · rw [stays₀, stays]
        exact ⟨.of_plain (by simpa using copied.wf₀.named known) (OpenTy.isPlain_var v),
          OpenTy.shift_var _ v⟩
  | none =>
      rw [known, Option.map_none] at same
      have new₀ := State.named_eq_of_unknown known
      have new := State.named_eq_of_unknown same
      refine runs_ofState copied moving moving ?_ ?_ ?_ ?_
      · rw [new₀, new]
        exact copied.table.allocate (some name)
      · rw [new₀, new]
        intro other isOther
        by_cases here : other = name
        · rw [here, State.lookup_cons_self, State.lookup_cons_self, copied.table.size]
          rfl
        · rw [State.lookup_cons_of_ne here, State.lookup_cons_of_ne here]
          exact copied.names other isOther
      · rw [new]
        intro other notOwn
        exact State.lookup_cons_of_ne fun here => notOwn (here ▸ isOwn)
      · rw [new₀, new]
        exact moved_new copied (some name) rfl

/-- Conversions of types run alike if each of them does, by induction on the types. -/
theorem runs_convertAll_of {tys : List Ty}
    (each
      : ∀ ty ∈ tys, ∀ {s₀ s : State}, r.Copied s₀ s
          → r.Runs s₀ s (Infer.convert ty) (Infer.convert ty) fun s₀' _ => r.Moved s₀')
    (copied : r.Copied s₀ s)
    : r.Runs s₀ s (Infer.convertAll tys) (Infer.convertAll tys)
        fun s₀' _ => List.Forall₂ (r.Moved s₀') := by
  induction tys generalizing s₀ s with
  | nil => exact runs_pure copied .nil
  | cons ty tys ih =>
      rw [Infer.convertAll_cons]
      refine (each ty (.head _) copied).bind fun first moved => ?_
      refine (ih (fun ty member => each ty (.tail _ member)) first.copied).bind ?_
      intro _ _ _ _ second others
      exact runs_pure second.copied (.cons (moved.later second) others)

/-- The names of one of several owned types are owned. -/
theorem Owns.member {tys : List Ty} (owns : r.Owns (Ty.namesOfAll tys)) {ty : Ty}
    (member : ty ∈ tys)
    : r.Owns ty.names :=
  fun name inType => owns name (Ty.mem_namesOfAll.mpr ⟨ty, member, inType⟩)

/-- A written type whose names are own ones is converted to a moved type. -/
theorem runs_convert (ty : Ty) (owns : r.Owns ty.names) (copied : r.Copied s₀ s)
    : r.Runs s₀ s (Infer.convert ty) (Infer.convert ty) fun s₀' _ => r.Moved s₀' := by
  induction ty using Ty.partsInduction generalizing s₀ s with
  | atomic a => exact runs_pure copied (moved_atomic s₀ a)
  | named name => exact runs_named copied (owns name (by simp [Ty.names]))
  | wildcard => exact runs_fresh copied
  | procedure params result ihParams ihResult =>
      rw [Ty.names, owns_append] at owns
      rw [Infer.convert_procedure]
      refine (runs_convertAll_of (fun param member _ _ copied =>
        ihParams param member (owns.1.member member) copied) copied).bind fun first params => ?_
      refine (ihResult owns.2 first.copied).bind fun second result => ?_
      exact runs_pure second.copied
        (.procedure (params.imp fun _ _ moved => moved.later second) result)

/-- The types that a lambda expression declares. -/
structure SignatureMoved (r : Relocation) (s₀ : State) (sig₀ sig : List OpenTy × OpenTy)
    : Prop where
  params : List.Forall₂ (r.Moved s₀) sig₀.1 sig.1
  result : r.Moved s₀ sig₀.2 sig.2

/-- A moved signature stays a copy after a step of both states. -/
theorem SignatureMoved.later {sig₀ sig : List OpenTy × OpenTy}
    (moved : r.SignatureMoved s₀ sig₀ sig) (step : r.Step s₀ s s₀' s')
    : r.SignatureMoved s₀' sig₀ sig :=
  ⟨moved.params.imp fun _ _ moved => moved.later step, moved.result.later step⟩

open Infer

/-- Signatures run alike if their names are owned. -/
theorem runs_signature {params : List Declaration} {result : TypeExpr}
    (inParams : r.Owns (Ty.namesOfAll (declaredTypes params))) (inResult : r.Owns result.ty.names)
    (copied : r.Copied s₀ s)
    : r.Runs s₀ s (signature params result) (signature params result)
        fun s₀' _ => r.SignatureMoved s₀' := by
  refine (runs_convertAll_of (fun ty member _ _ copied =>
    runs_convert ty (inParams.member member) copied) copied).bind fun first params => ?_
  refine (runs_convert _ inResult first.copied).bind fun second result => ?_
  exact runs_pure second.copied ⟨params.imp fun _ _ moved => moved.later second, result⟩

/-- The signatures of bound procedures run alike, by induction on the bindings. -/
theorem runs_signatures {bindings : List (Declaration × Expr)}
    (owns : ∀ binding ∈ bindings, r.Owns binding.2.typeNames)
    (copied : r.Copied s₀ s)
    : r.Runs s₀ s (signatures bindings) (signatures bindings)
        fun s₀' _ => List.Forall₂ (r.SignatureMoved s₀') := by
  fun_induction signatures bindings generalizing s₀ s with
  | case1 => exact runs_pure copied .nil
  | case2 declaration pos params result body rest ih =>
      have here := owns (declaration, .lambda pos params result body) (.head _)
      rw [Expr.typeNames, owns_append, owns_append] at here
      refine (runs_signature here.1.1 here.1.2 copied).bind fun first moved => ?_
      refine (ih (fun binding member => owns binding (.tail _ member)) first.copied).bind ?_
      intro _ _ _ _ second others
      exact runs_pure second.copied (.cons (moved.later second) others)
  | case3 _ _ _ ih => exact ih (fun binding member => owns binding (.tail _ member)) copied

/-- As many fresh variables in both tables keep one a copy of the other and add no names, by
induction on their number.
-/
theorem copied_freshMany (copied : s₀.table.CopiedAt r.offset s.table) (n : Nat)
    : (s₀.freshMany n).table.CopiedAt r.offset (s.freshMany n).table
      ∧ (s₀.freshMany n).names = s₀.names
      ∧ (s.freshMany n).names = s.names := by
  induction n generalizing s₀ s with
  | zero => exact ⟨copied, rfl, rfl⟩
  | succ n ih => exact ih (copied.allocate none)

/-- Primitives are taken with fresh variables alike. -/
theorem runs_instantiate (copied : r.Copied s₀ s) (op : Primitive)
    : r.Runs s₀ s (ofState (·.instantiate op)) (ofState (·.instantiate op))
        fun s₀' _ => r.Moved s₀' := by
  obtain ⟨table, names₀, names⟩ := copied_freshMany copied.table op.quantified
  have moving := onlyMoves_instantiate op
  refine runs_ofState copied moving moving table ?_ ?_ ⟨.of_plain ?_ ?_, ?_⟩
  · rw [State.instantiate, State.instantiate, names₀, names]
    exact copied.names
  · intro name _
    rw [State.instantiate, names]
  · obtain ⟨_, _, _, ⟨_, run, holds⟩ | ⟨_, _, impossible⟩⟩ :=
      gives_instantiate (E := fun _ _ => False) op copied.wf₀
    · cases run
      exact holds.below
    · exact impossible.elim
  · exact OpenTy.isPlain_subst (fun _ => OpenTy.isPlain_var _) (scheme_isPlain op)
  · rw [State.instantiate, State.instantiate, OpenTy.shift, OpenTy.subst_subst, copied.table.size]
    apply OpenTy.subst_congr
    intro v _
    rw [OpenTy.subst_var, Nat.add_assoc]

-----------------------------------------------------------------------------------------
-- Unification and gathered failures
-----------------------------------------------------------------------------------------

/-- An error of unification is explained alike in a table and in one with a copy of it. -/
theorem explained_alike {left₀ left : Table} (copied : left₀.CopiedAt r.offset left)
    (wf : left₀.WellFormed) (size : left₀.size = s₀.table.size) {error : UnifyError}
    (about : error.About (r.Allows s₀)) (context : Expr)
    : TypeError.ShownAlike (r.Allows s₀) left₀.nameOf (fun v => left.nameOf (r.offset + v))
        (error.toTypeError left₀ context) ((error.shift r.offset).toTypeError left context) := by
  have below {u : OpenTy} (allows : r.Allows s₀ u) : u.Below left₀.size := size ▸ allows.below
  have resolved {u : OpenTy} (allows : r.Allows s₀ u) : r.Allows s₀ (left₀.resolve u) :=
    ⟨size ▸ wf.toGrounded.below_resolve (below allows),
      fun name isName => allows.names name (wf.mem_names_resolve isName)⟩
  have shown {u : OpenTy} (allows : r.Allows s₀ u) := copied.toTy_shift wf.toGrounded (below allows)
  induction about with
  | mismatch first second =>
      rw [UnifyError.shift, UnifyError.toTypeError, UnifyError.toTypeError, shown first,
        shown second]
      exact .mismatch (resolved first) (resolved second) context.pos
  | arity first second =>
      rw [UnifyError.shift, UnifyError.toTypeError, UnifyError.toTypeError]
      simp only [Option.map_some, Prod.map_apply]
      rw [shown first, shown second]
      exact .arity (resolved first) (resolved second) _ _ context.pos
  | occurs first second =>
      have shownVar := shown first
      rw [OpenTy.shift_var] at shownVar
      rw [UnifyError.shift, UnifyError.toTypeError, UnifyError.toTypeError, shownVar, shown second]
      exact .occurs (resolved first) (resolved second) context.pos
  | badType holds =>
      rw [UnifyError.shift, UnifyError.toTypeError, UnifyError.toTypeError, shown holds]
      exact .badType (resolved holds) context.pos
  | multiple _ ih =>
      rw [UnifyError.shift, UnifyError.toTypeError, UnifyError.toTypeError,
        UnifyError.toTypeErrors_eq_map, UnifyError.toTypeErrors_eq_map, UnifyError.shiftAll_eq_map,
        List.map_map]
      refine .several ?_ _ _
      rw [List.forall₂_map_left_iff, List.forall₂_map_right_iff, List.forall₂_same]
      exact ih

/-- The allowed types are closed under what a unification comes to: the parts of types and the
bindings of variables.
-/
theorem Copied.spreads_allows (copied : r.Copied s₀ s)
    : s₀.table.snapshot.2.Spreads (r.Allows s₀) where
  inside allows := by simpa using allows.below
  parts allows := by
    obtain ⟨inParams, inResult⟩ := OpenTy.below_procedure.mp allows.below
    refine ⟨fun param member => ⟨inParams param member, fun name inParam => ?_⟩,
      inResult, fun name isName => ?_⟩
    · exact allows.names name (OpenTy.mem_names_procedure.mpr (.inl ⟨param, member, inParam⟩))
    · exact allows.names name (OpenTy.mem_names_procedure.mpr (.inr isName))
  bound bound := .of_plain (copied.wf₀.table.allocated bound) (copied.wf₀.table.plain bound)

/-- A failed unification of types over the variables of the table leaves an error that can be
explained.
-/
theorem explain_of_failed {t left : Table} {a b : OpenTy} {e : UnifyError} (grounded : t.Grounded)
    (belowA : a.Below t.size) (belowB : b.Below t.size) (failed : Unify.types a b t = .error e left)
    (context : Expr)
    : e.explain left context = e.toTypeError left context := by
  have ends := Unify.types_ends grounded belowA belowB
  have binds := (Unify.types_unifies a b t grounded).binds
  rw [failed] at ends binds
  have size : left.size = t.size := binds.size
  have about := (ends.about grounded.spreads_below belowA belowB).2
  rw [← size] at about
  exact UnifyError.explain_eq (about.stray?_eq_none (binds.grounded grounded)) context

/-- Binding variables leaves their names, so that the errors of two failed unifications are alike
with the names from before.
-/
theorem explain_alike (copied : r.Copied s₀ s) {a₀ a b₀ b : OpenTy} (movedA : r.Moved s₀ a₀ a)
    (movedB : r.Moved s₀ b₀ b) {left₀ left : Table} {e₀ e : UnifyError}
    (failed₀ : Unify.types a₀ b₀ s₀.table.snapshot.2 = .error e₀ left₀)
    (failed : Unify.types a b s.table.snapshot.2 = .error e left)
    (table : left₀.CopiedAt r.offset left) (isMoved : e₀.shift r.offset = e) (context : Expr)
    : r.FailAlike s₀ s (e₀.explain left₀ context) (e.explain left context) := by
  have wf₀ := copied.wf₀.table.snapshot
  have wf := copied.wf.table.snapshot
  have below {u₀ u : OpenTy} (moved : r.Moved s₀ u₀ u) : u.Below s.table.size := by
    rw [← moved.moved, copied.table.size]
    exact moved.allowed.below.shift
  rw [explain_of_failed wf₀.toGrounded movedA.allowed.below movedB.allowed.below failed₀,
    explain_of_failed wf.toGrounded (below movedA) (below movedB) failed, ← isMoved]
  have ends₀ := Unify.types_ends wf₀.toGrounded movedA.allowed.below movedB.allowed.below
  have binds₀ := (Unify.types_unifies a₀ b₀ _ wf₀.toGrounded).binds
  have binds := (Unify.types_unifies a b _ wf.toGrounded).binds
  rw [failed₀] at ends₀ binds₀
  rw [failed] at binds
  have about := (ends₀.about copied.spreads_allows movedA.allowed movedB.allowed).2
  have explained := explained_alike table (binds₀.wellFormed wf₀) binds₀.size about context
  refine explained.imp (fun _ => id) ?_ ?_
  · intro u _
    exact OpenTy.toTy_congr fun v _ => binds₀.nameOf_eq v
  · intro u _
    exact OpenTy.toTy_congr fun v _ => binds.nameOf_eq (r.offset + v)

/-- Unifications of moved types run alike. -/
theorem runs_unify (copied : r.Copied s₀ s) {a₀ a b₀ b : OpenTy} (movedA : r.Moved s₀ a₀ a)
    (movedB : r.Moved s₀ b₀ b) (context : Expr)
    : r.Runs s₀ s (unify a₀ b₀ context) (unify a b context) fun _ _ _ _ => True := by
  have wf₀ := copied.wf₀.table.snapshot
  have wf := copied.wf.table.snapshot
  have snapshots : s₀.table.snapshot.2.CopiedAt r.offset s.table.snapshot.2 :=
    ⟨copied.table.size, copied.table.binding?, copied.table.name?⟩
  have alike := Unify.types_copied snapshots wf₀.toGrounded wf.toGrounded movedA.allowed.below
    movedB.allowed.below
  rw [movedA.moved, movedB.moved] at alike
  have binds₀ := (Unify.types_unifies a₀ b₀ _ wf₀.toGrounded).binds
  have binds := (Unify.types_unifies a b _ wf.toGrounded).binds
  have moves₀ := State.transaction_extends (Unify.types_onlyBinds a₀ b₀) context copied.wf₀
  have moves := State.transaction_extends (Unify.types_onlyBinds a b) context copied.wf
  generalize run₀ : Unify.types a₀ b₀ s₀.table.snapshot.2 = ended₀ at alike binds₀
  generalize run : Unify.types a b s.table.snapshot.2 = ended at alike binds
  cases alike with
  | ok table =>
      have ends₀ := State.transaction_run_ok run₀ binds₀ context
      have ends := State.transaction_run_ok run binds context
      rw [ends₀] at moves₀
      rw [ends] at moves
      have copied' : r.Copied _ _ :=
        ⟨moves₀.1, moves.1, ⟨table.size, table.binding?, table.name?⟩, copied.names⟩
      exact ⟨_, _, ⟨copied', moves₀.2, moves.2, fun _ _ => rfl⟩,
        .inl ⟨(), (), ends₀, ends, trivial⟩⟩
  | error table isMoved =>
      have ends₀ := State.transaction_run_error run₀ binds₀ context
      have ends := State.transaction_run_error run binds context
      have alike := explain_alike copied movedA movedB run₀ run table isMoved context
      rw [ends₀] at moves₀
      rw [ends] at moves
      have copied' : r.Copied _ _ := ⟨moves₀.1, moves.1, copied.table, copied.names⟩
      exact ⟨_, _, ⟨copied', moves₀.2, moves.2, fun _ _ => rfl⟩,
        .inr ⟨_, _, ends₀, ends, alike.later copied moves₀.2 moves.2⟩⟩

/-- The first type is given; the second one, or an error, was inferred before. -/
theorem runs_checkEqual (copied : r.Copied s₀ s) {a₀ a : OpenTy} (moved : r.Moved s₀ a₀ a)
    {x₀ x : Except TypeError OpenTy} (kept : r.Kept s₀ s (r.Moved s₀) x₀ x) (context : Expr)
    : r.Runs s₀ s (checkEqual (.ok a₀) x₀ context) (checkEqual (.ok a) x context)
        fun _ _ _ _ => True := by
  cases kept with
  | ok movedB => exact runs_unify copied moved movedB context
  | error alike => exact runs_throw copied alike

/-- Of results kept one by one, the values are related and the errors fail alike, by induction on
the pairs.
-/
theorem partition_kept {R : α → α → Prop} {results₀ results : List (Except TypeError α)}
    (kept : List.Forall₂ (r.Kept s₀ s R) results₀ results)
    : List.Forall₂ R (partition results₀).1 (partition results).1
      ∧ List.Forall₂ (r.FailAlike s₀ s) (partition results₀).2 (partition results).2 := by
  induction kept with
  | nil => exact ⟨.nil, .nil⟩
  | cons first _ ih =>
      obtain ⟨values, errors⟩ := ih
      cases first with
      | ok related => exact ⟨.cons related values, errors⟩
      | error alike => exact ⟨values, .cons alike errors⟩

/-- Kept results are collected alike. -/
theorem runs_collect {R : α → α → Prop} (copied : r.Copied s₀ s)
    {results₀ results : List (Except TypeError α)}
    (kept : List.Forall₂ (r.Kept s₀ s R) results₀ results) (context : Expr)
    : r.Runs s₀ s (collect results₀ context) (collect results context)
        fun _ _ => List.Forall₂ R := by
  obtain ⟨values, errors⟩ := partition_kept kept
  rw [collect, collect]
  generalize partition results₀ = parted₀, partition results = parted at values errors ⊢
  obtain ⟨values₀, errors₀⟩ := parted₀
  obtain ⟨values', errors'⟩ := parted
  cases errors with
  | nil => exact runs_pure copied values
  | cons first rest =>
      cases rest with
      | nil => exact runs_throw copied first
      | cons second others =>
          exact runs_throw copied (.several (.cons first (.cons second others)) _ _)

end Relocation

end TypedScheme
