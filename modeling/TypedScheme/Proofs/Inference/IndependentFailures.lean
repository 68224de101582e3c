import TypedScheme.Proofs.Inference.Clashes
import TypedScheme.Proofs.Inference.RelocatedTyping
import TypedScheme.Proofs.Inference.Soundness

/-! The bindings of a `let` fail independently of each other.
They are checked one after the other in one table, which keeps the variables of the bindings before.
Main statement: if no two bindings share a name in their annotations, then each check ends as it
does for the only binding of a `let`, and the error of the `let` has the leaves of all failed
checks, in order and up to the names of the variables. The body is not visited.
-/

namespace TypedScheme

-----------------------------------------------------------------------------------------
-- Errors with other names
-----------------------------------------------------------------------------------------

namespace Ty

mutual
/-- The type with its type variables renamed. -/
def rename (ρ : String → String) : Ty → Ty
  | .atomic a => .atomic a
  | .named name => .named (ρ name)
  | .wildcard => .wildcard
  | .procedure params result => .procedure (renameAll ρ params) (result.rename ρ)

def renameAll (ρ : String → String) : List Ty → List Ty
  | [] => []
  | ty :: tys => ty.rename ρ :: renameAll ρ tys
end

/-- Types are renamed one by one, by induction on the types. -/
theorem renameAll_eq_map (ρ : String → String) (tys : List Ty)
    : renameAll ρ tys = tys.map (rename ρ) := by
  induction tys with
  | nil => rw [renameAll, List.map_nil]
  | cons ty tys ih => rw [renameAll, List.map_cons, ih]

end Ty

/-- A type shows the names of its variables and the names in it. -/
theorem OpenTy.rename_toTy {ρ : String → String} {f g : Nat → String} {ty : OpenTy}
    (renames : ∀ v ∈ ty.vars, ρ (f v) = g v) (keeps : ∀ name ∈ ty.names, ρ name = name)
    : (ty.toTy f).rename ρ = ty.toTy g := by
  induction ty using partsInduction with
  | var v => rw [toTy, toTy, Ty.rename, renames v (by simp)]
  | atomic | wildcard => rw [toTy, toTy, Ty.rename]
  | named name => rw [toTy, toTy, Ty.rename, keeps name (by simp [names])]
  | procedure params result ihParams ihResult =>
      rw [toTy, toTy, toTys_eq_map, toTys_eq_map, Ty.rename, Ty.renameAll_eq_map, List.map_map]
      congr 1
      · refine List.map_congr_left fun param member => ihParams param member ?_ ?_
        · exact fun v occurs => renames v (mem_vars_procedure.mpr (.inl ⟨param, member, occurs⟩))
        · exact fun name inParam =>
            keeps name (mem_names_procedure.mpr (.inl ⟨param, member, inParam⟩))
      · refine ihResult ?_ ?_
        · exact fun v occurs => renames v (mem_vars_procedure.mpr (.inr occurs))
        · exact fun name inResult => keeps name (mem_names_procedure.mpr (.inr inResult))

/-- Distinct names can be replaced, and all other names kept. A name that is replaced by itself is
kept as well.
-/
theorem exists_renaming {size : Nat} {f : Nat → String} (apart : Set.InjOn f {v | v < size})
    (g : Nat → String)
    : ∃ ρ : String → String,
        (∀ v < size, ρ (f v) = g v)
        ∧ ∀ name, (∀ v < size, f v = name → g v = name) → ρ name = name := by
  have injective : Function.Injective fun v : Fin size => f v := fun v w same =>
    Fin.ext (apart v.isLt w.isLt same)
  refine ⟨Function.extend (fun v : Fin size => f v) (fun v => g v) id, ?_, ?_⟩
  · exact fun v inside => injective.extend_apply _ _ ⟨v, inside⟩
  · intro name keeps
    by_cases replaced : ∃ v : Fin size, f v = name
    · obtain ⟨v, rfl⟩ := replaced
      exact (injective.extend_apply _ _ v).trans (keeps v v.isLt rfl)
    · exact Function.extend_apply' _ _ _ replaced

namespace TypeError

mutual
/-- The error with the type variables in its types renamed. -/
def rename (ρ : String → String) : TypeError → TypeError
  | .unboundIdentifier id pos => .unboundIdentifier id pos
  | .mismatch expected inferred pos => .mismatch (expected.rename ρ) (inferred.rename ρ) pos
  | .arity n m types pos => .arity n m (types.map (Prod.map (Ty.rename ρ) (Ty.rename ρ))) pos
  | .occurs var ty pos => .occurs (var.rename ρ) (ty.rename ρ) pos
  | .unsupported construct reason context pos => .unsupported construct reason context pos
  | .multiple context errors pos => .multiple context (renameAll ρ errors) pos
  | .badType ty pos => .badType (ty.rename ρ) pos
  | .unallocated var pos => .unallocated var pos
  | .corrupt pos => .corrupt pos

def renameAll (ρ : String → String) : List TypeError → List TypeError
  | [] => []
  | e :: es => e.rename ρ :: renameAll ρ es
end

/-- The second errors are the first ones with the type variables renamed. -/
def RenamesTo (errors errors' : List TypeError) : Prop :=
  ∃ ρ : String → String, errors.map (rename ρ) = errors'

/-- Errors are renamed one by one, by induction on the errors. -/
theorem renameAll_eq_map (ρ : String → String) (errors : List TypeError)
    : renameAll ρ errors = errors.map (rename ρ) := by
  induction errors with
  | nil => rw [renameAll, List.map_nil]
  | cons e es ih => rw [renameAll, List.map_cons, ih]

namespace ShownAlike

variable {P : OpenTy → Prop} {f g : Nat → String}

/-- Errors that are shown alike by two namings are renamed into each other wherever the types are,
by induction on the pair.
-/
theorem rename_eq {ρ : String → String} (renames : ∀ u, P u → (u.toTy f).rename ρ = u.toTy g)
    {e e' : TypeError} (alike : ShownAlike P f g e e')
    : e.rename ρ = e' := by
  induction alike with
  | unboundIdentifier | unsupported => rw [rename]
  | mismatch first second | occurs first second => rw [rename, renames _ first, renames _ second]
  | arity first second =>
      rw [rename, Option.map_some, Prod.map_apply, renames _ first, renames _ second]
  | badType holds => rw [rename, renames _ holds]
  | multiple length _ _ _ ih =>
      rw [rename, renameAll_eq_map]
      congr 1
      rw [← List.forall₂_eq_eq_eq, List.forall₂_map_left_iff]
      exact List.forall₂_iff_zip.mpr ⟨length, ih⟩

/-- Where the names on one side are distinct, each of them leads to the name on the other side. The
names that stand in types are the same on both sides.
-/
theorem renamesTo {size : Nat} {errors errors' : List TypeError}
    (alike : List.Forall₂ (ShownAlike P f g) errors errors') (below : ∀ u, P u → u.Below size)
    (keeps : ∀ u, P u → ∀ name ∈ u.names, ∀ v < size, f v = name → g v = name)
    (apart : Set.InjOn f {v | v < size})
    : RenamesTo errors errors' := by
  obtain ⟨ρ, renames, kept⟩ := exists_renaming apart g
  refine ⟨ρ, ?_⟩
  rw [← List.forall₂_eq_eq_eq, List.forall₂_map_left_iff]
  refine alike.imp fun e e' => rename_eq fun u shown => OpenTy.rename_toTy ?_ ?_
  · exact fun v occurs => renames v (below u shown v occurs)
  · exact fun name isName => kept name (keeps u shown name isName)

end ShownAlike

end TypeError

-----------------------------------------------------------------------------------------
-- Checks that go on after failures
-----------------------------------------------------------------------------------------

namespace Infer

variable {α β : Type}

/-- Only a fatal error ends the computation. -/
def GoesOn (x : Infer α) : Prop := ∀ s e s', x s = .error e s' → e.isFatal = true

/-- A value is no failure. -/
theorem goesOn_pure (a : α) : GoesOn (pure a) := nofun

/-- Nor is a step of the state. -/
theorem goesOn_ofState (f : State → α × State) : GoesOn (ofState f) := nofun

/-- Nor is an attempt, unless the failure is fatal. -/
theorem goesOn_attempt (x : Infer α) : GoesOn x.attempt := by
  intro s e s' failed
  rw [attempt] at failed
  split at failed
  · cases failed
  · split at failed
    · next fatal =>
        cases failed
        exact fatal
    · cases failed

/-- A sequence goes on if both of its parts do. -/
theorem GoesOn.bind {x : Infer α} {f : α → Infer β} (first : GoesOn x) (next : ∀ a, GoesOn (f a))
    : GoesOn (x >>= f) := by
  intro s e s' failed
  cases run : x s with
  | error =>
      rw [run_bind_error run] at failed
      cases failed
      exact first s e s' run
  | ok a =>
      rw [run_bind_ok run] at failed
      exact next a _ e s' failed

/-- The single failures of a check. -/
def leavesOf : Except TypeError α → List TypeError
  | .ok _ => []
  | .error e => e.leaves

/-- The leaves of the failures among some checks are those of the checks one after the other, by
induction on the checks.
-/
theorem leavesOfAll_partition (checks : List (Except TypeError α))
    : TypeError.leavesOfAll (partition checks).2 = checks.flatMap leavesOf := by
  induction checks with
  | nil => rfl
  | cons check checks ih =>
      rw [List.flatMap_cons, ← ih]
      cases check with
      | ok => rfl
      | error => rw [partition, TypeError.leavesOfAll, leavesOf]

end Infer

-----------------------------------------------------------------------------------------
-- The checks of a `let`
-----------------------------------------------------------------------------------------

/-- A new state in which the inference of a `let` has begun. -/
def State.letStart : State := { State.empty with log := #[.typing "let expression"] }

/-- The state in which a `let` starts is reached by one note. -/
theorem State.moves_letStart : empty.Moves letStart := Infer.onlyMoves_note "let expression" empty

/-- The state in which a `let` starts is well formed. -/
theorem State.letStart_wellFormed : letStart.WellFormed :=
  (moves_letStart.wellFormed_extends empty_wellFormed).1

namespace Expr

open Infer

variable {env : TypeEnv} {bindings : List (Declaration × Expr)} {binding : Declaration × Expr}

/-- The check of bindings goes on after a failure, by induction on the bindings. -/
theorem checkBindings_goesOn (env : TypeEnv) (bindings : List (Declaration × Expr))
    : GoesOn (checkBindings env bindings) := by
  induction bindings with
  | nil => exact goesOn_pure _
  | cons binding rest ih =>
      exact (goesOn_ofState _).bind fun _ => (goesOn_attempt _).bind fun _ =>
        (goesOn_attempt _).bind fun _ => ih.bind fun _ => goesOn_pure _

/-- The first binding is checked as if it were the only one, and then the others are. -/
theorem checkBindings_cons {rest : List (Declaration × Expr)} {s middle s' : State}
    {first checks : List (Except TypeError (String × OpenTy))}
    (ofFirst : checkBindings env [binding] s = .ok first middle)
    (ofRest : checkBindings env rest middle = .ok checks s')
    : ∃ check,
        first = [check]
        ∧ checkBindings env (binding :: rest) s = .ok (check :: checks) s' := by
  obtain ⟨declaration, value⟩ := binding
  rw [checkBindings] at ofFirst ⊢
  obtain ⟨declared, s₁, converted, ofFirst⟩ := run_bind_eq_ok_iff.mp ofFirst
  obtain ⟨inferred, s₂, tried, ofFirst⟩ := run_bind_eq_ok_iff.mp ofFirst
  obtain ⟨checked, s₃, compared, ofFirst⟩ := run_bind_eq_ok_iff.mp ofFirst
  cases ofFirst
  refine ⟨_, rfl, ?_⟩
  rw [run_bind_ok converted, run_bind_ok tried, run_bind_ok compared, run_bind_ok ofRest]
  rfl

/-- A `let` collects the checks of its bindings and then goes on with its body. -/
theorem typeOf_letIn {checks : List (Except TypeError (String × OpenTy))} {s' : State}
    (run : checkBindings env bindings .letStart = .ok checks s') (pos : Position) (body : List Expr)
    : (letIn pos bindings body).typeOf env .empty
      = (collect checks (letIn pos bindings body) >>= fun declared =>
          typeOfBody (env.extend declared) (letIn pos bindings body) body) s' := by
  rw [typeOf]
  exact run_bind_ok run

/-- The error of a `let` has the leaves of all failed checks. It does not depend on the body, which
is not visited: the state is that after the checks.
-/
theorem typeOf_letIn_of_failed {checks : List (Except TypeError (String × OpenTy))} {s' : State}
    (run : checkBindings env bindings .letStart = .ok checks s') {e : TypeError}
    (failed : .error e ∈ checks) (pos : Position) (body : List Expr)
    : ∃ error,
        (letIn pos bindings body).typeOf env .empty = .error error s'
        ∧ error.leaves = checks.flatMap leavesOf := by
  rw [typeOf_letIn run]
  obtain ⟨values, rfl, _⟩ | ⟨error, collected, leaves⟩ :=
    collect_cases checks (letIn pos bindings body)
  · obtain ⟨_, _, impossible⟩ := List.mem_map.mp failed
    cases impossible
  · rw [collected]
    exact ⟨error, rfl, leaves.trans (leavesOfAll_partition checks)⟩

end Expr

namespace Environment

/-- No type of the environment has a variable. -/
def Closed (env : TypeEnv) : Prop := ∀ name u, env.get? name = some u → u.vars = []

/-- The name stands in a type of the environment. -/
def Mentions (env : TypeEnv) (name : String) : Prop := ∃ x u, env.get? x = some u ∧ name ∈ u.names

/-- No name in a type of the environment is a made one. -/
def Unmade (env : TypeEnv) : Prop := ∀ name, env.Mentions name → ∀ v, name ≠ Table.madeName v

end Environment

-----------------------------------------------------------------------------------------
-- A binding among others and alone
-----------------------------------------------------------------------------------------

open TypedScheme.Expr

namespace Relocation

variable {env : TypeEnv} {bindings : List (Declaration × Expr)} {s : State}

/-- An inference in a new state beside one that goes on in `s`. -/
def behind (s : State) (env : TypeEnv) (bindings : List (Declaration × Expr)) : Relocation :=
  ⟨s.table.size, typeNamesOfBindings bindings, env.Mentions⟩

/-- Names that `s` does not know have no meaning in either state. -/
theorem behind_copied (wf : s.WellFormed)
    (unknown : ∀ name ∈ typeNamesOfBindings bindings, s.names.lookup name = none)
    : (behind s env bindings).Copied .letStart s where
  wf₀ := State.letStart_wellFormed
  wf := wf
  table := .start s.table
  names name isOwn := by
    rw [unknown name isOwn]
    rfl

/-- A closed environment has no variable to move, so it is its own copy. -/
theorem envMoved_of_closed {s₀ : State} (closed : env.Closed)
    : (behind s env bindings).EnvMoved s₀ env env := by
  intro name
  cases found : env.get? name with
  | none => exact .none
  | some u =>
      have noVars := closed name u found
      refine .some ⟨⟨?_, fun _ isName => ⟨name, u, found, isName⟩⟩, OpenTy.shift_of_closed noVars⟩
      simp [OpenTy.Below, noVars]

/-- The checks in `s` end as those in a new state do. -/
theorem checkBindings_behind (closed : env.Closed) (wf : s.WellFormed)
    (unknown : ∀ name ∈ typeNamesOfBindings bindings, s.names.lookup name = none)
    : ∃ s₀ s' checks₀ checks,
        (behind s env bindings).Step .letStart s s₀ s'
        ∧ checkBindings env bindings .letStart = .ok checks₀ s₀
        ∧ checkBindings env bindings s = .ok checks s'
        ∧ List.Forall₂
            ((behind s env bindings).Kept s₀ s' ((behind s env bindings).BindingMoved s₀)) checks₀
            checks := by
  have copied : (behind s env bindings).Copied .letStart s := behind_copied wf unknown
  have moved : (behind s env bindings).EnvMoved .letStart env env := envMoved_of_closed closed
  obtain ⟨s₀, s', step, ⟨checks₀, checks, run₀, run, kept⟩ | ⟨e₀, _, run₀, _, alike⟩⟩ :=
    checkBindings_runs (fun _ _ => typeOf_runs _) copied moved fun _ => id
  · exact ⟨s₀, s', checks₀, checks, step, run₀, run, kept⟩
  · have fatal := checkBindings_goesOn env bindings _ _ _ run₀
    rw [alike.not_fatal.1] at fatal
    cases fatal

end Relocation

namespace Expr

open Infer

variable {env : TypeEnv} {bindings : List (Declaration × Expr)} {binding : Declaration × Expr}

/-- Only names in the annotations are known after the checks. If none of them is a made name, then
all variables have distinct names.
-/
theorem namesApart_of_unmade (closed : env.Closed)
    {checks : List (Except TypeError (String × OpenTy))} {s' : State}
    (run : checkBindings env bindings .letStart = .ok checks s')
    (unmade : ∀ name ∈ typeNamesOfBindings bindings, ∀ v, name ≠ Table.madeName v)
    : s'.table.NamesApart := by
  have moves : State.empty.Moves s' := by
    have checked : OnlyMoves (checkBindings env bindings) :=
      checkBindings_onlyMoves (fun _ _ => typeOf_onlyMoves _) env
    have after := checked .letStart
    rw [run] at after
    exact State.moves_letStart.trans after
  have matching :=
    moves.preserves State.Move.namesMatch State.empty_wellFormed State.empty_namesMatch
  refine matching.namesApart_iff.mpr fun name v w known _ _ => unmade name ?_ w
  obtain ⟨_, last, _, _, step, _, again, _⟩ :=
    Relocation.checkBindings_behind closed State.letStart_wellFormed
      (fun name (_ : name ∈ typeNamesOfBindings bindings) => rfl)
  rw [run] at again
  cases again
  by_contra other
  rw [step.others name other] at known
  cases known

/-- The check of a binding of a `let`, after which the state is `s'`, ends as it does for the only
binding of a `let`. If both fail, then the leaves show the same types, where the variables of the
one are those of the other from `offset` on and the written names are the same. They differ by
renaming if the names on one side are distinct.
-/
inductive ChecksAlike (env : TypeEnv) (s' : State) (binding : Declaration × Expr)
    : Except TypeError (String × OpenTy) → Prop
  | passed {bound₀ bound : String × OpenTy} {s₀ : State}
      (alone : checkBindings env [binding] .letStart = .ok [.ok bound₀] s₀)
    : ChecksAlike env s' binding (.ok bound)
  | failed {e₀ e : TypeError} {s₀ : State} {offset : Nat}
      (alone : ∀ pos body, (letIn pos [binding] body).typeOf env .empty = .error e₀ s₀)
      (inside : offset + s₀.table.size ≤ s'.table.size)
      (named : ∀ v < s₀.table.size, s'.table.name? (offset + v) = s₀.table.name? v)
      (shown
        : List.Forall₂
            (TypeError.ShownAlike (·.Below s₀.table.size) s₀.table.nameOf fun v =>
              s'.table.nameOf (offset + v))
            e₀.leaves e.leaves)
      (unmade
        : (∀ name ∈ bindingNames binding, ∀ v, name ≠ Table.madeName v) → s₀.table.NamesApart)
      (forth : env.Unmade → s₀.table.NamesApart → TypeError.RenamesTo e₀.leaves e.leaves)
      (back : env.Unmade → s'.table.NamesApart → TypeError.RenamesTo e.leaves e₀.leaves)
    : ChecksAlike env s' binding (.error e)

/-- The names of a single binding are those of its annotations. -/
theorem mem_typeNamesOfBindings_singleton {name : String}
    : name ∈ typeNamesOfBindings [binding] ↔ name ∈ bindingNames binding := by
  simp [mem_typeNamesOfBindings]

/-- A binding that fails alike alone and among others has failures that are renamed into each other.
-/
theorem ChecksAlike.of_failAlike (closed : env.Closed) {s s₀ middle s' : State} {e₀ e : TypeError}
    (alone : checkBindings env [binding] .letStart = .ok [.error e₀] s₀)
    (step : (Relocation.behind s env [binding]).Step .letStart s s₀ middle)
    (alike : (Relocation.behind s env [binding]).FailAlike s₀ middle e₀ e)
    (later : middle.Extends s')
    : ChecksAlike env s' binding (.error e) := by
  have asLet pos body : (letIn pos [binding] body).typeOf env .empty = .error e₀ s₀ :=
    typeOf_letIn alone pos body
  have inside {v : Nat} (inFirst : v < s₀.table.size) : s.table.size + v < s'.table.size :=
    Nat.lt_of_lt_of_le (step.copied.table.inside inFirst) later.table.size
  have named v (inFirst : v < s₀.table.size)
      : s'.table.name? (s.table.size + v) = s₀.table.name? v :=
    (later.table.named (step.copied.table.inside inFirst)).trans (step.copied.table.name? v)
  have leaves := (alike.later step.copied (.refl s₀) later).leaves
  have leavesBack := leaves.flip.imp fun _ _ => TypeError.ShownAlike.symm
  refine .failed asLet (step.copied.table.size ▸ later.table.size) named ?_ ?_ ?_ ?_
  · exact leaves.imp fun _ _ alike =>
      alike.imp (fun u allows => allows.below) (fun _ _ => rfl) fun _ _ => rfl
  · intro unmade
    refine namesApart_of_unmade closed alone fun name isName => unmade name ?_
    exact mem_typeNamesOfBindings_singleton.mp isName
  · intro unmade apart
    refine TypeError.ShownAlike.renamesTo leaves (fun u allows => allows.below) ?_ ?_
    · intro u allows name isName v inFirst same
      have unmade' := unmade name (allows.names name isName)
      rw [Table.nameOf_eq_iff unmade'] at same ⊢
      exact (named v inFirst).trans same
    · exact fun v insideV w insideW => apart v insideV w insideW
  · intro unmade apart
    refine TypeError.ShownAlike.renamesTo leavesBack (fun u allows => allows.below) ?_ ?_
    · intro u allows name isName v inFirst same
      have unmade' := unmade name (allows.names name isName)
      rw [Table.nameOf_eq_iff unmade'] at same ⊢
      exact (named v inFirst).symm.trans same
    · intro v insideV w insideW same
      exact Nat.add_left_cancel (apart _ (inside insideV) _ (inside insideW) same)

/-- No two bindings share a name in their annotations or in those of their values. -/
def NamesDisjoint (bindings : List (Declaration × Expr)) : Prop :=
  bindings.Pairwise fun binding other => ∀ name ∈ bindingNames binding, name ∉ bindingNames other

instance (bindings : List (Declaration × Expr)) : Decidable (NamesDisjoint bindings) :=
  inferInstanceAs (Decidable (bindings.Pairwise _))

/-- Each binding in turn is checked behind the variables of the bindings before it, which left its
names unknown.
-/
theorem checkBindings_alone (closed : env.Closed) (apart : NamesDisjoint bindings) {s : State}
    (wf : s.WellFormed)
    (unknown : ∀ name ∈ typeNamesOfBindings bindings, s.names.lookup name = none)
    : ∃ checks s',
        checkBindings env bindings s = .ok checks s'
        ∧ s.Extends s'
        ∧ List.Forall₂ (ChecksAlike env s') bindings checks := by
  induction bindings generalizing s with
  | nil => exact ⟨[], s, rfl, .refl s, .nil⟩
  | cons binding rest ih =>
      obtain ⟨apartHead, apartRest⟩ := List.pairwise_cons.mp apart
      have inHead {name : String} (isName : name ∈ typeNamesOfBindings [binding])
          : name ∈ typeNamesOfBindings (binding :: rest) :=
        mem_typeNamesOfBindings.mpr
          ⟨binding, List.mem_cons_self, mem_typeNamesOfBindings_singleton.mp isName⟩
      obtain ⟨s₀, middle, checks₀, first, step, alone, ofFirst, kept⟩ :=
        Relocation.checkBindings_behind closed wf fun name isName => unknown name (inHead isName)
      have unknown' name (isName : name ∈ typeNamesOfBindings rest)
          : middle.names.lookup name = none := by
        obtain ⟨other, member, inOther⟩ := mem_typeNamesOfBindings.mp isName
        have notOwn : name ∉ typeNamesOfBindings [binding] := fun isOwn =>
          apartHead other member name (mem_typeNamesOfBindings_singleton.mp isOwn) inOther
        rw [step.others name notOwn]
        exact unknown name (mem_typeNamesOfBindings.mpr ⟨other, .tail _ member, inOther⟩)
      obtain ⟨checks, s', ofRest, later, others⟩ := ih apartRest step.copied.wf unknown'
      obtain ⟨check, rfl, run⟩ := checkBindings_cons ofFirst ofRest
      refine ⟨check :: checks, s', run, step.later.trans later, .cons ?_ others⟩
      obtain - | ⟨checked, ⟨⟩⟩ := kept
      cases checked with
      | ok _ => exact .passed alone
      | error alike => exact .of_failAlike closed alone step alike later

/-- If no two bindings share a name, then the check of each ends as it does for the only binding of
a `let`. If one fails, then the leaves of the error of the `let` are those of all failed checks, in
order, and no body changes the error's leaves or the state that is left. The names of all variables
are distinct if no name in an annotation is a made one.
-/
theorem let_failures_independent (closed : env.Closed) (apart : NamesDisjoint bindings)
    : ∃ checks s',
        checkBindings env bindings .letStart = .ok checks s'
        ∧ List.Forall₂ (ChecksAlike env s') bindings checks
        ∧ ((∀ name ∈ typeNamesOfBindings bindings, ∀ v, name ≠ Table.madeName v)
          → s'.table.NamesApart)
        ∧ ∀ e,
            .error e ∈ checks
            → ∀ pos body,
                ∃ error,
                  (letIn pos bindings body).typeOf env .empty = .error error s'
                  ∧ error.leaves = checks.flatMap leavesOf := by
  obtain ⟨checks, s', run, _, alike⟩ :=
    checkBindings_alone closed apart State.letStart_wellFormed fun _ _ => rfl
  exact ⟨checks, s', run, alike, namesApart_of_unmade closed run, fun _ failed =>
    typeOf_letIn_of_failed run failed⟩

/-- A procedure without written types in a place for a boolean. -/
def unnamedFailure : Declaration × Expr :=
  (⟨⟨"a", none⟩, .atomic none .boolean⟩,
    .lambda none [⟨⟨"x", none⟩, .missing⟩, ⟨⟨"y", none⟩, .missing⟩] .missing
      [.var none ⟨"x", none⟩])

def passingBinding : Declaration × Expr := (⟨⟨"b", none⟩, .missing⟩, .boolean none true)

/-- A procedure with a written type variable in a place for a boolean. -/
def namedFailure (name : String) : Declaration × Expr :=
  (⟨⟨"c", none⟩, .atomic none .boolean⟩,
    .lambda none [⟨⟨"x", none⟩, .named none name⟩, ⟨⟨"y", none⟩, .missing⟩] (.atomic none .boolean)
      [.boolean none true])

def mixedBindings : List (Declaration × Expr) := [unnamedFailure, passingBinding, namedFailure "U"]

/-- A name that begins with another letter is not a made one. -/
theorem ne_madeName {name : String} (isOther : name.toList.head? ≠ some 'T') (v : Nat)
    : name ≠ Table.madeName v := by
  rintro rfl
  simp [Table.madeName] at isOther

/-- Of three bindings the first and the third fail. The type in the error of the third is shown with
another made name when it stands behind the others than when it stands alone.
-/
theorem let_failures_independent_mixed
    : NamesDisjoint mixedBindings
      ∧ ∃ e₁ s₁ e₃ s₃ part₁ part₃ s',
          (∀ body, (letIn none [unnamedFailure] body).typeOf .empty .empty = .error e₁ s₁)
          ∧ (∀ body, (letIn none [namedFailure "U"] body).typeOf .empty .empty = .error e₃ s₃)
          ∧ (∀ body,
              ∃ error,
                (letIn none mixedBindings body).typeOf .empty .empty = .error error s'
                ∧ error.leaves = part₁ ++ part₃)
          ∧ e₃.leaves.map TypeError.message
            = ["incompatible type structures: expected `boolean`, found `(U * T_1 -> boolean)`"]
          ∧ part₃.map TypeError.message
            = ["incompatible type structures: expected `boolean`, found `(U * T_5 -> boolean)`"]
          ∧ TypeError.RenamesTo e₁.leaves part₁
          ∧ TypeError.RenamesTo part₁ e₁.leaves
          ∧ TypeError.RenamesTo e₃.leaves part₃
          ∧ TypeError.RenamesTo part₃ e₃.leaves := by
  have disjoint : NamesDisjoint mixedBindings := by decide +kernel
  have names : ∀ name ∈ typeNamesOfBindings mixedBindings, name.toList.head? ≠ some 'T' := by
    decide +kernel
  have unmade {binding : Declaration × Expr} (member : binding ∈ mixedBindings) name
      (isName : name ∈ bindingNames binding) :=
    ne_madeName (names name (mem_typeNamesOfBindings.mpr ⟨binding, member, isName⟩))
  have checked
      : SucceededWith
          (fun checks _ =>
            checks.map (fun check => (leavesOf check).map TypeError.message)
            = [["incompatible type structures: expected `boolean`, found `(T_0 * T_1 -> T_0)`"], [],
                ["incompatible type structures: expected `boolean`, found `(U * T_5 -> boolean)`"]])
          (checkBindings .empty mixedBindings .letStart) := by
    decide +kernel
  have alone
      : FailedWith
          (fun e =>
            e.leaves.map TypeError.message
            = ["incompatible type structures: expected `boolean`, found `(U * T_1 -> boolean)`"])
          ((letIn none [namedFailure "U"] []).typeOf .empty .empty) := by
    decide +kernel
  obtain ⟨checks, s', run, texts⟩ := checked.exists_ok
  obtain ⟨e₃, s₃, failedAlone, text⟩ := alone.exists_error
  have closed : Environment.Closed .empty := nofun
  have noNames : Environment.Unmade .empty := by
    rintro _ ⟨_, _, ⟨⟩, _⟩
  obtain ⟨_, _, again, alike, apart, failed⟩ := let_failures_independent closed disjoint
  rw [run] at again
  cases again
  have apart' := apart fun name isName => ne_madeName (names name isName)
  obtain - | ⟨first, - | ⟨second, - | ⟨third, ⟨⟩⟩⟩⟩ := alike
  simp only [List.map_cons, List.map_nil, List.cons.injEq, and_true] at texts
  obtain ⟨texts₁, texts₂, texts₃⟩ := texts
  obtain - | ⟨alone₁, _, _, _, unmade₁, forth₁, back₁⟩ := first
  · cases texts₁
  obtain - | ⟨alone₃, _, _, _, unmade₃, forth₃, back₃⟩ := third
  · cases texts₃
  rw [alone₃] at failedAlone
  cases failedAlone
  refine ⟨disjoint, _, _, _, _, _, _, s', alone₁ none, alone₃ none, fun body => ?_, text, texts₃,
    forth₁ noNames (unmade₁ (unmade (.head _))), back₁ noNames apart',
    forth₃ noNames (unmade₃ (unmade (by simp [mixedBindings]))), back₃ noNames apart'⟩
  obtain ⟨error, ends, leaves⟩ := failed _ (.head _) none body
  refine ⟨error, ends, leaves.trans ?_⟩
  rw [List.flatMap_cons, List.flatMap_cons, List.map_eq_nil_iff.mp texts₂, List.flatMap_singleton,
    List.nil_append]
  rfl

/-- The name written in the second binding is the one made for its other variable if it stands
alone, but not if it stands behind the first one.
-/
theorem let_failures_not_renamed_takenName
    : NamesDisjoint [passingBinding, namedFailure "T_1"]
      ∧ ∃ bound s₁ e₂ s₂ error s',
          checkBindings .empty [passingBinding] .letStart = .ok [.ok bound] s₁
          ∧ (letIn none [namedFailure "T_1"] [.boolean none true]).typeOf .empty .empty
            = .error e₂ s₂
          ∧ (letIn none [passingBinding, namedFailure "T_1"] [.boolean none true]).typeOf .empty
              .empty
            = .error error s'
          ∧ ¬ TypeError.RenamesTo e₂.leaves error.leaves := by
  have alone
      : FailedWith
          (fun e =>
            e.leaves.map TypeError.clash?
            = [some (none, .atomic .boolean,
                .procedure [.named "T_1", .named "T_1"] (.atomic .boolean))])
          ((letIn none [namedFailure "T_1"] [.boolean none true]).typeOf .empty .empty) := by
    decide +kernel
  have behind
      : FailedWith
          (fun e =>
            e.leaves.map TypeError.clash?
            = [some (none, .atomic .boolean,
                .procedure [.named "T_1", .named "T_2"] (.atomic .boolean))])
          ((letIn none [passingBinding, namedFailure "T_1"] [.boolean none true]).typeOf .empty
            .empty) := by
    decide +kernel
  obtain ⟨e₂, s₂, failed₂, clash₂⟩ := alone.exists_error
  obtain ⟨error, s', failed, clash⟩ := behind.exists_error
  refine ⟨by decide +kernel, _, _, e₂, s₂, error, s', rfl, failed₂, failed, ?_⟩
  rintro ⟨ρ, renamed⟩
  obtain ⟨leaf₂, leaves₂, clash₂⟩ := List.map_eq_singleton_iff.mp clash₂
  obtain ⟨leaf, leaves, clash⟩ := List.map_eq_singleton_iff.mp clash
  rw [leaves₂, leaves, TypeError.eq_mismatch_of_clash? clash₂,
    TypeError.eq_mismatch_of_clash? clash] at renamed
  obtain ⟨⟨first, second⟩, _⟩
      : (ρ "T_1" = "T_1" ∧ ρ "T_1" = "T_2") ∧ leaf₂.pos = leaf.pos := by
    simpa [TypeError.rename, Ty.rename, Ty.renameAll] using renamed
  exact absurd (first.symm.trans second) (by decide)

end Expr

end TypedScheme
