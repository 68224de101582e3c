import TypedScheme.Proofs.Inference.Clashes
import TypedScheme.Proofs.Inference.Relocation

/-! Names in written types and the variables they are converted to.
In every state that a run leads to, each name has a variable of its own, which carries the name, and
no other variable carries one. So a written type can be read off its conversion. Main statement: two
conversions of a type agree where it has a name, whatever was done between them, and a conversion
whose names stand for nothing yet is shown as the written type with a new variable in place of each
wildcard.
-/

namespace TypedScheme

-----------------------------------------------------------------------------------------
-- Places in types
-----------------------------------------------------------------------------------------

/-- A step from a procedure type to one of its parts. -/
inductive Turn where
  | param (index : Nat)
  | result

/-- What stands in a written type at the end of a path. -/
def Ty.at? : List Turn → Ty → Option Ty
  | [], ty => some ty
  | .param i :: path, .procedure params _ => params[i]?.bind (at? path)
  | .result :: path, .procedure _ result => at? path result
  | _ :: _, _ => none

/-- What stands in an open type at the end of a path. -/
def OpenTy.at? : List Turn → OpenTy → Option OpenTy
  | [], ty => some ty
  | .param i :: path, .procedure params _ => params[i]?.bind (at? path)
  | .result :: path, .procedure _ result => at? path result
  | _ :: _, _ => none

namespace Ty

mutual
/-- The written type with types in place of its wildcards, taken from the left, and the types left
over. There may be too few of them.
-/
def fill : Ty → List Ty → Option (Ty × List Ty)
  | .atomic a, tys => some (.atomic a, tys)
  | .named name, tys => some (.named name, tys)
  | .wildcard, [] => none
  | .wildcard, ty :: tys => some (ty, tys)
  | .procedure params result, tys => do
      let (params, tys) ← fillAll params tys
      let (result, tys) ← fill result tys
      return (.procedure params result, tys)

def fillAll : List Ty → List Ty → Option (List Ty × List Ty)
  | [], tys => some ([], tys)
  | part :: parts, tys => do
      let (part, tys) ← fill part tys
      let (parts, tys) ← fillAll parts tys
      return (part :: parts, tys)
end

example
    : fill (.procedure [.wildcard, .named "T"] (.procedure [] .wildcard))
        [.atomic .number, .named "S", .atomic .void]
      = some (.procedure [.atomic .number, .named "T"] (.procedure [] (.named "S")),
          [.atomic .void]) := by
  decide

/-- A procedure type is filled from its parameters to its result. -/
theorem fill_procedure {params params' : List Ty} {result result' : Ty} {tys tys' rest : List Ty}
    (filledParams : fillAll params tys = some (params', tys'))
    (filledResult : fill result tys' = some (result', rest))
    : fill (.procedure params result) tys = some (.procedure params' result', rest) := by
  simp [fill, filledParams, filledResult]

/-- Several types are filled one after the other. -/
theorem fillAll_cons {part part' : Ty} {parts parts' tys tys' rest : List Ty}
    (filledPart : fill part tys = some (part', tys'))
    (filledParts : fillAll parts tys' = some (parts', rest))
    : fillAll (part :: parts) tys = some (part' :: parts', rest) := by
  simp [fillAll, filledPart, filledParts]

end Ty

-----------------------------------------------------------------------------------------
-- Conversions
-----------------------------------------------------------------------------------------

namespace State

mutual
/-- The open type is the written one with the variable of each name in place of the name and with
the listed variables, from left to right, in place of the wildcards.
-/
inductive Opens (s : State) : Ty → List Nat → OpenTy → Prop
  | atomic (a : Atomic) : Opens s (.atomic a) [] (.atomic a)
  | named {name : String} {v : Nat} (known : s.names.lookup name = some v)
    : Opens s (.named name) [] (.var v)
  | wildcard (v : Nat) : Opens s .wildcard [v] (.var v)
  | procedure {params : List Ty} {result : Ty} {vs ws : List Nat} {us : List OpenTy} {u : OpenTy}
      (ofParams : OpensAll s params vs us) (ofResult : Opens s result ws u)
    : Opens s (.procedure params result) (vs ++ ws) (.procedure us u)

inductive OpensAll (s : State) : List Ty → List Nat → List OpenTy → Prop
  | nil : OpensAll s [] [] []
  | cons {ty : Ty} {tys : List Ty} {vs ws : List Nat} {u : OpenTy} {us : List OpenTy}
      (first : Opens s ty vs u) (rest : OpensAll s tys ws us)
    : OpensAll s (ty :: tys) (vs ++ ws) (u :: us)
end

mutual
/-- A later state knows the names by the same variables. -/
theorem Opens.mono {s s' : State} (later : s.Extends s') {ty : Ty} {vs : List Nat} {u : OpenTy}
    : s.Opens ty vs u → s'.Opens ty vs u
  | .atomic a => .atomic a
  | .named known => .named (later.names known)
  | .wildcard v => .wildcard v
  | .procedure ofParams ofResult => .procedure (ofParams.mono later) (ofResult.mono later)

/-- Types stay opened in every later state. -/
theorem OpensAll.mono {s s' : State} (later : s.Extends s') {tys : List Ty} {vs : List Nat}
    {us : List OpenTy}
    : s.OpensAll tys vs us → s'.OpensAll tys vs us
  | .nil => .nil
  | .cons first rest => .cons (first.mono later) (rest.mono later)
end

/-- Each of several types that are opened is opened. -/
theorem OpensAll.exists_getElem? {s : State} {tys : List Ty} {vs : List Nat} {us : List OpenTy}
    {i : Nat} {ty : Ty}
    : s.OpensAll tys vs us → tys[i]? = some ty → ∃ ws u, us[i]? = some u ∧ s.Opens ty ws u
  | .nil, found => by simp at found
  | .cons first rest, found => by
      cases i with
      | zero =>
          cases found
          exact ⟨_, _, rfl, first⟩
      | succ i => exact rest.exists_getElem? found

/-- Where the written type has a name the open one has its variable, by induction on the path. -/
theorem Opens.at?_named {s : State} {ty : Ty} {vs : List Nat} {u : OpenTy} {path : List Turn}
    {name : String} (opens : s.Opens ty vs u) (stands : ty.at? path = some (.named name))
    : ∃ v, u.at? path = some (.var v) ∧ s.names.lookup name = some v := by
  induction path generalizing ty vs u with
  | nil =>
      cases stands
      cases opens with
      | named known => exact ⟨_, rfl, known⟩
  | cons turn path ih =>
      cases opens with
      | atomic | named | wildcard => cases turn <;> cases stands
      | procedure ofParams ofResult =>
          cases turn with
          | param i =>
              obtain ⟨param, found, inside⟩ := Option.bind_eq_some_iff.mp stands
              obtain ⟨ws, u, found', ofParam⟩ := ofParams.exists_getElem? found
              obtain ⟨v, isVar, known⟩ := ih ofParam inside
              exact ⟨v, Option.bind_eq_some_iff.mpr ⟨u, found', isVar⟩, known⟩
          | result => exact ih ofResult stands

mutual
/-- Where every name is shown as itself, the open type is shown as the written one with the
wildcards replaced.
-/
theorem Opens.fill {s : State} {t : Table} {ty : Ty} {vs : List Nat} {u : OpenTy} (rest : List Ty)
    (shown : ∀ name ∈ ty.names, ∀ v, s.names.lookup name = some v → t.toTy (.var v) = .named name)
    : s.Opens ty vs u
      → ty.fill ((vs.map fun v => t.toTy (.var v)) ++ rest) = some (t.toTy u, rest)
  | .atomic a => rfl
  | .named known => by
      rw [shown _ (by simp [Ty.names]) _ known]
      rfl
  | .wildcard v => rfl
  | .procedure ofParams ofResult => by
      rw [List.map_append, List.append_assoc, Table.toTy_procedure]
      refine Ty.fill_procedure (ofParams.fillAll _ fun name member => shown name ?_)
        (ofResult.fill rest fun name member => shown name ?_)
      · exact List.mem_append_left _ member
      · exact List.mem_append_right _ member

/-- Opened types are shown as the written ones with the shown variables in place of their wildcards,
provided that their names are shown as themselves.
-/
theorem OpensAll.fillAll {s : State} {t : Table} {tys : List Ty} {vs : List Nat}
    {us : List OpenTy} (rest : List Ty)
    (shown
      : ∀ name ∈ Ty.namesOfAll tys, ∀ v,
          s.names.lookup name = some v → t.toTy (.var v) = .named name)
    : s.OpensAll tys vs us
      → Ty.fillAll tys ((vs.map fun v => t.toTy (.var v)) ++ rest) = some (us.map t.toTy, rest)
  | .nil => rfl
  | .cons first others => by
      rw [List.map_append, List.append_assoc]
      refine Ty.fillAll_cons (first.fill _ fun name member => shown name ?_)
        (others.fillAll rest fun name member => shown name ?_)
      · exact List.mem_append_left _ member
      · exact List.mem_append_right _ member
end

-----------------------------------------------------------------------------------------
-- What a conversion does
-----------------------------------------------------------------------------------------

/-- The variables are listed in ascending order, were not there in the first state, and are there in
the second one, unnamed.
-/
structure NewVars (s s' : State) (vs : List Nat) : Prop where
  ascending : vs.Pairwise (· < ·)
  absent : ∀ v ∈ vs, s.table.size ≤ v
  allocated : ∀ v ∈ vs, v < s'.table.size
  unnamed : ∀ v ∈ vs, s'.table.name? v = none

/-- No variable is new between any two states. -/
theorem newVars_nil (s s' : State) : s.NewVars s' [] := by
  constructor <;> simp

/-- A fresh variable is new. -/
theorem newVars_fresh (s : State) : s.NewVars s.fresh.2 [s.table.size] where
  ascending := by simp
  absent := by simp
  allocated := by simp
  unnamed := by simp [Table.name?_allocate]

/-- The new variables of two steps are those of the whole. -/
theorem NewVars.append {s s₁ s' : State} {vs ws : List Nat} (first : s.NewVars s₁ vs)
    (second : s₁.NewVars s' ws) (earlier : s.Extends s₁) (later : s₁.Extends s')
    : s.NewVars s' (vs ++ ws) where
  ascending := by
    refine List.pairwise_append.mpr ⟨first.ascending, second.ascending, ?_⟩
    intro v inFirst w inSecond
    exact Nat.lt_of_lt_of_le (first.allocated v inFirst) (second.absent w inSecond)
  absent := List.forall_mem_append.mpr
    ⟨first.absent, fun v inSecond => Nat.le_trans earlier.table.size (second.absent v inSecond)⟩
  allocated := List.forall_mem_append.mpr
    ⟨fun v inFirst => Nat.lt_of_lt_of_le (first.allocated v inFirst) later.table.size,
      second.allocated⟩
  unnamed := by
    refine List.forall_mem_append.mpr ⟨?_, second.unnamed⟩
    intro v inFirst
    rw [later.table.named (first.allocated v inFirst)]
    exact first.unnamed v inFirst

/-- A conversion keeps what there was in a well-formed state. -/
theorem convert_extends {s : State} (wf : s.WellFormed) (ty : Ty)
    : (s.convert ty).2.WellFormed ∧ s.Extends (s.convert ty).2 :=
  State.Moves.wellFormed_extends (Infer.onlyMoves_convert ty s) wf

/-- So do conversions one after the other. -/
theorem convertAll_extends {s : State} (wf : s.WellFormed) (tys : List Ty)
    : (s.convertAll tys).2.WellFormed ∧ s.Extends (s.convertAll tys).2 :=
  State.Moves.wellFormed_extends (Infer.onlyMoves_convertAll tys s) wf

mutual
/-- A conversion puts a new variable in place of each wildcard, and they come in ascending order
because the parts are converted from left to right.
-/
theorem convert_opens {s : State} (wf : s.WellFormed)
    : (ty : Ty)
      → ∃ vs, s.NewVars (s.convert ty).2 vs ∧ (s.convert ty).2.Opens ty vs (s.convert ty).1
  | .atomic a => ⟨[], newVars_nil s s, .atomic a⟩
  | .named name => by
      obtain ⟨v, isVar, known⟩ := s.lookup_named name
      refine ⟨[], newVars_nil s _, ?_⟩
      rw [convert, isVar]
      exact .named known
  | .wildcard => ⟨[s.table.size], newVars_fresh s, .wildcard _⟩
  | .procedure params result => by
      obtain ⟨wf₁, earlier⟩ := convertAll_extends wf params
      obtain ⟨_, later⟩ := convert_extends wf₁ result
      obtain ⟨vs, inParams, ofParams⟩ := convertAll_opens wf params
      obtain ⟨ws, inResult, ofResult⟩ := convert_opens wf₁ result
      exact ⟨vs ++ ws, inParams.append inResult earlier later,
        .procedure (ofParams.mono later) ofResult⟩

/-- Converted types are opened, with new variables for their wildcards. -/
theorem convertAll_opens {s : State} (wf : s.WellFormed)
    : (tys : List Ty)
      → ∃ vs,
          s.NewVars (s.convertAll tys).2 vs
          ∧ (s.convertAll tys).2.OpensAll tys vs (s.convertAll tys).1
  | [] => ⟨[], newVars_nil s s, .nil⟩
  | ty :: tys => by
      obtain ⟨wf₁, earlier⟩ := convert_extends wf ty
      obtain ⟨_, later⟩ := convertAll_extends wf₁ tys
      obtain ⟨vs, inFirst, ofFirst⟩ := convert_opens wf ty
      obtain ⟨ws, inRest, ofRest⟩ := convertAll_opens wf₁ tys
      exact ⟨vs ++ ws, inFirst.append inRest earlier later, .cons (ofFirst.mono later) ofRest⟩
end

/-- Meeting a name binds nothing. -/
theorem binding?_named (s : State) (name : String) (v : Nat)
    : (s.named name).2.table.binding? v = s.table.binding? v := by
  cases known : s.names.lookup name with
  | some w => rw [named_of_known known]
  | none =>
      rw [named_eq_of_unknown known]
      exact Table.binding?_allocate s.table (some name) v

mutual
/-- A conversion binds nothing. -/
theorem binding?_convert (s : State) (v : Nat)
    : (ty : Ty) → (s.convert ty).2.table.binding? v = s.table.binding? v
  | .atomic _ => rfl
  | .named name => s.binding?_named name v
  | .wildcard => Table.binding?_allocate s.table none v
  | .procedure params result =>
      (binding?_convert (s.convertAll params).2 v result).trans (binding?_convertAll s v params)

/-- Converting types binds nothing. -/
theorem binding?_convertAll (s : State) (v : Nat)
    : (tys : List Ty) → (s.convertAll tys).2.table.binding? v = s.table.binding? v
  | [] => rfl
  | ty :: tys => (binding?_convertAll (s.convert ty).2 v tys).trans (binding?_convert s v ty)
end

end State

-----------------------------------------------------------------------------------------
-- Names in runs
-----------------------------------------------------------------------------------------

namespace Session

variable {session session' : Session}

/-- No change of a session parts the names from the table. -/
theorem Change.namesMatch (change : Change session session') (wf : session.state.WellFormed)
    (matching : session.state.NamesMatch)
    : session'.state.NamesMatch := by
  cases change with
  | moves moves => exact moves.preserves State.Move.namesMatch wf matching
  | binds binds => exact matching.of_eq rfl binds.name?_eq
  | snapshot => exact matching
  | commit => exact matching
  | rollback s mark => exact matching.of_eq rfl (s.table.name?_rollback mark)

/-- Nothing that is done to a session gives a name another variable, not even a rollback. -/
theorem Change.lookup_names (change : Change session session') (wf : session.state.WellFormed)
    {name : String} {v : Nat} (known : session.state.names.lookup name = some v)
    : session'.state.names.lookup name = some v := by
  cases change with
  | moves moves => exact (moves.wellFormed_extends wf).2.names known
  | binds | snapshot | commit | rollback => exact known

end Session

namespace State

/-- The names of every state that can be reached are those of its table. -/
theorem Reachable.namesMatch {s : State} (reachable : s.Reachable) : s.NamesMatch := by
  obtain ⟨ops, marks, ran⟩ := reachable
  exact (Session.run_preserves (P := fun session => session.state.NamesMatch)
    (fun wf matching change => change.namesMatch wf matching) empty_wellFormed empty_namesMatch
    ran).2

/-- The names of a type that is converted twice get the same variables, whatever the run between the
conversions does.
-/
theorem convert_again {s : State} (wf : s.WellFormed) {ty : Ty} {marks : List Snapshot}
    {ops : List Operation} {later : Session}
    (ran : Session.run ⟨(s.convert ty).2, marks⟩ ops = some later) {path : List Turn}
    {name : String} (stands : ty.at? path = some (.named name))
    : ∃ v,
        (s.convert ty).2.names.lookup name = some v
        ∧ (s.convert ty).1.at? path = some (.var v)
        ∧ (later.state.convert ty).1.at? path = some (.var v) := by
  obtain ⟨vs, _, opens⟩ := convert_opens wf ty
  obtain ⟨v, isVar, known⟩ := opens.at?_named stands
  obtain ⟨wfLater, knownLater⟩ := Session.run_preserves
    (P := fun session => session.state.names.lookup name = some v)
    (fun wf known change => change.lookup_names wf known) (convert_extends wf ty).1 known ran
  obtain ⟨ws, _, opensAgain⟩ := convert_opens wfLater ty
  obtain ⟨w, isVarAgain, knownAgain⟩ := opensAgain.at?_named stands
  have same : v = w := by
    rw [(convert_extends wfLater ty).2.names knownLater] at knownAgain
    exact Option.some.inj knownAgain
  exact ⟨v, known, isVar, same ▸ isVarAgain⟩

-----------------------------------------------------------------------------------------
-- Showing a conversion
-----------------------------------------------------------------------------------------

/-- A known name whose variable is unbound is shown as itself. -/
theorem NamesMatch.toTy_var {s : State} (matching : s.NamesMatch) {name : String} {v : Nat}
    (known : s.names.lookup name = some v) (unbound : s.table.binding? v = none)
    : s.table.toTy (.var v) = .named name := by
  rw [Table.toTy_unbound unbound, Table.nameOf_eq, (matching name v).mp known, Option.getD_some]

/-- Only a variable that was allocated for the made name of an unnamed one is printed like it. -/
theorem NamesMatch.known_of_nameOf_eq {s : State} (matching : s.NamesMatch) {v w : Nat}
    (unnamed : s.table.name? v = none) (same : s.table.nameOf w = s.table.nameOf v)
    : w = v ∨ s.names.lookup (s.table.nameOf v) = some w := by
  rw [Table.nameOf_eq, Table.nameOf_eq, unnamed] at same
  rw [Table.nameOf_eq, unnamed]
  cases named : s.table.name? w with
  | none =>
      rw [named] at same
      exact .inl (Table.madeName_injective same)
  | some name =>
      rw [named] at same
      rw [← same, matching]
      exact .inr named

/-- After a conversion the names are still those of the table. -/
theorem convert_namesMatch {s : State} (wf : s.WellFormed) (matching : s.NamesMatch) (ty : Ty)
    : (s.convert ty).2.NamesMatch :=
  Moves.preserves (Infer.onlyMoves_convert ty s) Move.namesMatch wf matching

/-- After a conversion a name leads to the variable it had or to a new one, which is unbound. -/
theorem unbound_after_convert {s : State} (wf : s.WellFormed) (matching : s.NamesMatch) {ty : Ty}
    {name : String} {v : Nat}
    (unbound : ∀ v, s.names.lookup name = some v → s.table.binding? v = none)
    (known : (s.convert ty).2.names.lookup name = some v)
    : (s.convert ty).2.table.binding? v = none := by
  rw [binding?_convert]
  by_cases inside : v < s.table.size
  · have named := (convert_namesMatch wf matching ty name v).mp known
    rw [(convert_extends wf ty).2.table.named inside] at named
    exact unbound v ((matching name v).mpr named)
  · exact Table.binding?_of_size_le (Nat.le_of_not_lt inside)

/-- A type whose names stand for nothing is shown as it was written, with the printed names of the
new variables in place of its wildcards.
-/
theorem fill_convert {s : State} (wf : s.WellFormed) (matching : s.NamesMatch) {ty : Ty}
    {vs : List Nat} (new : s.NewVars (s.convert ty).2 vs)
    (opens : (s.convert ty).2.Opens ty vs (s.convert ty).1)
    (unbound : ∀ name ∈ ty.names, ∀ v, s.names.lookup name = some v → s.table.binding? v = none)
    : ty.fill (vs.map fun v => .named ((s.convert ty).2.table.nameOf v))
      = some ((s.convert ty).2.table.toTy (s.convert ty).1, []) := by
  have filled := opens.fill (t := (s.convert ty).2.table) [] fun name member v known =>
    (convert_namesMatch wf matching ty).toTy_var known
      (unbound_after_convert wf matching (unbound name member) known)
  rw [List.append_nil] at filled
  rw [← filled]
  refine congrArg ty.fill (List.map_congr_left fun v member => ?_)
  refine (Table.toTy_unbound ?_).symm
  rw [binding?_convert]
  exact Table.binding?_of_size_le (new.absent v member)

/-- A converted type has no variable from elsewhere. -/
theorem stray?_convert {s : State} (wf : s.WellFormed) (ty : Ty)
    : (s.convert ty).2.table.stray? (s.convert ty).1 = none := by
  have holds := (Infer.gives_convert (E := fun _ _ => False) ty s wf).value rfl
  exact (convert_extends wf ty).1.table.toGrounded.stray?_eq_none holds.below

/-- In every state that a run leads to, different names have different variables, the variable of a
name is in the table and carries the name, and a variable that carries a name is the one that the
name leads to. The conversion of a written type can always be shown. A second one, after whatever
run, has the same variables where the type has names. The wildcards become, from left to right, new
variables that are distinct; another variable is printed like one of them only if it was allocated
for that name. If the names of the type stand for nothing yet, the conversion is shown as the type
with these variables in place of its wildcards.
-/
theorem conversion_lossless {s : State} (reachable : s.Reachable)
    : (∀ name other v,
        s.names.lookup name = some v → s.names.lookup other = some v → name = other)
      ∧ (∀ name v,
          s.names.lookup name = some v → v < s.table.size ∧ s.table.name? v = some name)
      ∧ (∀ name v, s.table.name? v = some name → s.names.lookup name = some v)
      ∧ ∀ ty first s',
          s.convert ty = (first, s')
          → s'.table.stray? first = none
            ∧ (∀ marks ops later second s'',
                Session.run ⟨s', marks⟩ ops = some later
                → later.state.convert ty = (second, s'')
                → ∀ path name,
                    ty.at? path = some (.named name)
                    → ∃ v,
                        s'.names.lookup name = some v
                        ∧ first.at? path = some (.var v)
                        ∧ second.at? path = some (.var v))
            ∧ ∃ vs,
                s.NewVars s' vs
                ∧ s'.Opens ty vs first
                ∧ (∀ v ∈ vs, ∀ w,
                    s'.table.nameOf w = s'.table.nameOf v
                    → w = v ∨ s'.names.lookup (s'.table.nameOf v) = some w)
                ∧ ((∀ name ∈ ty.names, ∀ v,
                      s.names.lookup name = some v → s.table.binding? v = none)
                    → ty.fill (vs.map fun v => .named (s'.table.nameOf v))
                      = some (s'.table.toTy first, [])) := by
  have wf := reachable.wellFormed
  have matching := reachable.namesMatch
  refine ⟨?_, ?_, fun name v => (matching name v).mpr, ?_⟩
  · intro name other v known knownOther
    have carried := (matching name v).mp known
    rw [(matching other v).mp knownOther] at carried
    exact (Option.some.inj carried).symm
  · intro name v known
    exact ⟨wf.named known, (matching name v).mp known⟩
  · intro ty first s' converted
    obtain ⟨rfl, rfl⟩ := Prod.ext_iff.mp converted
    refine ⟨stray?_convert wf ty, ?_, ?_⟩
    · intro marks ops later second s'' ran convertedAgain path name stands
      obtain ⟨rfl, rfl⟩ := Prod.ext_iff.mp convertedAgain
      exact convert_again wf ran stands
    · obtain ⟨vs, new, opens⟩ := convert_opens wf ty
      refine ⟨vs, new, opens, ?_, fill_convert wf matching new opens⟩
      intro v member w same
      exact (convert_namesMatch wf matching ty).known_of_nameOf_eq (new.unnamed v member) same

/-- A name, a variable that stands for numbers, and an open snapshot. -/
def numberedNameRun : List Operation :=
  [.named "S", .fresh, .snapshot, .bareTypes (.var 1) (.atomic .number)]

/-- The name is bound and released by the rollback, and another one is met. -/
def releasingRun : List Operation :=
  [.bareTypes (.var 0) (.atomic .void), .rollback, .named "R"]

def nestedAnnotation : Ty :=
  .procedure [.named "S", .wildcard, .named "T"] (.procedure [.wildcard] (.named "S"))

/-- A name met before and one that is new, wildcards at two depths, and a rollback between two
conversions.
-/
theorem conversion_lossless_nestedAnnotation
    : ∃ s marks first s' later second s'',
        Session.start.run numberedNameRun = some ⟨s, marks⟩
        ∧ s.convert nestedAnnotation = (first, s')
        ∧ Session.run ⟨s', marks⟩ releasingRun = some later
        ∧ later.state.convert nestedAnnotation = (second, s'')
        ∧ first ≠ second
        ∧ (∃ v,
            s'.names.lookup "S" = some v
            ∧ first.at? [.result, .result] = some (.var v)
            ∧ second.at? [.result, .result] = some (.var v))
        ∧ (s'.table.toTy first).text = "(S * T_2 * T -> (T_4 -> S))"
        ∧ ∃ vs,
            s.NewVars s' vs
            ∧ nestedAnnotation.fill (vs.map fun v => .named (s'.table.nameOf v))
              = some (s'.table.toTy first, []) := by
  have runs
      : (Session.start.run numberedNameRun).any (fun session =>
          decide
            (session.state.names = [("S", 0)]
              ∧ session.state.table.binding? 0 = none
              ∧ ((session.state.convert nestedAnnotation).2.table.toTy
                  (session.state.convert nestedAnnotation).1).text
                = "(S * T_2 * T -> (T_4 -> S))")
          && (Session.run ⟨(session.state.convert nestedAnnotation).2, session.marks⟩
              releasingRun).any fun later =>
            decide
              ((session.state.convert nestedAnnotation).1
                ≠ (later.state.convert nestedAnnotation).1)) = true := by
    decide +kernel
  obtain ⟨⟨s, marks⟩, ran, both⟩ := (Option.any_eq_true _ _).mp runs
  obtain ⟨atFirst, goesOn⟩ := Bool.and_eq_true_iff.mp both
  obtain ⟨names, unbound, text⟩ := of_decide_eq_true atFirst
  obtain ⟨later, ranOn, differ⟩ := (Option.any_eq_true _ _).mp goesOn
  obtain ⟨_, _, _, conversions⟩ := conversion_lossless ⟨numberedNameRun, marks, ran⟩
  obtain ⟨_, again, vs, new, _, _, shown⟩ := conversions nestedAnnotation _ _ rfl
  have sameVar := again marks releasingRun later _ _ ranOn rfl [.result, .result] "S" rfl
  refine ⟨s, marks, _, _, later, _, _, ran, rfl, ranOn, rfl, of_decide_eq_true differ, sameVar,
    text, vs, new, shown ?_⟩
  intro name _ v known
  have isFirst : v = 0 := by
    rw [names] at known
    by_cases same : name = "S"
    · rw [same, lookup_cons_self] at known
      exact (Option.some.inj known).symm
    · rw [lookup_cons_of_ne same] at known
      cases known
  rw [isFirst]
  exact unbound

end State

end TypedScheme
