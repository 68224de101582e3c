import TypedScheme.Proofs.Inference.VariableNames

/-! The log of an inference can be replayed.
It tells every allocation in order, every binding and every binding undone. A log is replayed by
keeping, for each printed name, the type it stands for: a name is bound only while it stands for
nothing, and undone only while it stands for something. The bindings of a transaction are read off the
trail at its end; they are those that its unification tells when it makes them. Main statement: the
log of every inference is accepted and ends with the bindings of the final table.
-/

namespace TypedScheme

-----------------------------------------------------------------------------------------
-- Replaying a log
-----------------------------------------------------------------------------------------

namespace Event

/-- The variable that was allocated. -/
def allocated? : Event → Option Nat
  | .fresh var | .named var _ => some var
  | _ => none

/-- The printed name of the variable that was bound or whose binding was undone. -/
def subject? : Event → Option String
  | .bound name _ | .undone name => some name
  | _ => none

/-- The types that names stand for after an event, unless it may not happen then. -/
def replay (told : String → Option OpenTy) : Event → Option (String → Option OpenTy)
  | .bound name ty =>
      if told name = none then some (Function.update told name (some ty)) else none
  | .undone name => if told name = none then none else some (Function.update told name none)
  | _ => some told

variable {told told' : String → Option OpenTy} {name : String}

/-- A name can be bound while it stands for nothing, and stands for the type from then on. -/
theorem replay_bound_eq_some {ty : OpenTy}
    : replay told (.bound name ty) = some told'
      ↔ told name = none ∧ Function.update told name (some ty) = told' := by
  simp [replay]

/-- A name can be undone while it stands for a type, and stands for nothing from then on. -/
theorem replay_undone_eq_some
    : replay told (.undone name) = some told'
      ↔ told name ≠ none ∧ Function.update told name none = told' := by
  simp [replay]

/-- An event about another name leaves the name as it is. -/
theorem replay_of_other {event : Event} (replayed : event.replay told = some told')
    (other : event.subject? ≠ some name)
    : told' name = told name := by
  cases event with
  | bound subject ty =>
      obtain ⟨_, rfl⟩ := replay_bound_eq_some.mp replayed
      exact Function.update_of_ne (fun same => other (congrArg some same.symm)) _ _
  | undone subject =>
      obtain ⟨_, rfl⟩ := replay_undone_eq_some.mp replayed
      exact Function.update_of_ne (fun same => other (congrArg some same.symm)) _ _
  | typing | fresh | named =>
      cases replayed
      rfl

end Event

/-- The types that names stand for after the events of a log. -/
def replayLog (told : String → Option OpenTy) (log : List Event) : Option (String → Option OpenTy) :=
  log.foldlM Event.replay told

section Log

variable {told told' : String → Option OpenTy} {name : String}

/-- A log is replayed from its first event on. -/
theorem replayLog_cons {event : Event} {log : List Event}
    : replayLog told (event :: log) = some told'
      ↔ ∃ between, event.replay told = some between ∧ replayLog between log = some told' := by
  simp [replayLog, Option.bind_eq_some_iff]

/-- Logs put one after the other are replayed one after the other. -/
theorem replayLog_append {log log' : List Event}
    : replayLog told (log ++ log') = some told'
      ↔ ∃ between, replayLog told log = some between ∧ replayLog between log' = some told' := by
  simp [replayLog, List.foldlM_append, Option.bind_eq_some_iff]

/-- A name that no event is about stands for the same type after the log. -/
theorem replayLog_of_others {log : List Event} (replayed : replayLog told log = some told')
    (others : ∀ event ∈ log, event.subject? ≠ some name)
    : told' name = told name := by
  induction log generalizing told with
  | nil =>
      cases replayed
      rfl
  | cons event log ih =>
      obtain ⟨other, rest⟩ := List.forall_mem_cons.mp others
      obtain ⟨between, first, second⟩ := replayLog_cons.mp replayed
      rw [ih second rest, Event.replay_of_other first other]

/-- So does a name that stands for a type and that no event undoes: it may not be bound again. -/
theorem replayLog_of_kept {log : List Event} (replayed : replayLog told log = some told')
    (kept : .undone name ∉ log) (bound : told name ≠ none)
    : told' name = told name := by
  induction log generalizing told with
  | nil =>
      cases replayed
      rfl
  | cons event log ih =>
      obtain ⟨between, first, second⟩ := replayLog_cons.mp replayed
      have same : between name = told name := by
        apply Event.replay_of_other first
        intro about
        cases event with
        | bound subject ty =>
            cases about
            exact bound (Event.replay_bound_eq_some.mp first).1
        | undone subject =>
            cases about
            exact kept (.head _)
        | typing | fresh | named => cases about
      rw [ih second (fun member => kept (.tail _ member)) (same ▸ bound), same]

/-- A name stands for a type after a log because it did before, or because of the last event about it.
The induction is on the log.
-/
theorem exists_bound_of_replayLog {log : List Event} {ty : OpenTy}
    (replayed : replayLog told log = some told') (stands : told' name = some ty)
    : (told name = some ty ∧ ∀ event ∈ log, event.subject? ≠ some name)
      ∨ ∃ before after,
          log = before ++ .bound name ty :: after
          ∧ ∀ event ∈ after, event.subject? ≠ some name := by
  induction log generalizing told with
  | nil =>
      cases replayed
      exact .inl ⟨stands, nofun⟩
  | cons event log ih =>
      obtain ⟨between, first, second⟩ := replayLog_cons.mp replayed
      rcases ih second with ⟨early, others⟩ | ⟨before, after, rfl, others⟩
      · by_cases about : event.subject? = some name
        · cases event with
          | bound subject found =>
              cases about
              obtain ⟨_, rfl⟩ := Event.replay_bound_eq_some.mp first
              rw [Function.update_self] at early
              cases early
              exact .inr ⟨[], log, rfl, others⟩
          | undone subject =>
              cases about
              obtain ⟨_, rfl⟩ := Event.replay_undone_eq_some.mp first
              rw [Function.update_self] at early
              cases early
          | typing | fresh | named => cases about
        · rw [Event.replay_of_other first about] at early
          exact .inl ⟨early, List.forall_mem_cons.mpr ⟨about, others⟩⟩
      · exact .inr ⟨event :: before, after, rfl, others⟩

end Log

-----------------------------------------------------------------------------------------
-- What a log that can be replayed tells of a table
-----------------------------------------------------------------------------------------

namespace Table

/-- The log tells the bindings of the table: read by printed names, a variable is bound again only
after its binding was undone, a binding is undone only while it is there, and the bound variables are
those whose last event is a binding, each to the type of that event.
-/
structure ToldBy (t : Table) (log : List Event) : Prop where
  undoneBetween
    : ∀ name before ty between ty' after,
        log = before ++ .bound name ty :: (between ++ .bound name ty' :: after)
        → .undone name ∈ between
  boundBefore
    : ∀ name before after,
        log = before ++ .undone name :: after
        → ∃ early ty late, before = early ++ .bound name ty :: late ∧ .undone name ∉ late
  lastBound
    : ∀ name ty,
        (∃ v, v < t.size ∧ t.nameOf v = name ∧ t.binding? v = some ty)
        ↔ ∃ before after,
            log = before ++ .bound name ty :: after
            ∧ ∀ event ∈ after, event.subject? ≠ some name

/-- Names stand for the types that their variables are bound to, and no other name for any. -/
structure Matches (t : Table) (told : String → Option OpenTy) : Prop where
  bound : ∀ v, v < t.size → told (t.nameOf v) = t.binding? v
  named : ∀ name ty, told name = some ty → ∃ v, v < t.size ∧ t.nameOf v = name

/-- A name stands for a type exactly if a variable of that name is bound to it. -/
theorem Matches.eq_some_iff {t : Table} {told : String → Option OpenTy} (matching : t.Matches told)
    {name : String} {ty : OpenTy}
    : told name = some ty ↔ ∃ v, v < t.size ∧ t.nameOf v = name ∧ t.binding? v = some ty := by
  constructor
  · intro stands
    obtain ⟨v, inside, rfl⟩ := matching.named name ty stands
    exact ⟨v, inside, rfl, matching.bound v inside ▸ stands⟩
  · rintro ⟨v, inside, rfl, bound⟩
    rw [matching.bound v inside, bound]

/-- A commit changes neither names nor bindings. -/
theorem Matches.commit {t : Table} {told : String → Option OpenTy} (matching : t.Matches told)
    (mark : Snapshot)
    : (t.commit mark).Matches told :=
  ⟨matching.bound, matching.named⟩

/-- A log that is replayed from the beginning tells the bindings of a table that matches its end. -/
theorem Matches.toldBy {t : Table} {told : String → Option OpenTy} (matching : t.Matches told)
    {log : List Event} (replayed : replayLog (fun _ => none) log = some told)
    : t.ToldBy log where
  undoneBetween := by
    rintro name before ty between ty' after rfl
    obtain ⟨_, _, fromFirst⟩ := replayLog_append.mp replayed
    obtain ⟨first, boundFirst, rest⟩ := replayLog_cons.mp fromFirst
    obtain ⟨second, replayedBetween, fromSecond⟩ := replayLog_append.mp rest
    obtain ⟨_, boundSecond, _⟩ := replayLog_cons.mp fromSecond
    obtain ⟨_, rfl⟩ := Event.replay_bound_eq_some.mp boundFirst
    obtain ⟨free, _⟩ := Event.replay_bound_eq_some.mp boundSecond
    by_contra kept
    rw [replayLog_of_kept replayedBetween kept (by simp)] at free
    simp at free
  boundBefore := by
    rintro name before after rfl
    obtain ⟨here, replayedBefore, rest⟩ := replayLog_append.mp replayed
    obtain ⟨_, undone, _⟩ := replayLog_cons.mp rest
    obtain ⟨bound, _⟩ := Event.replay_undone_eq_some.mp undone
    obtain ⟨ty, stands⟩ := Option.ne_none_iff_exists'.mp bound
    rcases exists_bound_of_replayLog replayedBefore stands with
      ⟨impossible, _⟩ | ⟨early, late, split, others⟩
    · cases impossible
    · exact ⟨early, ty, late, split, fun member => others _ member rfl⟩
  lastBound := by
    intro name ty
    rw [← matching.eq_some_iff]
    constructor
    · intro stands
      rcases exists_bound_of_replayLog replayed stands with ⟨impossible, _⟩ | last
      · cases impossible
      · exact last
    · rintro ⟨before, after, rfl, others⟩
      obtain ⟨_, _, rest⟩ := replayLog_append.mp replayed
      obtain ⟨_, bound, replayedAfter⟩ := replayLog_cons.mp rest
      obtain ⟨_, rfl⟩ := Event.replay_bound_eq_some.mp bound
      rw [replayLog_of_others replayedAfter others, Function.update_self]

end Table

-----------------------------------------------------------------------------------------
-- Bindings told when they are made
-----------------------------------------------------------------------------------------

namespace Table

/-- What is told if every binding step of a run tells its event at once, before the next step: the
name of the variable, as it is printed then, and the type that it is bound to.
-/
inductive Tells (t : Table) : List Event → Table → Prop
  | nil : t.Tells [] t
  | bind {events : List Event} {t' : Table} {v : Nat} {ty : OpenTy} (earlier : t.Tells events t')
    (inside : v < t'.size) (unbound : t'.binding? v = none) (passed : t'.occursCheck v ty = .ok ())
    : t.Tells (events ++ [.bound (t'.nameOf v) ty]) (t'.bind v ty)

variable {t t' : Table} {events : List Event}

/-- A run that tells its binding steps consists of them, by induction on the steps. -/
theorem Tells.binds (tells : t.Tells events t') : t.Binds t' := by
  induction tells with
  | nil => exact .refl
  | bind _ inside unbound passed ih => exact ih.tail (.bind inside unbound passed)

/-- Every run of binding steps can tell them, by induction on the steps. -/
theorem Binds.exists_tells (binds : t.Binds t') : ∃ events, t.Tells events t' := by
  induction binds with
  | refl => exact ⟨[], .nil⟩
  | tail _ step ih =>
      obtain ⟨events, earlier⟩ := ih
      cases step with
      | bind inside unbound passed => exact ⟨_, earlier.bind inside unbound passed⟩

/-- One more binding is one more event at the end: the variables bound before have kept their names
and their types.
-/
theorem boundEvents_bind {mark : Snapshot} {v : Nat} (closable : t.canClose mark = true)
    (inside : v < t.size) (new : v ∉ t.boundSince mark) (ty : OpenTy)
    : Infer.boundEvents (t.bind v ty) mark
      = Infer.boundEvents t mark ++ [.bound (t.nameOf v) ty] := by
  have earlier w (member : w ∈ t.boundSince mark) : (t.bind v ty).binding? w = t.binding? w := by
    have other : v ≠ w := fun same => new (same ▸ member)
    rw [binding?_bind inside, if_neg other]
  have last : (t.bind v ty).binding? v = some ty := by
    rw [binding?_bind inside, if_pos rfl]
  rw [Infer.boundEvents, boundSince_bind closable, List.filterMap_append, Infer.boundEvents]
  congr 1
  · apply List.filterMap_congr
    intro w member
    rw [nameOf_bind, earlier w member]
  · rw [List.filterMap_cons_some (by rw [last, nameOf_bind]; rfl), List.filterMap_nil]

/-- The events read off the trail since a snapshot are those told when the bindings were made, by
induction on the binding steps.
-/
theorem Tells.boundEvents_eq (tells : t.snapshot.2.Tells events t')
    : Infer.boundEvents t' t.snapshot.1 = events := by
  induction tells with
  | nil => simp [Infer.boundEvents, boundSince, snapshot]
  | @bind events t' v ty earlier inside unbound _ ih =>
      have new : v ∉ t'.boundSince t.snapshot.1 := by
        intro member
        obtain ⟨_, bound⟩ := earlier.binds.adds.bound v member
        rw [unbound] at bound
        cases bound
      rw [boundEvents_bind (Binds.grows earlier.binds).canClose inside new, ih]

end Table

/-- A transaction appends to the log what its unification tells binding by binding and, if it fails,
the undoing of these bindings.
-/
theorem Infer.transaction_tells {x : Unify Unit} (onlyBinds : x.OnlyBinds) (context : Expr)
    {s : State} (wf : s.table.WellFormed)
    : (∃ t events,
        x s.table.snapshot.2 = .ok () t
        ∧ s.table.snapshot.2.Tells events t
        ∧ transaction x context s
          = .ok () ⟨t.commit s.table.snapshot.1, s.names, s.log.append events.toArray⟩)
      ∨ ∃ e t events,
          x s.table.snapshot.2 = .error e t
          ∧ s.table.snapshot.2.Tells events t
          ∧ transaction x context s
            = .error (e.explain t context) ⟨s.table, s.names,
                s.log.append (events ++ undoneEvents t s.table.snapshot.1).toArray⟩ := by
  rcases State.transaction_cases onlyBinds context wf with
    ⟨t, run, binds, ends⟩ | ⟨e, t, run, binds, ends⟩
  · obtain ⟨events, tells⟩ := binds.exists_tells
    rw [tells.boundEvents_eq] at ends
    exact .inl ⟨t, events, run, tells, ends⟩
  · obtain ⟨events, tells⟩ := binds.exists_tells
    rw [tells.boundEvents_eq] at ends
    exact .inr ⟨e, t, events, run, tells, ends⟩

-----------------------------------------------------------------------------------------
-- The events of a transaction
-----------------------------------------------------------------------------------------

/-- Names that stand for types can be undone one after the other, by induction on the names. -/
theorem replayLog_undone {told : String → Option OpenTy} {names : List String}
    (nodup : names.Nodup) (bound : ∀ name ∈ names, told name ≠ none)
    : replayLog told (names.map .undone)
      = some fun name => if name ∈ names then none else told name := by
  induction names generalizing told with
  | nil => simp [replayLog]
  | cons first names ih =>
      obtain ⟨new, nodup⟩ := List.nodup_cons.mp nodup
      obtain ⟨boundFirst, boundRest⟩ := List.forall_mem_cons.mp bound
      have untouched name (member : name ∈ names)
          : Function.update told first none name ≠ none := by
        have other : name ≠ first := fun same => new (same ▸ member)
        rw [Function.update_of_ne other]
        exact boundRest name member
      refine replayLog_cons.mpr ⟨_, Event.replay_undone_eq_some.mpr ⟨boundFirst, rfl⟩, ?_⟩
      rw [ih nodup untouched]
      congr 1
      funext name
      by_cases same : name = first
      · simp [same]
      · simp [same]

namespace Table

variable {t t' : Table} {told : String → Option OpenTy}

/-- Distinct variables have distinct names, so names are not repeated where variables are not. -/
theorem NamesApart.nodup (apart : t.NamesApart) {vs : List Nat} (nodup : vs.Nodup)
    (inside : ∀ v ∈ vs, v < t.size)
    : (vs.map t.nameOf).Nodup := by
  apply List.Nodup.map_on ?_ nodup
  intro v memberV w memberW same
  exact apart v (inside v memberV) w (inside w memberW) same

/-- After a binding the name of the variable stands for its type. That of no other variable does,
since the names are apart.
-/
theorem Matches.bind (matching : t.Matches told) (apart : t.NamesApart) {v : Nat}
    (inside : v < t.size) (ty : OpenTy)
    : (t.bind v ty).Matches (Function.update told (t.nameOf v) (some ty)) := by
  refine ⟨?_, ?_⟩
  · intro w insideW
    rw [size_bind] at insideW
    rw [nameOf_bind, binding?_bind inside]
    by_cases same : v = w
    · rw [same, Function.update_self, if_pos rfl]
    · have other : t.nameOf w ≠ t.nameOf v := by
        intro alike
        exact same (apart w insideW v inside alike).symm
      rw [Function.update_of_ne other, if_neg same, matching.bound w insideW]
  · intro name found stands
    rw [size_bind]
    by_cases same : name = t.nameOf v
    · exact ⟨v, inside, (nameOf_bind t v ty v).trans same.symm⟩
    · rw [Function.update_of_ne same] at stands
      obtain ⟨w, insideW, named⟩ := matching.named name found stands
      exact ⟨w, insideW, (nameOf_bind t v ty w).trans named⟩

/-- Bindings told when they are made can be replayed, by induction on the binding steps. -/
theorem Matches.replay_tells {events : List Event} (matching : t.Matches told)
    (apart : t.NamesApart) (tells : t.Tells events t')
    : ∃ told', replayLog told events = some told' ∧ t'.Matches told' := by
  induction tells with
  | nil => exact ⟨told, rfl, matching⟩
  | @bind events t' v ty earlier inside unbound _ ih =>
      obtain ⟨between, replayed, matching'⟩ := ih
      have later := earlier.binds
      have apart' : t'.NamesApart :=
        apart.of_named (Nat.le_of_eq later.size) fun w _ => later.name?_eq w
      have free : between (t'.nameOf v) = none := by
        rw [matching'.bound v inside, unbound]
      refine ⟨_, replayLog_append.mpr ⟨between, replayed, ?_⟩, matching'.bind apart' inside ty⟩
      exact replayLog_cons.mpr ⟨_, Event.replay_bound_eq_some.mpr ⟨free, rfl⟩, rfl⟩

/-- Tables that differ in the bindings of some variables are matched by the same types, but for the
names of these variables.
-/
theorem Matches.eq_of_others {told' : String → Option OpenTy} {vs : List Nat}
    (matching : t.Matches told) (matching' : t'.Matches told') (size : t'.size = t.size)
    (names : t'.nameOf = t.nameOf) (others : ∀ v, v ∉ vs → t'.binding? v = t.binding? v)
    {name : String} (untouched : name ∉ vs.map t.nameOf)
    : told' name = told name := by
  apply Option.ext
  intro ty
  have same v (named : t.nameOf v = name) : t'.binding? v = t.binding? v :=
    others v fun member => untouched (named ▸ List.mem_map_of_mem member)
  rw [matching.eq_some_iff, matching'.eq_some_iff, size, names]
  refine exists_congr fun v => and_congr_right fun _ => and_congr_right fun named => ?_
  rw [same v named]

/-- The bindings made since a snapshot can be undone, and then names stand for what they stood for
before.
-/
theorem Matches.replay_undone {told' : String → Option OpenTy} (matching : t.Matches told)
    (matching' : t'.Matches told') (apart : t.NamesApart) (binds : t.snapshot.2.Binds t')
    : replayLog told' (Infer.undoneEvents t' t.snapshot.1) = some told := by
  have adds := binds.adds
  have size : t'.size = t.size := binds.size
  have sameNames v := Binds.nameOf_eq binds v
  have names : t'.nameOf = t.nameOf := funext sameNames
  have events
      : Infer.undoneEvents t' t.snapshot.1
        = ((t'.boundSince t.snapshot.1).map t.nameOf).map .undone := by
    rw [Infer.undoneEvents, List.map_map, names]
    rfl
  rw [events]
  generalize t'.boundSince t.snapshot.1 = vs at adds
  have inside := size ▸ adds.lt_size
  have bound name (member : name ∈ vs.map t.nameOf) : told' name ≠ none := by
    obtain ⟨v, inVs, rfl⟩ := List.mem_map.mp member
    obtain ⟨ty, isBound⟩ := adds.bound v inVs
    rw [← names, matching'.bound v (adds.lt_size v inVs), isBound]
    exact Option.some_ne_none ty
  rw [replayLog_undone (apart.nodup adds.nodup inside) bound]
  congr 1
  funext name
  split
  · next touched =>
      obtain ⟨v, member, rfl⟩ := List.mem_map.mp touched
      rw [matching.bound v (inside v member), adds.unbound v member]
  · next untouched => exact matching.eq_of_others matching' size names adds.others untouched

/-- A new variable is unbound, and nothing stands for its name: no other variable has it. -/
theorem Matches.allocate (matching : t.Matches told) (name : Option String)
    (apart : (t.allocate name).2.NamesApart)
    : (t.allocate name).2.Matches told := by
  have later := State.extends_allocate t name
  have grown := size_allocate t name
  refine ⟨?_, ?_⟩
  · intro v inside
    rw [binding?_allocate]
    by_cases old : v < t.size
    · rw [later.nameOf_eq old, matching.bound v old]
    · have new : v = t.size := by omega
      rw [binding?_of_size_le (Nat.le_of_eq new.symm)]
      by_contra stands
      obtain ⟨ty, found⟩ := Option.ne_none_iff_exists'.mp stands
      obtain ⟨w, insideW, same⟩ := matching.named _ ty found
      rw [← later.nameOf_eq insideW] at same
      have equal := apart w (by omega) v inside same
      omega
  · intro subject ty stands
    obtain ⟨v, inside, rfl⟩ := matching.named subject ty stands
    exact ⟨v, by omega, later.nameOf_eq inside⟩

end Table

-----------------------------------------------------------------------------------------
-- Runs
-----------------------------------------------------------------------------------------

namespace State

/-- The log can be replayed and ends with the bindings of the table. -/
def Replays (s : State) : Prop :=
  ∃ told, replayLog (fun _ => none) s.log.toList = some told ∧ s.table.Matches told

/-- The new state has an empty log and an empty table. -/
theorem empty_replays : empty.Replays :=
  ⟨_, rfl, by simp [empty, Table.empty, Table.size], nofun⟩

/-- The events may happen after the log, and then names stand for the bindings of the table. -/
theorem replays_append {log : Array Event} {events : List Event} {t : Table}
    {told told' : String → Option OpenTy} (replayed : replayLog (fun _ => none) log.toList = some told)
    (continued : replayLog told events = some told') (matching : t.Matches told')
    (names : List (String × Nat))
    : Replays ⟨t, names, log.append events.toArray⟩ := by
  refine ⟨told', ?_, matching⟩
  rw [Array.append_eq_append, Array.toList_append]
  exact replayLog_append.mpr ⟨told, replayed, continued⟩

/-- One more event that is about no name. -/
theorem Replays.push {s : State} (replays : s.Replays) {t : Table} {event : Event}
    (silent : event.subject? = none) (matching : ∀ told, s.table.Matches told → t.Matches told)
    (names : List (String × Nat))
    : Replays ⟨t, names, s.log.push event⟩ := by
  obtain ⟨told, replayed, matched⟩ := replays
  have happens : event.replay told = some told := by
    cases event with
    | bound | undone => cases silent
    | typing | fresh | named => rfl
  rw [Array.push_eq_append]
  exact replays_append replayed (replayLog_cons.mpr ⟨told, happens, rfl⟩) (matching told matched) names

/-- The variables before a move are variables after it, with their names. -/
theorem Move.namesApart {s s' : State} (move : Move s s') (wf : s.WellFormed)
    (apart : s'.table.NamesApart)
    : s.table.NamesApart := by
  have later := (move.wellFormed_extends wf).2.table
  exact apart.of_named later.size fun v inside => (later.named inside).symm

/-- Every move keeps the log in step with the table, by cases on the move. -/
theorem Move.replays {s s' : State} (move : Move s s') (wf : s.WellFormed)
    (apart : s'.table.NamesApart) (replays : s.Replays)
    : s'.Replays := by
  have apartBefore := move.namesApart wf apart
  cases move with
  | typing shape => exact replays.push rfl (fun _ => id) s.names
  | fresh => exact replays.push rfl (fun _ matching => matching.allocate none apart) s.names
  | named name =>
      cases known : s.names.lookup name with
      | some v =>
          rw [named_of_known known]
          exact replays
      | none =>
          rw [named_eq_of_unknown known] at apart ⊢
          exact replays.push rfl (fun _ matching => matching.allocate (some name) apart) _
  | transaction onlyBinds context =>
      obtain ⟨told, replayed, matching⟩ := replays
      have opened : s.table.snapshot.2.Matches told := ⟨matching.bound, matching.named⟩
      rcases Infer.transaction_tells onlyBinds context wf.table with
        ⟨t, events, _, tells, ends⟩ | ⟨e, t, events, _, tells, ends⟩
      · obtain ⟨told', bounds, matching'⟩ := opened.replay_tells apartBefore tells
        rw [ends]
        exact replays_append replayed bounds (matching'.commit _) s.names
      · obtain ⟨told', bounds, matching'⟩ := opened.replay_tells apartBefore tells
        have undones := matching.replay_undone matching' apartBefore tells.binds
        rw [ends]
        exact replays_append replayed (replayLog_append.mpr ⟨told', bounds, undones⟩) matching s.names

/-- The names are apart in all tables of a run if they are in the last one. -/
theorem Moves.replays {s s' : State} (moves : s.Moves s') (wf : s.WellFormed)
    (apart : s'.table.NamesApart) (replays : s.Replays)
    : s'.Replays := by
  apply moves.preserves (P := fun s => s.table.NamesApart → s.Replays) ?_ wf (fun _ => replays) apart
  intro s s' move wf ih apart
  exact move.replays wf apart (ih (move.namesApart wf apart))

/-- The log tells the allocation of every variable, in the order of their numbers. -/
def TellsAllocations (s : State) : Prop :=
  s.log.toList.filterMap Event.allocated? = List.range s.table.size

/-- An allocation is told behind those before it. -/
theorem TellsAllocations.push {s : State} (tells : s.TellsAllocations) {event : Event}
    (allocation : event.allocated? = some s.table.size) (name : Option String)
    (names : List (String × Nat))
    : TellsAllocations ⟨(s.table.allocate name).2, names, s.log.push event⟩ := by
  rw [TellsAllocations, Array.toList_push, List.filterMap_append, tells, Table.size_allocate,
    List.range_succ]
  simp [allocation]

/-- Events of other kinds tell no allocation. -/
theorem TellsAllocations.append {s : State} (tells : s.TellsAllocations) {events : List Event}
    (others : ∀ event ∈ events, event.allocated? = none) {t : Table} (size : t.size = s.table.size)
    (names : List (String × Nat))
    : TellsAllocations ⟨t, names, s.log.append events.toArray⟩ := by
  rw [TellsAllocations, Array.append_eq_append, Array.toList_append, List.filterMap_append, tells,
    size, List.filterMap_eq_nil_iff.mpr others, List.append_nil]

/-- The events of bindings tell no allocation. -/
theorem allocated?_of_bound {t : Table} {mark : Snapshot}
    : ∀ event ∈ Infer.boundEvents t mark, event.allocated? = none := by
  intro event member
  obtain ⟨v, _, isBound⟩ := List.mem_filterMap.mp member
  obtain ⟨ty, _, rfl⟩ := Option.map_eq_some_iff.mp isBound
  rfl

/-- The events of bindings undone tell no allocation. -/
theorem allocated?_of_undone {t : Table} {mark : Snapshot}
    : ∀ event ∈ Infer.undoneEvents t mark, event.allocated? = none := by
  intro event member
  obtain ⟨v, _, rfl⟩ := List.mem_map.mp member
  rfl

/-- Every move tells its allocation, if it makes one, by cases on the move. -/
theorem Move.tellsAllocations {s s' : State} (move : Move s s') (wf : s.WellFormed)
    (tells : s.TellsAllocations)
    : s'.TellsAllocations := by
  cases move with
  | typing shape =>
      rw [Array.push_eq_append]
      exact tells.append (by simp [Event.allocated?]) rfl s.names
  | fresh => exact tells.push rfl none s.names
  | named name =>
      cases known : s.names.lookup name with
      | some v =>
          rw [named_of_known known]
          exact tells
      | none =>
          rw [named_eq_of_unknown known]
          exact tells.push rfl (some name) _
  | transaction onlyBinds context =>
      rcases transaction_cases onlyBinds context wf.table with
        ⟨t, _, binds, ends⟩ | ⟨e, t, _, _, ends⟩
      · rw [ends]
        exact tells.append allocated?_of_bound binds.size s.names
      · rw [ends]
        refine tells.append ?_ rfl s.names
        exact List.forall_mem_append.mpr ⟨allocated?_of_bound, allocated?_of_undone⟩

end State

namespace Expr

/-- The log of every inference, whether it succeeds or fails, tells the allocations of all variables
of the final table in order; and if no two of these are printed alike, it tells the bindings of the
final table.
-/
theorem log_tells_table (e : Expr) {s' : State} (ends : finalState (e.inferIn .empty .empty) = s')
    : s'.log.toList.filterMap Event.allocated? = List.range s'.table.size
      ∧ (s'.table.NamesApart → s'.table.ToldBy s'.log.toList) := by
  have moves : State.empty.Moves s' := ends ▸ inferIn_onlyMoves e .empty .empty
  refine ⟨moves.preserves State.Move.tellsAllocations State.empty_wellFormed rfl, ?_⟩
  intro apart
  obtain ⟨told, replayed, matching⟩ :=
    moves.replays State.empty_wellFormed apart State.empty_replays
  exact matching.toldBy replayed

/-- The first sum binds `T`, fails at its second operand and is rolled back; the second sum binds `T`
again.
-/
def reboundSource : String := "(lambda ((x : T)) (let ((a (+ x #t)) (b (+ x 1))) b))"

/-- Three events are about `T`: it is bound, undone and bound again. -/
theorem log_tells_table_rebound
    : ∃ e error s',
        Expr.parse 1 reboundSource = .ok e
        ∧ e.inferIn .empty .empty = .error error s'
        ∧ (s'.log.toList.filterMap Event.subject?).count "T" = 3
        ∧ s'.log.toList.filterMap Event.allocated? = List.range 6
        ∧ s'.table.NamesApart
        ∧ s'.table.ToldBy s'.log.toList := by
  have runs
      : (Expr.parse 1 reboundSource).toOption.any (fun e =>
          decide
            (FailedWith (fun error => error.leaves.length = 1) (e.inferIn .empty .empty)
            ∧ (finalState (e.inferIn .empty .empty)).table.size = 6
            ∧ ((finalState (e.inferIn .empty .empty)).log.toList.filterMap Event.subject?).count "T"
              = 3
            ∧ (finalState (e.inferIn .empty .empty)).table.NamesApart))
        = true := by
    decide +kernel
  obtain ⟨e, parsed, ran⟩ := exists_ok_of_any runs
  obtain ⟨failed, size, three, apart⟩ := of_decide_eq_true ran
  obtain ⟨error, s', failed, _⟩ := failed.exists_error
  rw [failed, finalState_error] at size three apart
  obtain ⟨allocations, told⟩ := log_tells_table e (congrArg finalState failed)
  rw [finalState_error, size] at allocations
  exact ⟨e, error, s', parsed, failed, three, allocations, apart, told apart⟩

end Expr

end TypedScheme
