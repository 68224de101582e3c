import TypedScheme.Expr.Parser
import TypedScheme.Proofs.Inference.Reports

/-! Printed names of variables.
A variable is printed with the name it was allocated for, or else with a name made from its number.
Written names are distinct from each other and so are made names, but a written name can be a made
one. Main statement: the variables of an inference have distinct names exactly if no written name is
the made name of an unnamed variable, and then no two variables of a type shown are printed alike.
-/

namespace TypedScheme

namespace Table

/-- The name of a variable that was allocated for none. -/
def madeName (v : Nat) : String := "T_" ++ toString v

/-- A variable is printed by its own name, or by one made from its number. -/
theorem nameOf_eq (t : Table) (v : Nat) : t.nameOf v = (t.name? v).getD (madeName v) := rfl

/-- A number can be read back from its digits. -/
theorem madeName_injective {v w : Nat} (same : madeName v = madeName w) : v = w := by
  have digits : Nat.toDigits 10 v = Nat.toDigits 10 w :=
    String.ofList_inj.mp ((String.append_right_inj "T_").mp same)
  calc v
      = Nat.ofDigitChars 10 (Nat.toDigits 10 v) 0 := Nat.ofDigitChars_ten_toDigits.symm
    _ = Nat.ofDigitChars 10 (Nat.toDigits 10 w) 0 := by rw [digits]
    _ = w := Nat.ofDigitChars_ten_toDigits

/-- Only variables of the table have names. -/
theorem lt_size_of_name? {t : Table} {v : Nat} {name : String} (named : t.name? v = some name)
    : v < t.size := by
  by_contra outside
  have absent : t.slots[v]? = none := Array.getElem?_eq_none (Nat.le_of_not_lt outside)
  simp [name?, absent] at named

/-- Only a variable that was allocated for it has a name that is not a made one. -/
theorem nameOf_eq_iff {t : Table} {v : Nat} {name : String} (unmade : ∀ w, name ≠ madeName w)
    : t.nameOf v = name ↔ t.name? v = some name := by
  rw [nameOf_eq]
  cases t.name? v with
  | none => simpa using (unmade v).symm
  | some other => simp

/-- No two variables of the table are printed alike. -/
def NamesApart (t : Table) : Prop :=
  ∀ v, v < t.size → ∀ w, w < t.size → t.nameOf v = t.nameOf w → v = w

instance (t : Table) : Decidable t.NamesApart :=
  inferInstanceAs (Decidable (∀ v, v < t.size → ∀ w, w < t.size → t.nameOf v = t.nameOf w → v = w))

/-- A binding leaves all printed names as they are. -/
theorem nameOf_bind (t : Table) (v : Nat) (ty : OpenTy) (w : Nat)
    : (t.bind v ty).nameOf w = t.nameOf w := by
  rw [nameOf_eq, nameOf_eq, name?_bind]

/-- A variable keeps its printed name in all later tables. -/
theorem Extends.nameOf_eq {t t' : Table} (later : t.Extends t') {v : Nat} (inside : v < t.size)
    : t'.nameOf v = t.nameOf v := by
  rw [Table.nameOf_eq, Table.nameOf_eq, later.named inside]

/-- Binding steps leave all printed names as they are. -/
theorem Binds.nameOf_eq {t t' : Table} (binds : t.Binds t') (v : Nat) : t'.nameOf v = t.nameOf v := by
  rw [Table.nameOf_eq, Table.nameOf_eq, binds.name?_eq]

/-- A table whose variables are variables of another one, with their names. -/
theorem NamesApart.of_named {t t' : Table} (apart : t'.NamesApart) (le : t.size ≤ t'.size)
    (named : ∀ v, v < t.size → t.name? v = t'.name? v)
    : t.NamesApart := by
  intro v insideV w insideW same
  rw [nameOf_eq, nameOf_eq, named v insideV, named w insideW] at same
  exact apart v (Nat.lt_of_lt_of_le insideV le) w (Nat.lt_of_lt_of_le insideW le) same

/-- No two variables of the resolved type are printed alike. -/
def ShowsApart (t : Table) (u : OpenTy) : Prop :=
  ∀ v ∈ (t.resolve u).vars, ∀ w ∈ (t.resolve u).vars, t.nameOf v = t.nameOf w → v = w

/-- In a table whose variables have distinct names, no two variables of a resolved type are printed
alike.
-/
theorem NamesApart.showsApart {t : Table} (apart : t.NamesApart) (grounded : t.Grounded) {u : OpenTy}
    (below : u.Below t.size)
    : t.ShowsApart u := by
  intro v occursV w occursW same
  have resolved := grounded.below_resolve below
  exact apart v (resolved v occursV) w (resolved w occursW) same

end Table

-----------------------------------------------------------------------------------------
-- The names of a state are those of its table
-----------------------------------------------------------------------------------------

namespace State

/-- A name leads to a variable exactly if the variable was allocated for it. -/
def NamesMatch (s : State) : Prop :=
  ∀ name v, s.names.lookup name = some v ↔ s.table.name? v = some name

/-- The new state has no names and no variables. -/
theorem empty_namesMatch : empty.NamesMatch := by
  intro name v
  simp [empty, Table.empty, Table.name?]

/-- States with the same names and the same named variables match alike. -/
theorem NamesMatch.of_eq {s s' : State} (matching : s.NamesMatch) (names : s'.names = s.names)
    (named : ∀ v, s'.table.name? v = s.table.name? v)
    : s'.NamesMatch := by
  intro name v
  rw [names, named v]
  exact matching name v

/-- A fresh variable has no name, and no name leads to it. -/
theorem NamesMatch.fresh {s : State} (matching : s.NamesMatch) : s.fresh.2.NamesMatch := by
  intro name v
  rw [names_fresh, table_fresh, Table.name?_allocate, matching]
  split
  · next new =>
      constructor
      · intro named
        exact absurd (Table.lt_size_of_name? named) (Nat.not_lt_of_le (Nat.le_of_eq new.symm))
      · nofun
  · rfl

/-- A name met for the first time leads to the new variable and to no other. -/
theorem NamesMatch.afterNamed {s : State} (matching : s.NamesMatch) (name : String)
    : (s.named name).2.NamesMatch := by
  cases known : s.names.lookup name with
  | some v =>
      rw [named_of_known known]
      exact matching
  | none =>
      obtain ⟨_, table, names⟩ := named_of_unknown known
      intro other v
      rw [names, table, Table.name?_allocate]
      by_cases same : other = name
      · rw [same, lookup_cons_self]
        by_cases new : v = s.table.size
        · simp [new]
        · rw [if_neg new, ← matching, known]
          simp [Ne.symm new]
      · rw [lookup_cons_of_ne same, matching]
        split
        · next new =>
            constructor
            · intro named
              exact absurd (Table.lt_size_of_name? named) (Nat.not_lt_of_le (Nat.le_of_eq new.symm))
            · intro found
              exact absurd (Option.some.inj found).symm same
        · rfl

/-- Every move keeps the names in step with the table, by cases on the move. -/
theorem Move.namesMatch {s s' : State} (move : Move s s') (wf : s.WellFormed)
    (matching : s.NamesMatch)
    : s'.NamesMatch := by
  cases move with
  | typing shape => exact matching
  | fresh => exact matching.fresh
  | named name => exact matching.afterNamed name
  | transaction onlyBinds context =>
      rcases transaction_cases onlyBinds context wf.table with
        ⟨t, _, binds, ends⟩ | ⟨e, t, _, _, ends⟩
      · rw [ends]
        exact matching.of_eq rfl binds.name?_eq
      · rw [ends]
        exact matching

/-- Two variables with one printed name are a named one and an unnamed one: two named ones would both
be the variable of that name, and two unnamed ones would have the same number.
-/
theorem NamesMatch.namesApart_iff {s : State} (matching : s.NamesMatch)
    : s.table.NamesApart
      ↔ ∀ name v w,
          s.names.lookup name = some v
          → w < s.table.size
          → s.table.name? w = none
          → name ≠ Table.madeName w := by
  constructor
  · intro apart name v w known inside unnamed made
    have named := (matching name v).mp known
    have same : s.table.nameOf v = s.table.nameOf w := by
      rw [Table.nameOf_eq, Table.nameOf_eq, named, unnamed, made]
      rfl
    rw [apart v (Table.lt_size_of_name? named) w inside same, unnamed] at named
    cases named
  · intro unmade v insideV w insideW same
    rw [Table.nameOf_eq, Table.nameOf_eq] at same
    cases namedV : s.table.name? v with
    | none =>
        cases namedW : s.table.name? w with
        | none =>
            rw [namedV, namedW] at same
            exact Table.madeName_injective same
        | some name =>
            rw [namedV, namedW] at same
            exact absurd same.symm (unmade name w v ((matching name w).mpr namedW) insideV namedV)
    | some name =>
        cases namedW : s.table.name? w with
        | none =>
            rw [namedV, namedW] at same
            exact absurd same (unmade name v w ((matching name v).mpr namedV) insideW namedW)
        | some other =>
            have equal : name = other := by simpa [namedV, namedW] using same
            have known := (matching name v).mpr namedV
            rw [equal, (matching other w).mpr namedW] at known
            exact (Option.some.inj known).symm

end State

/-- A state that types were converted into was reached by moves. -/
theorem Environment.ConvertedInto.moves {env : TypeEnv} {s : State} (converted : env.ConvertedInto s)
    : State.empty.Moves s := by
  obtain ⟨tys, rfl, _⟩ := converted
  exact Infer.onlyMoves_convertAll tys State.empty

namespace Expr

/-- After every inference, whether it succeeds or fails, the variables have distinct printed names
exactly if no name met in a written type is the made name of a variable without a name. Then no two
variables of the inferred type are printed alike, and no two variables of the types in an error are,
be they in one type or in two: these are printed in a table whose variables all have distinct names.
-/
theorem variable_names_apart {env : TypeEnv} {s : State} (converted : env.ConvertedInto s) (e : Expr)
    {s' : State} (ends : finalState (e.inferIn env s) = s')
    : (s'.table.NamesApart
        ↔ ∀ name v w,
            s'.names.lookup name = some v
            → w < s'.table.size
            → s'.table.name? w = none
            → name ≠ Table.madeName w)
      ∧ (s'.table.NamesApart
          → (∀ ty,
              e.inferIn env s = .ok ty s'
              → ∃ u, e.typeOf env s = .ok u s' ∧ ty = s'.table.toTy u ∧ s'.table.ShowsApart u)
            ∧ ∀ error,
                e.inferIn env s = .error error s'
                → ∀ leaf ∈ error.leaves,
                    leaf.types ≠ []
                    → ∃ unified left context,
                        s'.Clashed unified left
                        ∧ leaf ∈ (unified.toTypeError left context).leaves
                        ∧ left.NamesApart
                        ∧ unified.About fun u =>
                            (left.resolve u).Below left.size ∧ left.ShowsApart u) := by
  have moves : State.empty.Moves s' := ends ▸ converted.moves.trans (inferIn_onlyMoves e env s)
  obtain ⟨wf', _⟩ := moves.wellFormed_extends State.empty_wellFormed
  obtain ⟨wf, holds⟩ := converted.wellFormed_holdsEnv
  have gives := inferIn_gives (e.typeOf_gives s env wf holds)
  have matching := moves.preserves State.Move.namesMatch State.empty_wellFormed State.empty_namesMatch
  refine ⟨matching.namesApart_iff, ?_⟩
  intro apart
  constructor
  · intro ty inferred
    obtain ⟨u, run, held, rfl⟩ := gives.value inferred
    exact ⟨u, run, rfl, apart.showsApart wf'.table.toGrounded held.below⟩
  · intro error failed leaf isLeaf shows
    obtain ⟨unified, left, context, clashed, inside⟩ := (gives.error failed).exists_clashed isLeaf shows
    obtain ⟨wfLeft, le, named⟩ := clashed.wellFormed_named
    have apartLeft := apart.of_named le named
    refine ⟨unified, left, context, clashed, inside, apartLeft, clashed.about.imp ?_⟩
    intro u about
    exact ⟨wfLeft.toGrounded.below_resolve about.2, apartLeft.showsApart wfLeft.toGrounded about.2⟩

/-- The name written for the first parameter is not the one made for the second, which is `T_1`. -/
def otherNameSource : String := "(lambda ((x : T_7) y) y)"

/-- All variables of the type are printed by names of their own. -/
theorem variable_names_apart_otherName
    : ∃ e ty s' u,
        Expr.parse 1 otherNameSource = .ok e
        ∧ e.inferIn .empty .empty = .ok ty s'
        ∧ ty.text = "(T_7 * T_1 -> T_1)"
        ∧ e.typeOf .empty .empty = .ok u s'
        ∧ ty = s'.table.toTy u
        ∧ s'.table.ShowsApart u := by
  have runs
      : (Expr.parse 1 otherNameSource).toOption.any (fun e =>
          SucceededWith (fun ty s' => ty.text = "(T_7 * T_1 -> T_1)" ∧ s'.table.NamesApart)
            (e.inferIn .empty .empty))
        = true := by
    decide +kernel
  obtain ⟨e, parsed, succeeded⟩ := exists_ok_of_any runs
  obtain ⟨ty, s', inferred, text, apart⟩ := (of_decide_eq_true succeeded).exists_ok
  obtain ⟨_, shown⟩ := variable_names_apart Environment.convertedInto_empty e
    (congrArg finalState inferred)
  obtain ⟨u, run, resolved, showsApart⟩ := (shown apart).1 ty inferred
  exact ⟨e, ty, s', u, parsed, inferred, text, run, resolved, showsApart⟩

/-- The second parameter is unnamed, and the name made for it is the one written for the first. -/
def takenNameSource : String := "(lambda ((x : T_1) y) : number 1)"

/-- The two variables of the type are printed alike. -/
theorem variable_names_clash_takenName
    : ∃ e ty s',
        Expr.parse 1 takenNameSource = .ok e
        ∧ e.inferIn .empty .empty = .ok ty s'
        ∧ ty.text = "(T_1 * T_1 -> number)"
        ∧ s'.table.size = 2
        ∧ s'.table.binding? 0 = none
        ∧ s'.table.binding? 1 = none
        ∧ s'.table.nameOf 0 = s'.table.nameOf 1
        ∧ ¬ s'.table.NamesApart := by
  have runs
      : (Expr.parse 1 takenNameSource).toOption.any (fun e =>
          SucceededWith
            (fun ty s' =>
              ty.text = "(T_1 * T_1 -> number)"
              ∧ s'.table.size = 2
              ∧ s'.table.binding? 0 = none
              ∧ s'.table.binding? 1 = none
              ∧ s'.table.nameOf 0 = s'.table.nameOf 1
              ∧ ¬ s'.table.NamesApart)
            (e.inferIn .empty .empty))
        = true := by
    decide +kernel
  obtain ⟨e, parsed, succeeded⟩ := exists_ok_of_any runs
  obtain ⟨ty, s', inferred, found⟩ := (of_decide_eq_true succeeded).exists_ok
  exact ⟨e, ty, s', parsed, inferred, found⟩

end Expr

end TypedScheme
