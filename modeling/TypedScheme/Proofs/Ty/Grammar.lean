import Mathlib.Data.List.Induction
import TypedScheme.Proofs.Computation
import TypedScheme.Proofs.Induction

/-! The grammar of type annotations.
Main statement: a datum is read as a type exactly if it is a written form of the type.
-/

namespace TypedScheme

namespace Datum

/-- A datum is a symbol exactly if it was made as one. -/
theorem symbol?_eq_some_iff {d : Datum} {name : String}
    : d.symbol? = some name ↔ ∃ pos, d = .symbol pos name := by
  cases d with
  | symbol pos symbol => simp [symbol?]
  | number | boolean | string | list => simp [symbol?]

/-- A datum is a given symbol exactly if it was made as that one. -/
theorem isSymbol_iff {d : Datum} {name : String}
    : d.isSymbol name = true ↔ ∃ pos, d = .symbol pos name := by
  rw [isSymbol, decide_eq_true_eq, symbol?_eq_some_iff]

/-- Symbols are told apart by their names. -/
@[simp]
theorem isSymbol_symbol (pos : Position) (symbol name : String)
    : (Datum.symbol pos symbol).isSymbol name = decide (symbol = name) := by
  simp [isSymbol, symbol?]

end Datum

/-- An atomic type is found by its own name. -/
theorem Atomic.name_of_ofName? {name : String} {a : Atomic} (known : Atomic.ofName? name = some a)
    : a.name = name := by
  simpa using List.find?_some known

namespace TypeExpr

mutual
/-- The datum is a written form of the type. -/
inductive Written : Datum → TypeExpr → Prop
  | atomic (pos : Position) {name : String} {a : Atomic} (known : Atomic.ofName? name = some a)
    : Written (.symbol pos name) (.atomic pos a)
  | named (pos : Position) {name : String} (unknown : Atomic.ofName? name = none)
    (noMarker : name ∉ markers)
    : Written (.symbol pos name) (.named pos name)
  | thunk (pos emptyPos arrowPos : Position) {d : Datum} {result : TypeExpr}
    (inResult : Written d result)
    : Written (.list pos [.symbol emptyPos "Empty", .symbol arrowPos "->", d])
        (.procedure pos [] result)
  | procedure (pos : Position) {items : List Datum} {params : List TypeExpr} {result : TypeExpr}
    (inside : SignatureWritten items params result)
    : Written (.list pos items) (.procedure pos params result)

/-- The data are parameter types with stars between them, an arrow and a result type. -/
inductive SignatureWritten : List Datum → List TypeExpr → TypeExpr → Prop
  | last (arrowPos : Position) {p d : Datum} {param result : TypeExpr} (inParam : Written p param)
    (inResult : Written d result)
    : SignatureWritten [p, .symbol arrowPos "->", d] [param] result
  | more (starPos : Position) {p : Datum} {ds : List Datum} {param : TypeExpr}
    {params : List TypeExpr} {result : TypeExpr} (inParam : Written p param)
    (others : SignatureWritten ds params result)
    : SignatureWritten (p :: .symbol starPos "*" :: ds) (param :: params) result
end

-----------------------------------------------------------------------------------------
-- What is read is written
-----------------------------------------------------------------------------------------

/-- A signature has the right shape exactly if an arrow stands before its last item and its length
is odd.
-/
theorem shapeError?_eq_none_iff {items : List Datum}
    : shapeError? items = none ↔ endsWithArrow items = true ∧ items.length % 2 = 1 := by
  rw [shapeError?]
  split
  · next noArrow => simp at noArrow; simp [noArrow]
  · next arrow =>
      split
      · next two => simp [two]
      · split
        · next even => simp [even]
        · next odd =>
            simp only [Bool.not_eq_true', Bool.not_eq_false] at arrow
            simp [arrow]
            omega

/-- What the datum is read as is written by it. -/
def ReadAsWritten (d : Datum) : Prop := ∀ t, ofDatum d = .ok t → Written d t

/-- The parts of a procedure type are written as its shape says, by induction on pairs of items. -/
theorem written_of_signature {items : List Datum} (each : ∀ d ∈ items, ReadAsWritten d)
    (arrow : endsWithArrow items = true) (odd : items.length % 2 = 1) {params : List TypeExpr}
    {result : TypeExpr} (read : signature false items = .ok (params, result))
    : SignatureWritten items params result := by
  induction items using List.twoStepInduction generalizing params with
  | nil => simp at odd
  | singleton d => simp [endsWithArrow] at arrow
  | cons_cons p separator rest ih _ =>
      rcases rest with _ | ⟨d, _ | ⟨d', rest⟩⟩
      · simp at odd
      · obtain ⟨arrowPos, rfl⟩ := Datum.isSymbol_iff.mp (by simpa [endsWithArrow] using arrow)
        simp only [signature, Bool.false_and, Bool.false_eq_true, if_false,
          bind_eq_ok_iff] at read
        obtain ⟨param, readParam, result, readResult, same⟩ := read
        cases same
        have inParam := each p (by simp) param readParam
        exact .last arrowPos inParam (each d (by simp) result readResult)
      · simp only [signature] at read
        obtain ⟨param, readParam, readRest⟩ := bind_eq_ok_iff.mp read
        split at readRest
        · next star =>
            obtain ⟨⟨others, last⟩, readOthers, same⟩ := bind_eq_ok_iff.mp readRest
            cases same
            obtain ⟨starPos, rfl⟩ := Datum.isSymbol_iff.mp star
            have inParam := each p (by simp) param readParam
            refine .more starPos inParam (ih ?_ ?_ ?_ readOthers)
            · exact fun d member => each d (by simp [member])
            · simpa [endsWithArrow] using arrow
            · simp only [List.length_cons] at odd ⊢
              omega
        · cases readRest

/-- The word `Empty` alone makes a difference at the beginning of a procedure type. -/
theorem signature_true {items : List Datum} {params : List TypeExpr} {result : TypeExpr}
    (read : signature true items = .ok (params, result))
    : signature false items = .ok (params, result)
      ∨ ∃ emptyPos arrow d,
          items = [.symbol emptyPos "Empty", arrow, d]
          ∧ params = []
          ∧ ofDatum d = .ok result := by
  rcases items with _ | ⟨p, _ | ⟨separator, _ | ⟨d, _ | ⟨d', rest⟩⟩⟩⟩
  · exact .inl read
  · exact .inl read
  · exact .inl read
  · rw [signature] at read
    split at read
    · next empty =>
        obtain ⟨emptyPos, rfl⟩ := Datum.isSymbol_iff.mp (by simpa using empty)
        obtain ⟨last, readResult, same⟩ := bind_eq_ok_iff.mp read
        cases same
        exact .inr ⟨emptyPos, separator, d, rfl, rfl, readResult⟩
    · exact .inl read
  · exact .inl read

/-- A type that was read is written so, by induction on the parts of the datum. -/
theorem written_of_ofDatum {d : Datum} {t : TypeExpr} (read : ofDatum d = .ok t)
    : Written d t := by
  induction d using Datum.partsInduction generalizing t with
  | number | boolean | string => cases read
  | symbol pos name =>
      rw [ofDatum] at read
      split at read
      · next known =>
          cases read
          exact .atomic pos known
      · next unknown =>
          split at read
          · cases read
          · next noMarker =>
              cases read
              exact .named pos unknown (by simpa using noMarker)
  | list pos items ih =>
      rw [ofDatum] at read
      split at read
      · cases read
      · next shape =>
          obtain ⟨⟨params, result⟩, readParts, same⟩ := bind_eq_ok_iff.mp read
          cases same
          obtain ⟨arrow, odd⟩ := shapeError?_eq_none_iff.mp shape
          have each d (member : d ∈ items) : ReadAsWritten d := fun t => ih d member
          rcases signature_true readParts with parts | ⟨emptyPos, separator, d, rfl, rfl, readResult⟩
          · exact .procedure pos (written_of_signature each arrow odd parts)
          · obtain ⟨arrowPos, rfl⟩ := Datum.isSymbol_iff.mp (by simpa [endsWithArrow] using arrow)
            exact .thunk pos emptyPos arrowPos (each d (by simp) result readResult)

-----------------------------------------------------------------------------------------
-- What is written is read
-----------------------------------------------------------------------------------------

/-- A marker such as `Empty` is no type. -/
theorem notEmpty_of_written {d : Datum} {t : TypeExpr} (written : Written d t)
    : d.isSymbol "Empty" = false := by
  cases written with
  | @atomic pos name a known =>
      rw [Datum.isSymbol_symbol, decide_eq_false_iff_not]
      intro same
      rw [same] at known
      cases known
  | @named pos name unknown noMarker =>
      rw [Datum.isSymbol_symbol, decide_eq_false_iff_not]
      intro same
      exact noMarker (by rw [same]; decide)
  | thunk | procedure => rfl

/-- Written parameters and a result have the right shape and are read, by induction on pairs of
items.
-/
theorem signature_of_written {items : List Datum}
    (each : ∀ d ∈ items, ∀ t, Written d t → ofDatum d = .ok t) {params : List TypeExpr}
    {result : TypeExpr} (written : SignatureWritten items params result) (leading : Bool)
    : endsWithArrow items = true
      ∧ items.length % 2 = 1
      ∧ signature leading items = .ok (params, result) := by
  induction items using List.twoStepInduction generalizing params leading with
  | nil | singleton => cases written
  | cons_cons p separator rest ih _ =>
      cases written with
      | @last arrowPos _ d param _ inParam inResult =>
          have readParam := each p (by simp) param inParam
          have readResult := each d (by simp) result inResult
          refine ⟨by simp [endsWithArrow], by simp, ?_⟩
          simp only [signature, notEmpty_of_written inParam, Bool.and_false, Bool.false_eq_true,
            if_false, readParam, readResult]
          rfl
      | @more starPos _ _ param params _ inParam others =>
          have readParam := each p (by simp) param inParam
          obtain ⟨arrow, odd, readOthers⟩ :=
            ih (fun d member => each d (by simp [member])) others false
          rcases rest with _ | ⟨d, _ | ⟨d', rest⟩⟩
          · cases arrow
          · cases arrow
          · refine ⟨by simpa [endsWithArrow] using arrow, ?_, ?_⟩
            · simp only [List.length_cons] at odd ⊢
              omega
            · simp only [signature, readParam, readOthers, Datum.isSymbol_symbol, decide_true,
                if_true]
              rfl

/-- A written type is read, by induction on the parts of the datum. -/
theorem ofDatum_of_written {d : Datum} {t : TypeExpr} (written : Written d t)
    : ofDatum d = .ok t := by
  induction d using Datum.partsInduction generalizing t with
  | number | boolean | string => cases written
  | symbol pos name =>
      cases written with
      | atomic _ known => simp only [ofDatum, known]
      | named _ unknown noMarker => simp [ofDatum, unknown, noMarker]
  | list pos items ih =>
      have each d (member : d ∈ items) t (written : Written d t) := ih d member written
      cases written with
      | thunk _ emptyPos arrowPos inResult =>
          have readResult := each _ (by simp) _ inResult
          simp [ofDatum, shapeError?, endsWithArrow, signature, readResult]
      | procedure _ inside =>
          obtain ⟨arrow, odd, read⟩ := signature_of_written each inside true
          have shape := shapeError?_eq_none_iff.mpr ⟨arrow, odd⟩
          simp only [ofDatum, shape, read]
          rfl

/-- A type is read exactly from the data that it is written as. -/
theorem ofDatum_eq_ok_iff {d : Datum} {t : TypeExpr} : ofDatum d = .ok t ↔ Written d t :=
  ⟨written_of_ofDatum, ofDatum_of_written⟩

/-- A written type is not a wildcard. -/
theorem notWildcard_of_written {d : Datum} {t : TypeExpr} (written : Written d t)
    : t.isWildcard = false := by
  cases written with
  | atomic | named | thunk | procedure => rfl

end TypeExpr

end TypedScheme
