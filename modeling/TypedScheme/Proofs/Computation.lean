/-! Runs of computations that have a state and may fail. A failure keeps the state reached. -/

namespace TypedScheme

variable {ε σ α β : Type}

/-- The state in which a computation ends, whether it fails or not. -/
def finalState : EStateM.Result ε σ α → σ
  | .ok _ s => s
  | .error _ s => s

/-- A success ends in its state. -/
@[simp]
theorem finalState_ok (a : α) (s : σ) : finalState (.ok a s : EStateM.Result ε σ α) = s := rfl

/-- So does a failure. -/
@[simp]
theorem finalState_error (e : ε) (s : σ)
    : finalState (.error e s : EStateM.Result ε σ α) = s := rfl

/-- A sequence whose first part succeeds goes on with the value, in the state in which that part
ended.
-/
theorem run_bind_ok {x : EStateM ε σ α} {f : α → EStateM ε σ β} {s s' : σ} {a : α}
    (run : x s = .ok a s')
    : (x >>= f) s = f a s' := by
  simp only [Bind.bind, EStateM.bind, run]

/-- A sequence whose first part fails ends there. -/
theorem run_bind_error {x : EStateM ε σ α} {f : α → EStateM ε σ β} {s s' : σ} {e : ε}
    (run : x s = .error e s')
    : (x >>= f) s = .error e s' := by
  simp only [Bind.bind, EStateM.bind, run]

/-- Two computations in a row succeed if the first one does and the second one does after it. -/
theorem run_bind_eq_ok_iff {x : EStateM ε σ α} {f : α → EStateM ε σ β} {s s' : σ} {b : β}
    : (x >>= f) s = .ok b s' ↔ ∃ a middle, x s = .ok a middle ∧ f a middle = .ok b s' := by
  cases run : x s with
  | error e middle => simp [run_bind_error run]
  | ok a middle =>
      rw [run_bind_ok run]
      constructor
      · intro rest
        exact ⟨a, middle, rfl, rest⟩
      · rintro ⟨_, _, same, rest⟩
        cases same
        exact rest

/-- The same without a state. -/
theorem bind_eq_ok_iff {x : Except ε α} {f : α → Except ε β} {b : β}
    : (x >>= f) = .ok b ↔ ∃ a, x = .ok a ∧ f a = .ok b := by
  cases x with
  | error e => simp [Bind.bind, Except.bind]
  | ok a => simp [Bind.bind, Except.bind]

/-- After a value that is there from the beginning, a sequence is its second part. -/
@[simp]
theorem ok_bind (a : α) (f : α → Except ε β) : (Except.ok a >>= f) = f a := rfl

/-- A test of the value of a computation that may fail tells that it does not. -/
theorem exists_ok_of_any {x : Except ε α} {test : α → Bool} (passed : x.toOption.any test = true)
    : ∃ a, x = .ok a ∧ test a = true := by
  cases x with
  | error e => cases passed
  | ok a => exact ⟨a, rfl, passed⟩

/-- The computation succeeded, and its value and final state are as told. -/
inductive SucceededWith (P : α → σ → Prop) : EStateM.Result ε σ α → Prop
  | ok {a : α} {s : σ} (holds : P a s) : SucceededWith P (.ok a s)

instance (P : α → σ → Prop) [∀ a s, Decidable (P a s)]
    : (r : EStateM.Result ε σ α) → Decidable (SucceededWith P r)
  | .ok a s => decidable_of_iff (P a s) ⟨.ok, fun | .ok holds => holds⟩
  | .error _ _ => isFalse nofun

/-- The value and the state of a success that a decision has established. -/
theorem SucceededWith.exists_ok {P : α → σ → Prop} {r : EStateM.Result ε σ α}
    (succeeded : SucceededWith P r)
    : ∃ a s, r = .ok a s ∧ P a s := by
  obtain ⟨holds⟩ := succeeded
  exact ⟨_, _, rfl, holds⟩

/-- The computation failed, and its error is as told. -/
inductive FailedWith (P : ε → Prop) : EStateM.Result ε σ α → Prop
  | error {e : ε} {s : σ} (holds : P e) : FailedWith P (.error e s)

instance (P : ε → Prop) [∀ e, Decidable (P e)]
    : (r : EStateM.Result ε σ α) → Decidable (FailedWith P r)
  | .ok _ _ => isFalse nofun
  | .error e _ => decidable_of_iff (P e) ⟨.error, fun | .error holds => holds⟩

/-- The error and the state of a failure that a decision has established. -/
theorem FailedWith.exists_error {P : ε → Prop} {r : EStateM.Result ε σ α}
    (failed : FailedWith P r)
    : ∃ e s, r = .error e s ∧ P e := by
  obtain ⟨holds⟩ := failed
  exact ⟨_, _, rfl, holds⟩

end TypedScheme
