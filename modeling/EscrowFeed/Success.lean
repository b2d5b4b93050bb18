/-
When a computation that may fail succeeds.

The readers of the library are sequences of steps any of which may fail, and
what is asked about a sequence is nearly always what its success says: that each
step succeeded, and with what. There is one lemma for every way in which steps
are put together, so that a proof about a reader follows its steps and never
opens the sequence.
-/
set_option autoImplicit false

namespace EscrowFeed.Success

variable {ε α β : Type}

/-- **A sequence succeeds exactly when its steps do**, one after the other. -/
theorem bind_eq_ok {x : Except ε α} {f : α → Except ε β} {b : β} :
    (x >>= f) = .ok b ↔ ∃ a, x = .ok a ∧ f a = .ok b := by
  cases x <;> simp [bind, Except.bind]

/-- A step without effect succeeds with its value. -/
theorem pure_eq_ok {a b : α} : (pure a : Except ε α) = .ok b ↔ a = b := by
  simp [pure, Except.pure]

/-- A failure is no success. -/
theorem throw_eq_ok {e : ε} {a : α} : (throw e : Except ε α) = .ok a ↔ False := by
  simp [throw, throwThe, MonadExceptOf.throw]

/-- A changed result succeeds exactly when the result does. -/
theorem map_eq_ok {x : Except ε α} {f : α → β} {b : β} :
    x.map f = .ok b ↔ ∃ a, x = .ok a ∧ f a = b := by
  cases x <;> simp [Except.map]

/-- What does not succeed with anything fails. -/
theorem exists_error_iff {x : Except ε α} : (∃ e, x = .error e) ↔ ∀ a, x ≠ .ok a := by
  cases x <;> simp

end EscrowFeed.Success
