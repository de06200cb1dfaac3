import Mathlib.Tactic.Common

/-!
# `Result` chains

Rust's `Result` is `Except` with its arguments swapped, and `?` is its bind.
A chain is taken apart by `bind_eq_ok_iff`, one link at a time.
-/

namespace Except

variable {ε ε' α β : Type}

theorem bind_eq_ok_iff {x : Except ε α} {f : α → Except ε β} {b : β} :
    (x >>= f) = .ok b ↔ ∃ a, x = .ok a ∧ f a = .ok b := by
  cases x with
  | error err => simp [bind, Except.bind]
  | ok a => simp [bind, Except.bind]

theorem bind_eq_error_iff {x : Except ε α} {f : α → Except ε β} {err : ε} :
    (x >>= f) = .error err ↔ x = .error err ∨ ∃ a, x = .ok a ∧ f a = .error err := by
  cases x with
  | error err => simp [bind, Except.bind]
  | ok a => simp [bind, Except.bind]

theorem mapError_eq_ok_iff {x : Except ε α} {f : ε → ε'} {a : α} :
    x.mapError f = .ok a ↔ x = .ok a := by
  cases x with
  | error err => simp [Except.mapError]
  | ok a => simp [Except.mapError]

theorem mapError_eq_error_iff {x : Except ε α} {f : ε → ε'} {err' : ε'} :
    x.mapError f = .error err' ↔ ∃ err, x = .error err ∧ f err = err' := by
  cases x with
  | error err => simp [Except.mapError]
  | ok a => simp [Except.mapError]

theorem pure_eq_ok_iff {a b : α} : (pure a : Except ε α) = .ok b ↔ a = b := by
  simp [pure, Except.pure]

theorem mem_toOption_iff {x : Except ε α} {a : α} : a ∈ x.toOption ↔ x = .ok a := by
  cases x <;> simp [Except.toOption]

theorem exists_of_isOk {x : Except ε α} (answers : x.isOk = true) : ∃ a, x = .ok a := by
  cases x with
  | error err => cases answers
  | ok a => exact ⟨a, rfl⟩

/-- A chain that ends in a value succeeds where its first link does. -/
theorem exists_bind_pure_iff {x : Except ε α} {g : α → β} :
    (∃ b, (x >>= fun a => pure (g a)) = .ok b) ↔ ∃ a, x = .ok a := by
  simp only [bind_eq_ok_iff, pure_eq_ok_iff]
  constructor
  · intro chain
    obtain ⟨_, a, first, -⟩ := chain
    exact ⟨a, first⟩
  · intro first
    obtain ⟨a, first⟩ := first
    exact ⟨_, a, first, rfl⟩

/-- A result is settled by what it answers and by what it fails with. -/
theorem eq_of_imp {x y : Except ε α} (ok : ∀ a, x = .ok a → y = .ok a)
    (error : ∀ err, x = .error err → y = .error err) : x = y := by
  cases x with
  | error err => exact (error err rfl).symm
  | ok a => exact (ok a rfl).symm

/-- `Option::ok_or`. -/
theorem elim_error_eq_ok_iff {o : Option α} {err : ε} {a : α} :
    o.elim (.error err) Except.ok = .ok a ↔ o = some a := by
  cases o <;> simp

end Except
