import Mathlib.Tactic.Core

/-! # Errors of the server -/

namespace SyncServer

/-- The errors of a statement (`diesel::result::Error`). -/
inductive DbError where
  | notFound
  | uniqueViolation
  | foreignKeyViolation
  | checkViolation
  | numericOutOfRange
  | characterNotInRepertoire
deriving DecidableEq, Repr

/-- `errors::AppError`, and the panic of a handler. -/
inductive AppError where
  | database (error : DbError)
  | pool
  | notFound
  | unauthorized
  | forbidden
  | badRequest (message : String)
  | conflict (message : String)
  | tooManyRequests (message : String)
  | internal (message : String)
  | panicked
deriving DecidableEq, Repr

/-- Fail with a bad request unless the condition holds. -/
def require (condition : Bool) (message : String) : Except AppError Unit :=
  if condition then .ok () else .error (.badRequest message)

theorem ok_bind {ε α β : Type} (a : α) (f : α → Except ε β) :
    ((Except.ok a : Except ε α) >>= f) = f a := rfl

theorem require_eq_ok {c : Bool} {m : String} : require c m = .ok () ↔ c = true := by
  cases c <;> simp [require]

theorem bind_eq_ok {ε α β : Type} {x : Except ε α} {f : α → Except ε β} {b : β} :
    (x >>= f) = .ok b ↔ ∃ a, x = .ok a ∧ f a = .ok b := by
  cases x with
  | ok a => simp [ok_bind]
  | error e => simp [bind, Except.bind]

theorem unit_bind_eq_ok {ε α : Type} {x : Except ε Unit} {f : Unit → Except ε α} {a : α} :
    (x >>= f) = .ok a ↔ x = .ok () ∧ f () = .ok a := by
  rw [bind_eq_ok]
  exact ⟨fun ⟨⟨⟩, h⟩ => h, fun h => ⟨(), h⟩⟩

theorem require_bind_eq_ok {α : Type} {c : Bool} {m : String} {f : Unit → Except AppError α}
    {a : α} : (require c m >>= f) = .ok a ↔ c = true ∧ f () = .ok a := by
  rw [unit_bind_eq_ok, require_eq_ok]

theorem bind_eq_error {α β : Type} {x : Except AppError α} {f : α → Except AppError β}
    {e : AppError} (h : (x >>= f) = .error e) : x = .error e ∨ ∃ a, x = .ok a ∧ f a = .error e := by
  cases x with
  | error e' =>
    cases h
    exact .inl rfl
  | ok a => exact .inr ⟨a, rfl, h⟩

theorem require_bind_eq_error {α : Type} {c : Bool} {m : String}
    {f : Unit → Except AppError α} {e : AppError} (h : (require c m >>= f) = .error e) :
    e = .badRequest m ∨ f () = .error e := by
  rcases bind_eq_error h with h | ⟨⟨⟩, -, h⟩
  · unfold require at h
    split at h <;> cases h
    exact .inl rfl
  · exact .inr h

theorem mapError_eq_ok {ε δ α : Type} {f : ε → δ} {x : Except ε α} {a : α} :
    x.mapError f = .ok a ↔ x = .ok a := by
  cases x <;> simp [Except.mapError]

end SyncServer
