import Mathlib.Logic.Function.Basic
import Mathlib.Tactic.Common

/-! # Database programs as trees of SQL statements

A program is a tree whose nodes are single statements. A statement names the
rows it locks, says how it rewrites the database, and gives an answer that the
rest of the program may use. The same tree is executed alone (`run`,
`atomically`), interleaved as a transaction, or interleaved statement by statement.
-/

namespace SyncServer.Transaction

/-- A database program over databases `σ`, lockable rows `κ`, errors `ε`. -/
inductive Tx (σ κ ε α : Type) : Type 1 where
  | done (result : Except ε α)
  | stmt {ρ : Type} (locks : σ → List κ) (write : σ → σ) (answer : σ → ρ)
      (next : ρ → Tx σ κ ε α)

namespace Tx
variable {σ κ ε α β γ : Type}

def bind : Tx σ κ ε α → (α → Tx σ κ ε β) → Tx σ κ ε β
  | .done (.ok a), f => f a
  | .done (.error e), _ => .done (.error e)
  | .stmt l w a n, f => .stmt l w a (fun r => (n r).bind f)

instance : Monad (Tx σ κ ε) where
  pure a := .done (.ok a)
  bind := bind

/-- Execute a program and hand its result on, whether it is a value or an error. -/
def attempt : Tx σ κ ε α → Tx σ κ ε (Except ε α)
  | .done r => .done (.ok r)
  | .stmt l w a n => .stmt l w a (fun r => (n r).attempt)

instance : MonadExceptOf ε (Tx σ κ ε) where
  throw e := .done (.error e)
  tryCatch x handle := x.attempt.bind (fun r => match r with
    | .ok a => .done (.ok a)
    | .error e => handle e)

/-- A program on the part `τ` of larger states `σ`. -/
def onPart {τ : Type} (get : σ → τ) (set : σ → τ → σ) : Tx τ κ ε α → Tx σ κ ε α
  | .done r => .done r
  | .stmt l w a n => .stmt (fun s => l (get s)) (fun s => set s (w (get s))) (fun s => a (get s))
      (fun r => (n r).onPart get set)

/-- A statement that only reads. -/
def query (q : σ → α) : Tx σ κ ε α := .stmt (fun _ => []) id q (fun r => .done (.ok r))

/-- The answer of a statement that may fail. -/
def outcome (f : σ → Except ε (α × σ)) (s : σ) : Except ε α := (f s).map Prod.fst

/-- The write of a statement that may fail: a statement that fails changes nothing. -/
def effect (f : σ → Except ε (α × σ)) (s : σ) : σ :=
  match f s with
  | .ok (_, s') => s'
  | .error _ => s

/-- A statement that locks rows, and then either writes and answers, or fails. -/
def exec (locks : σ → List κ) (f : σ → Except ε (α × σ)) : Tx σ κ ε α :=
  .stmt locks (effect f) (outcome f) .done

/-- Fail with `e` unless the value is present. -/
def okOr (e : ε) : Option α → Tx σ κ ε α
  | some a => pure a
  | none => throw e

/-- Execute the statements one after another, with nothing in between. -/
def run : Tx σ κ ε α → σ → Except ε α × σ
  | .done r, s => (r, s)
  | .stmt _ w a n, s => (n (a s)).run (w s)

/-- Execute as a transaction of its own: an error restores the database. -/
def atomically (t : Tx σ κ ε α) (s : σ) : Except ε α × σ :=
  match t.run s with
  | (.ok a, s') => (.ok a, s')
  | (.error e, _) => (.error e, s)

@[simp] theorem run_done (r : Except ε α) (s : σ) : (done r : Tx σ κ ε α).run s = (r, s) := rfl

@[simp] theorem run_stmt {ρ : Type} (l : σ → List κ) (w : σ → σ) (a : σ → ρ)
    (n : ρ → Tx σ κ ε α) (s : σ) : (stmt l w a n).run s = (n (a s)).run (w s) := rfl

@[simp] theorem run_pure (a : α) (s : σ) : (pure a : Tx σ κ ε α).run s = (.ok a, s) := rfl

@[simp] theorem run_throw (e : ε) (s : σ) : (throw e : Tx σ κ ε α).run s = (.error e, s) := rfl

@[simp] theorem run_query (q : σ → α) (s : σ) :
    (query q : Tx σ κ ε α).run s = (.ok (q s), s) := rfl

@[simp] theorem run_exec (l : σ → List κ) (f : σ → Except ε (α × σ)) (s : σ) :
    (exec l f).run s = (outcome f s, effect f s) := rfl

theorem run_exec_ok {l : σ → List κ} {f : σ → Except ε (α × σ)} {s s' : σ} {a : α} :
    (exec l f).run s = (.ok a, s') ↔ f s = .ok (a, s') := by
  rw [run_exec, outcome, effect]
  rcases f s with e | ⟨b, t⟩ <;> simp [Except.map]

theorem run_exec_error {l : σ → List κ} {f : σ → Except ε (α × σ)} {s s' : σ} {e : ε} :
    (exec l f).run s = (.error e, s') ↔ f s = .error e ∧ s' = s := by
  rw [run_exec, outcome, effect]
  rcases f s with e | ⟨b, t⟩ <;> simp [Except.map, eq_comm]

@[simp] theorem run_okOr (e : ε) (o : Option α) (s : σ) :
    (okOr e o : Tx σ κ ε α).run s = (o.elim (.error e) .ok, s) := by
  cases o <;> rfl

theorem run_okOr_ok {e : ε} {o : Option α} {s s' : σ} {a : α} :
    (okOr e o : Tx σ κ ε α).run s = (.ok a, s') ↔ o = some a ∧ s' = s := by
  cases o <;> simp [eq_comm]

theorem bind_assoc (t : Tx σ κ ε α) (f : α → Tx σ κ ε β) (g : β → Tx σ κ ε γ) :
    (t >>= f) >>= g = t >>= fun a => f a >>= g := by
  induction t with
  | done r => cases r <;> rfl
  | stmt l w a n ih =>
    change Tx.stmt l w a (fun r => ((n r) >>= f) >>= g) = .stmt l w a (fun r => n r >>= _)
    congr 1
    funext r
    exact ih r

theorem bind_pure (t : Tx σ κ ε α) : (t >>= fun a => pure a) = t := by
  induction t with
  | done r => cases r <;> rfl
  | stmt l w a n ih =>
    change Tx.stmt l w a (fun r => n r >>= fun a => pure a) = .stmt l w a n
    congr 1
    funext r
    exact ih r

theorem run_bind (t : Tx σ κ ε α) (f : α → Tx σ κ ε β) (s : σ) :
    (t >>= f).run s = match t.run s with
      | (.ok a, s') => (f a).run s'
      | (.error e, s') => (.error e, s') := by
  induction t generalizing s with
  | done r => cases r <;> rfl
  | stmt l w a n ih => exact ih (a s) (w s)

theorem run_bind_ok {t : Tx σ κ ε α} {s s' : σ} {a : α} (h : t.run s = (.ok a, s'))
    (f : α → Tx σ κ ε β) : (t >>= f).run s = (f a).run s' := by
  rw [run_bind, h]

theorem run_bind_error {t : Tx σ κ ε α} {s s' : σ} {e : ε} (h : t.run s = (.error e, s'))
    (f : α → Tx σ κ ε β) : (t >>= f).run s = (.error e, s') := by
  rw [run_bind, h]

theorem run_bind_eq_ok {t : Tx σ κ ε α} {f : α → Tx σ κ ε β} {s s'' : σ} {b : β}
    (h : (t >>= f).run s = (.ok b, s'')) :
    ∃ a s', t.run s = (.ok a, s') ∧ (f a).run s' = (.ok b, s'') := by
  rw [run_bind] at h
  rcases ht : t.run s with ⟨r, s'⟩
  rw [ht] at h
  cases r with
  | ok a => exact ⟨a, s', rfl, h⟩
  | error e => simp at h

theorem run_done_bind_eq_ok {r : Except ε α} {f : α → Tx σ κ ε β} {s s' : σ} {b : β} :
    (done r >>= f).run s = (.ok b, s') ↔ ∃ a, r = .ok a ∧ (f a).run s = (.ok b, s') := by
  constructor
  · intro h
    obtain ⟨a, s₁, hr, hf⟩ := run_bind_eq_ok h
    cases hr
    exact ⟨a, rfl, hf⟩
  · rintro ⟨a, rfl, hf⟩
    exact (run_bind_ok (run_done _ s) f).trans hf

/-- The program ends without an error. -/
def Succeeds (t : Tx σ κ ε α) (s : σ) : Prop := ∃ a s', t.run s = (.ok a, s')

theorem not_succeeds {t : Tx σ κ ε α} {s : σ} :
    ¬ t.Succeeds s ↔ ∃ e s', t.run s = (.error e, s') := by
  unfold Succeeds
  rcases t.run s with ⟨e | a, s'⟩ <;> simp

theorem succeeds_pure (a : α) (s : σ) : (pure a : Tx σ κ ε α).Succeeds s := ⟨a, s, rfl⟩

theorem succeeds_bind {t : Tx σ κ ε α} {f : α → Tx σ κ ε β} {s : σ} :
    (t >>= f).Succeeds s ↔ ∃ a s', t.run s = (.ok a, s') ∧ (f a).Succeeds s' := by
  constructor
  · rintro ⟨b, s'', h⟩
    obtain ⟨a, s', ht, hf⟩ := run_bind_eq_ok h
    exact ⟨a, s', ht, b, s'', hf⟩
  · rintro ⟨a, s', ht, b, s'', hf⟩
    exact ⟨b, s'', by rw [run_bind_ok ht, hf]⟩

theorem succeeds_done_bind {r : Except ε α} {f : α → Tx σ κ ε β} {s : σ} :
    (done r >>= f).Succeeds s ↔ ∃ a, r = .ok a ∧ (f a).Succeeds s := by
  constructor
  · rintro ⟨b, s', h⟩
    obtain ⟨a, hr, hf⟩ := run_done_bind_eq_ok.mp h
    exact ⟨a, hr, b, s', hf⟩
  · rintro ⟨a, hr, b, s', hf⟩
    exact ⟨b, s', run_done_bind_eq_ok.mpr ⟨a, hr, hf⟩⟩

theorem succeeds_query_bind {q : σ → α} {f : α → Tx σ κ ε β} {s : σ} :
    (query q >>= f).Succeeds s ↔ (f (q s)).Succeeds s := by
  unfold Succeeds
  rw [run_bind_ok (run_query q s)]

theorem succeeds_okOr_bind {e : ε} {o : Option α} {f : α → Tx σ κ ε β} {s : σ} :
    (okOr e o >>= f).Succeeds s ↔ ∃ a, o = some a ∧ (f a).Succeeds s := by
  rw [succeeds_bind]
  simp only [run_okOr_ok]
  constructor
  · rintro ⟨a, s', ⟨ho, rfl⟩, hf⟩
    exact ⟨a, ho, hf⟩
  · rintro ⟨a, ho, hf⟩
    exact ⟨a, s, ⟨ho, rfl⟩, hf⟩

theorem succeeds_bind_pure {t : Tx σ κ ε α} {f : α → β} {s : σ} :
    (t >>= fun a => pure (f a)).Succeeds s ↔ t.Succeeds s := by
  rw [succeeds_bind]
  exact ⟨fun ⟨a, s', ht, _⟩ => ⟨a, s', ht⟩, fun ⟨a, s', ht⟩ => ⟨a, s', ht, succeeds_pure _ _⟩⟩

@[simp] theorem run_attempt (t : Tx σ κ ε α) (s : σ) :
    t.attempt.run s = (.ok (t.run s).1, (t.run s).2) := by
  induction t generalizing s with
  | done r => rfl
  | stmt l w a n ih => exact ih (a s) (w s)

theorem run_onPart {τ : Type} (get : σ → τ) (set : σ → τ → σ) (h₁ : ∀ s, set s (get s) = s)
    (h₂ : ∀ s d, get (set s d) = d) (h₃ : ∀ s d d', set (set s d) d' = set s d')
    (t : Tx τ κ ε α) (s : σ) :
    (t.onPart get set).run s = ((t.run (get s)).1, set s (t.run (get s)).2) := by
  induction t generalizing s with
  | done r => simp [onPart, h₁]
  | stmt l w a n ih =>
    rw [onPart, run_stmt, run_stmt, ih, h₂, h₃]

theorem onPart_bind {τ : Type} (get : σ → τ) (set : σ → τ → σ) (t : Tx τ κ ε α)
    (f : α → Tx τ κ ε β) :
    (t >>= f).onPart get set = t.onPart get set >>= fun a => (f a).onPart get set := by
  induction t with
  | done r => cases r <;> rfl
  | stmt l w a n ih =>
    change Tx.stmt _ _ _ (fun r => ((n r) >>= f).onPart get set) = .stmt _ _ _ (fun r => _ >>= _)
    congr 1
    funext r
    exact ih r

theorem atomically_ok {t : Tx σ κ ε α} {s s' : σ} {a : α} (h : t.run s = (.ok a, s')) :
    t.atomically s = (.ok a, s') := by
  simp [atomically, h]

theorem atomically_error {t : Tx σ κ ε α} {s : σ} {e : ε} (h : (t.atomically s).1 = .error e) :
    (t.atomically s).2 = s := by
  unfold atomically at h ⊢
  split <;> simp_all

theorem atomically_of_error {t : Tx σ κ ε α} {s s' : σ} {e : ε} (h : t.run s = (.error e, s')) :
    t.atomically s = (.error e, s) := by
  rw [atomically, h]

theorem atomically_eq_ok {t : Tx σ κ ε α} {s s' : σ} {a : α} :
    t.atomically s = (.ok a, s') ↔ t.run s = (.ok a, s') := by
  unfold atomically
  rcases t.run s with ⟨_ | _, _⟩ <;> simp

theorem atomically_snd_cases (t : Tx σ κ ε α) (s : σ) :
    (∃ a, t.run s = (.ok a, (t.atomically s).2)) ∨ (t.atomically s).2 = s := by
  unfold atomically
  rcases h : t.run s with ⟨_ | a, s'⟩
  · exact .inr rfl
  · exact .inl ⟨a, rfl⟩

/-- A transaction as a single step of a larger program, with nothing in between. -/
def asStatement (t : Tx σ κ ε α) : Tx σ κ ε α :=
  exec (fun _ => []) (fun s =>
    match t.run s with
    | (.ok a, s') => .ok (a, s')
    | (.error e, _) => .error e)

theorem run_asStatement (t : Tx σ κ ε α) (s : σ) : t.asStatement.run s = t.atomically s := by
  rw [asStatement, run_exec, outcome, effect, atomically]
  rcases t.run s with ⟨_ | a, s'⟩ <;> rfl

end Tx
end SyncServer.Transaction
