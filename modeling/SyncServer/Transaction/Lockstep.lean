import SyncServer.Transaction.Frame

/-! # Two executions of one program

The same program is executed on two databases. If its statements answer alike, so does the program,
and the databases that it leaves are related as those that its statements leave.
-/

namespace SyncServer.Transaction

/-- The two executions have ended alike: with one result and related databases, or with one
error. -/
inductive Alike {σ ε α : Type} (R : σ → σ → Prop) : Except ε α × σ → Except ε α × σ → Prop where
  | ok (a : α) {s t : σ} (h : R s t) : Alike R (.ok a, s) (.ok a, t)
  | error (e : ε) (s t : σ) : Alike R (.error e, s) (.error e, t)

namespace Tx
variable {σ κ ε α β τ : Type} {R R' : σ → σ → Prop} {s t : σ}

theorem alike_pure (a : α) (h : R s t) :
    Alike R ((pure a : Tx σ κ ε α).run s) ((pure a : Tx σ κ ε α).run t) := .ok a h

theorem alike_throw (e : ε) :
    Alike R ((throw e : Tx σ κ ε α).run s) ((throw e : Tx σ κ ε α).run t) := .error e s t

theorem alike_query {q : σ → α} (hq : q s = q t) (h : R s t) :
    Alike R ((query q : Tx σ κ ε α).run s) ((query q : Tx σ κ ε α).run t) := by
  rw [run_query, run_query, hq]
  exact .ok (q t) h

theorem alike_bind {p : Tx σ κ ε α} {f : α → Tx σ κ ε β} (hp : Alike R (p.run s) (p.run t))
    (hf : ∀ a s' t', p.run s = (.ok a, s') → p.run t = (.ok a, t') → R s' t' →
      Alike R' ((f a).run s') ((f a).run t')) :
    Alike R' ((p >>= f).run s) ((p >>= f).run t) := by
  rcases hs : p.run s with ⟨e | a, s'⟩
  · rw [hs] at hp
    generalize ht : p.run t = y at hp
    cases hp
    rw [run_bind_error hs, run_bind_error ht]
    exact .error e _ _
  · rw [hs] at hp
    generalize ht : p.run t = y at hp
    cases hp with
    | ok _ h =>
      rw [run_bind_ok hs, run_bind_ok ht]
      exact hf a s' _ hs ht h

theorem alike_mono {x y : Except ε α × σ} (h : Alike R x y) (hR : ∀ s t, R s t → R' s t) :
    Alike R' x y := by
  cases h with
  | ok a h => exact .ok a (hR _ _ h)
  | error e s t => exact .error e s t

/-- What works on the part `π` of the database does the same where the parts are the same. -/
theorem Local.alike {π : σ → τ} {p : Tx σ κ ε α} (hp : p.Local π) (h : π s = π t) :
    Alike (fun s t => π s = π t) (p.run s) (p.run t) := by
  induction p generalizing s t with
  | done r =>
    cases r with
    | ok a => exact .ok a h
    | error e => exact .error e s t
  | stmt l w a n ih =>
    rw [run_stmt, run_stmt, hp.1 s t h]
    exact ih (a t) (hp.2.2 _) (hp.2.1 s t h)

theorem Keeps.alike {c : σ → τ} {p : Tx σ κ ε α} (hc : p.Keeps c) (h : Alike R (p.run s) (p.run t)) :
    Alike (fun s' t' => R s' t' ∧ c s' = c s ∧ c t' = c t) (p.run s) (p.run t) := by
  have hs := hc.run s
  have ht := hc.run t
  generalize p.run s = x at h hs
  generalize p.run t = y at h ht
  cases h with
  | ok a h => exact .ok a ⟨h, hs, ht⟩
  | error e s' t' => exact .error e s' t'

theorem alike_atomically {p : Tx σ κ ε α} (hp : Alike R (p.run s) (p.run t)) (h : R s t) :
    (p.atomically s).1 = (p.atomically t).1 ∧ R (p.atomically s).2 (p.atomically t).2 := by
  unfold atomically
  generalize p.run s = x at hp
  generalize p.run t = y at hp
  cases hp with
  | ok a h' => exact ⟨rfl, h'⟩
  | error e s' t' => exact ⟨rfl, h⟩

end Tx
end SyncServer.Transaction
