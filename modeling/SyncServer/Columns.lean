import SyncServer.Schema

/-! # Columns beside the tables

The schema leaves out columns that only a few operations use. Programs that use such columns run on
the database together with them.
-/

namespace SyncServer
open Transaction

/-- A database with columns that `Db` leaves out. -/
structure Wide (γ : Type) where
  db : Db
  columns : γ

def Wide.setDb {γ : Type} (w : Wide γ) (d : Db) : Wide γ := { w with db := d }

@[simp] theorem Wide.setDb_db {γ : Type} (w : Wide γ) (d : Db) : (w.setDb d).db = d := rfl

@[simp] theorem Wide.setDb_columns {γ : Type} (w : Wide γ) (d : Db) :
    (w.setDb d).columns = w.columns := rfl

@[simp] theorem Wide.setDb_self {γ : Type} (w : Wide γ) : w.setDb w.db = w := rfl

/-- A program over the database and further columns. -/
abbrev WideQuery (γ α : Type) := Tx (Wide γ) RowLock AppError α

namespace WideQuery
variable {γ α : Type}

/-- A program that uses none of the further columns. -/
def onRows (q : Query α) : WideQuery γ α := q.onPart Wide.db Wide.setDb

theorem run_onRows (q : Query α) (w : Wide γ) :
    (onRows q).run w = ((q.run w.db).1, w.setDb (q.run w.db).2) :=
  Tx.run_onPart Wide.db Wide.setDb (fun _ => rfl) (fun _ _ => rfl) (fun _ _ _ => rfl) q w

theorem run_onRows_eq {q : Query α} {w : Wide γ} {r : Except AppError α} {d : Db}
    (h : q.run w.db = (r, d)) : (onRows q).run w = (r, w.setDb d) := by
  rw [run_onRows, h]

theorem run_onRows_read {q : Query α} {w : Wide γ} {r : Except AppError α}
    (h : q.run w.db = (r, w.db)) : (onRows q).run w = (r, w) := by
  rw [run_onRows, h, Wide.setDb_self]

theorem run_onRows_eq_ok {q : Query α} {w w' : Wide γ} {a : α} :
    (onRows q).run w = (.ok a, w') ↔ ∃ d, q.run w.db = (.ok a, d) ∧ w' = w.setDb d := by
  rw [run_onRows, Prod.mk.injEq]
  constructor
  · rintro ⟨hr, rfl⟩
    exact ⟨_, by rw [← hr], rfl⟩
  · rintro ⟨d, h, rfl⟩
    simp [h]

/-- What a statement writes to the further columns. -/
def setColumns (f : γ → γ) : WideQuery γ Unit :=
  .stmt (fun _ => []) (fun w => { w with columns := f w.columns }) (fun _ => ()) (fun _ => pure ())

@[simp] theorem run_setColumns (f : γ → γ) (w : Wide γ) :
    (setColumns f).run w = (.ok (), { w with columns := f w.columns }) := rfl

/-! ## Leaving the columns out -/

inductive SameOutcome {β : Type} (R : α → β → Prop) : Except AppError α → Except AppError β → Prop
  | ok {a : α} {b : β} (h : R a b) : SameOutcome R (.ok a) (.ok b)
  | error (e : AppError) : SameOutcome R (.error e) (.error e)

/-- Without the further columns, the program does what `q` does. -/
def Erases {β : Type} (R : α → β → Prop) (t : WideQuery γ α) (q : Query β) : Prop :=
  ∀ w, SameOutcome R (t.run w).1 (q.run w.db).1 ∧ (t.run w).2.db = (q.run w.db).2

section
variable {β δ η : Type} {R : α → β → Prop} {S : δ → η → Prop}

theorem Erases.ok {t : WideQuery γ α} {q : Query β} (h : Erases R t q) {w w' : Wide γ} {a : α}
    (hrun : t.run w = (.ok a, w')) : ∃ b, q.run w.db = (.ok b, w'.db) ∧ R a b := by
  obtain ⟨hsame, hdb⟩ := h w
  rw [hrun] at hsame hdb
  rcases hq : q.run w.db with ⟨r, d⟩
  rw [hq] at hsame hdb
  cases hsame with
  | ok hR => exact ⟨_, by rw [show w'.db = d from hdb], hR⟩

theorem Erases.bind {t : WideQuery γ α} {q : Query β} {f : α → WideQuery γ δ} {g : β → Query η}
    (h : Erases R t q) (hf : ∀ a b, R a b → Erases S (f a) (g b)) :
    Erases S (t >>= f) (q >>= g) := by
  intro w
  obtain ⟨hsame, hdb⟩ := h w
  rw [Tx.run_bind, Tx.run_bind]
  rcases ht : t.run w with ⟨r, w'⟩
  rcases hq : q.run w.db with ⟨r', d⟩
  rw [ht, hq] at hsame hdb
  obtain rfl : w'.db = d := hdb
  cases hsame with
  | ok hR => exact hf _ _ hR w'
  | error e => exact ⟨.error e, rfl⟩

theorem Erases.pure {a : α} {b : β} (h : R a b) :
    Erases R (Pure.pure a : WideQuery γ α) (Pure.pure b) := fun _ => ⟨.ok h, rfl⟩

theorem Erases.throw (e : AppError) :
    Erases R (MonadExcept.throw e : WideQuery γ α) (MonadExcept.throw e) := fun _ => ⟨.error e, rfl⟩

theorem Erases.onRows (q : Query α) : Erases Eq (WideQuery.onRows q : WideQuery γ α) q := by
  intro w
  rw [run_onRows]
  rcases q.run w.db with ⟨e | a, d⟩
  · exact ⟨.error e, rfl⟩
  · exact ⟨.ok rfl, rfl⟩

theorem Erases.onRows_bind {q : Query β} {f : β → WideQuery γ α}
    (h : ∀ b, Erases R (f b) (Pure.pure b)) : Erases R (WideQuery.onRows q >>= f) q := by
  intro w
  rw [Tx.run_bind, run_onRows]
  rcases q.run w.db with ⟨e | b, d⟩
  · exact ⟨.error e, rfl⟩
  · exact h b (w.setDb d)

theorem Erases.query {f : Wide γ → α} {g : Db → β} (h : ∀ w, R (f w) (g w.db)) :
    Erases R (Tx.query f) (Tx.query g) := fun w => ⟨.ok (h w), rfl⟩

theorem Erases.done (r : Except AppError α) :
    Erases Eq (Tx.done r : WideQuery γ α) (Tx.done r) := by
  intro w
  cases r with
  | ok a => exact ⟨.ok rfl, rfl⟩
  | error e => exact ⟨.error e, rfl⟩

theorem Erases.okOr (e : AppError) (o : Option α) :
    Erases Eq (Tx.okOr e o : WideQuery γ α) (Tx.okOr e o) := by
  cases o with
  | none => exact .throw e
  | some a => exact .pure rfl

theorem Erases.setColumns_bind {f : γ → γ} {k : Unit → WideQuery γ α} {q : Query β}
    (h : Erases R (k ()) q) : Erases R (setColumns f >>= k) q := by
  intro w
  rw [Tx.run_bind_ok (run_setColumns f w)]
  exact h _

theorem Erases.query_bind {f : Wide γ → δ} {k : δ → WideQuery γ α} {q : Query β}
    (h : ∀ w, Erases R (k (f w)) q) : Erases R (Tx.query f >>= k) q := by
  intro w
  rw [Tx.run_bind_ok (Tx.run_query f w)]
  exact h w w

theorem Erases.ite {c : Prop} [Decidable c] {t t' : WideQuery γ α} {q q' : Query β}
    (h : c → Erases R t q) (h' : ¬ c → Erases R t' q') :
    Erases R (if c then t else t') (if c then q else q') := by
  by_cases hc : c
  · rw [if_pos hc, if_pos hc]
    exact h hc
  · rw [if_neg hc, if_neg hc]
    exact h' hc

end
end WideQuery
end SyncServer
