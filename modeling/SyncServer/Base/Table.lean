import Mathlib.Data.Fintype.EquivFin
import Mathlib.Data.List.Nodup
import Mathlib.Tactic.Common

/-! # Tables with a primary key

A table is a list of rows in which no two rows have the same key. The
operations are those of SQL: look a row up, insert, update and delete.
-/

namespace SyncServer

/-- Rows of type `α` with a primary key in `κ`. -/
structure Table (κ α : Type) (key : α → κ) where
  rows : List α
  keys_nodup : (rows.map key).Nodup

namespace Table
variable {κ α : Type} {key : α → κ} [DecidableEq κ]

instance [DecidableEq α] : DecidableEq (Table κ α key) := fun t t' =>
  decidable_of_iff (t.rows = t'.rows) (by cases t; cases t'; simp)

def empty : Table κ α key := ⟨[], List.nodup_nil⟩

/-- The table with one row. -/
def single (r : α) : Table κ α key := ⟨[r], List.nodup_singleton _⟩

/-- The row with a given key. -/
def get (t : Table κ α key) (k : κ) : Option α := t.rows.find? (fun r => key r = k)

/-- `INSERT`; there is no table when the key is taken. -/
def insert (t : Table κ α key) (r : α) : Option (Table κ α key) :=
  if h : key r ∈ t.rows.map key then none
  else some ⟨t.rows ++ [r], by
    rw [List.map_append]
    exact List.nodup_append.mpr ⟨t.keys_nodup, List.nodup_singleton _, by
      intro a ha b hb hab
      simp only [List.map_cons, List.map_nil, List.mem_singleton] at hb
      exact h (hb ▸ hab ▸ ha)⟩⟩

/-- `UPDATE` of all rows; the key stays. -/
def map (t : Table κ α key) (f : α → α) (hf : ∀ r, key (f r) = key r) : Table κ α key :=
  ⟨t.rows.map f, by rw [List.map_map, show key ∘ f = key from funext hf]; exact t.keys_nodup⟩

/-- `UPDATE` of the row with key `k`. -/
def update (t : Table κ α key) (k : κ) (f : α → α) (hf : ∀ r, key (f r) = key r) :
    Table κ α key :=
  t.map (fun r => if key r = k then f r else r) (by intro r; split <;> simp [hf])

/-- `DELETE` of the rows that do not satisfy `p`. -/
def filter (t : Table κ α key) (p : α → Bool) : Table κ α key :=
  ⟨t.rows.filter p, (List.Sublist.map key List.filter_sublist).nodup t.keys_nodup⟩

omit [DecidableEq κ] in
@[ext] theorem ext {t t' : Table κ α key} (h : t.rows = t'.rows) : t = t' := by
  cases t
  cases t'
  simp_all

theorem get_eq_some {t : Table κ α key} {k : κ} {r : α} :
    t.get k = some r ↔ r ∈ t.rows ∧ key r = k := by
  constructor
  · intro h
    exact ⟨List.mem_of_find?_eq_some h, by simpa using List.find?_some h⟩
  · rintro ⟨hr, hk⟩
    have hsome : (t.get k).isSome := by
      rw [get, List.find?_isSome]
      exact ⟨r, hr, by simpa using hk⟩
    obtain ⟨r', hr'⟩ := Option.isSome_iff_exists.mp hsome
    have hkey : key r' = k := by simpa using List.find?_some hr'
    have : r' = r := List.inj_on_of_nodup_map t.keys_nodup (List.mem_of_find?_eq_some hr') hr
      (hkey.trans hk.symm)
    rw [hr', this]

theorem key_of_get {t : Table κ α key} {k : κ} {r : α} (h : t.get k = some r) : key r = k :=
  (get_eq_some.mp h).2

theorem get_eq_none {t : Table κ α key} {k : κ} : t.get k = none ↔ k ∉ t.rows.map key := by
  simp [get]

@[simp] theorem get_empty (k : κ) : (empty : Table κ α key).get k = none := rfl

theorem insert_eq_none {t : Table κ α key} {r : α} :
    t.insert r = none ↔ (t.get (key r)).isSome := by
  rw [← Option.ne_none_iff_isSome, ne_eq, get_eq_none, insert]
  split <;> simp_all

theorem exists_free [Infinite κ] (t : Table κ α key) : ∃ k, t.get k = none := by
  obtain ⟨k, hk⟩ := Infinite.exists_notMem_finset (t.rows.map key).toFinset
  exact ⟨k, get_eq_none.mpr (fun h => hk (List.mem_toFinset.mpr h))⟩

theorem rows_of_insert {t t' : Table κ α key} {r : α} (h : t.insert r = some t') :
    t'.rows = t.rows ++ [r] := by
  unfold insert at h
  split at h
  · cases h
  · cases h
    rfl

theorem get_eq_none_of_insert {t t' : Table κ α key} {r : α} (h : t.insert r = some t') :
    t.get (key r) = none := by
  by_contra hne
  have := insert_eq_none.mpr (Option.ne_none_iff_isSome.mp hne)
  simp [this] at h

theorem get_of_insert {t t' : Table κ α key} {r : α} (h : t.insert r = some t') (k : κ) :
    t'.get k = if key r = k then some r else t.get k := by
  by_cases hk : key r = k
  · subst hk
    rw [if_pos rfl, get_eq_some, rows_of_insert h]
    simp
  · rw [if_neg hk, get, rows_of_insert h, List.find?_append]
    simp [get, hk]

theorem get_insert_self {t t' : Table κ α key} {r : α} (h : t.insert r = some t') :
    t'.get (key r) = some r := by
  rw [get_of_insert h, if_pos rfl]

@[simp] theorem get_map (t : Table κ α key) (f : α → α) (hf : ∀ r, key (f r) = key r) (k : κ) :
    (t.map f hf).get k = (t.get k).map f := by
  simp only [get, map, List.find?_map, Function.comp_def, hf]

@[simp] theorem get_update_self (t : Table κ α key) (k : κ) (f : α → α)
    (hf : ∀ r, key (f r) = key r) : (t.update k f hf).get k = (t.get k).map f := by
  rw [update, get_map]
  rcases h : t.get k with _ | r
  · rfl
  · simp [key_of_get h]

@[simp] theorem get_update_of_ne (t : Table κ α key) {k k' : κ} (f : α → α)
    (hf : ∀ r, key (f r) = key r) (h : k' ≠ k) : (t.update k f hf).get k' = t.get k' := by
  rw [update, get_map]
  rcases hr : t.get k' with _ | r
  · rfl
  · simp [key_of_get hr, h]

omit [DecidableEq κ] in
theorem map_id (t : Table κ α key) {f : α → α} (hf : ∀ r, key (f r) = key r) (h : ∀ r, f r = r) :
    t.map f hf = t := by
  apply ext
  change t.rows.map f = t.rows
  rw [show f = id from funext h, List.map_id]

omit [DecidableEq κ] in
theorem map_congr (t : Table κ α key) {f g : α → α} (hf : ∀ r, key (f r) = key r)
    (hg : ∀ r, key (g r) = key r) (h : ∀ r, f r = g r) : t.map f hf = t.map g hg := by
  obtain rfl : f = g := funext h
  rfl

omit [DecidableEq κ] in
theorem map_map (t : Table κ α key) {f g : α → α} (hf : ∀ r, key (f r) = key r)
    (hg : ∀ r, key (g r) = key r) :
    (t.map f hf).map g hg = t.map (g ∘ f) (fun r => (hg _).trans (hf r)) :=
  ext (List.map_map)

omit [DecidableEq κ] in
/-- The rows look the same after `f` as after `f'` on what is seen of them. -/
theorem map_factor (t : Table κ α key) {f f' g : α → α} (hf : ∀ r, key (f r) = key r)
    (hf' : ∀ r, key (f' r) = key r) (hg : ∀ r, key (g r) = key r)
    (h : ∀ r, g (f r) = g (f' (g r))) :
    (t.map f hf).map g hg = ((t.map g hg).map f' hf').map g hg := by
  rw [map_map, map_map, map_map]
  exact map_congr _ _ _ h

omit [DecidableEq κ] in
/-- The rows look the same whichever of `f` and `f'` comes first. -/
theorem map_comm (t : Table κ α key) {f f' g : α → α} (hf : ∀ r, key (f r) = key r)
    (hf' : ∀ r, key (f' r) = key r) (hg : ∀ r, key (g r) = key r)
    (h : ∀ r, g (f' (f r)) = g (f (f' r))) :
    ((t.map f hf).map f' hf').map g hg = ((t.map f' hf').map f hf).map g hg := by
  rw [map_map, map_map, map_map, map_map]
  exact map_congr _ _ _ h

theorem update_congr {t : Table κ α key} {k : κ} {r : α} (h : t.get k = some r) {f g : α → α}
    (hf : ∀ r, key (f r) = key r) (hg : ∀ r, key (g r) = key r) (hfg : f r = g r) :
    t.update k f hf = t.update k g hg := by
  apply ext
  refine List.map_congr_left (fun r' hr' => ?_)
  by_cases hk : key r' = k
  · obtain rfl : r' = r := Option.some.inj ((get_eq_some.mpr ⟨hr', hk⟩).symm.trans h)
    rw [if_pos hk, if_pos hk, hfg]
  · rw [if_neg hk, if_neg hk]

theorem update_update (t : Table κ α key) (k : κ) {f g : α → α} (hf : ∀ r, key (f r) = key r)
    (hg : ∀ r, key (g r) = key r) :
    (t.update k f hf).update k g hg = t.update k (g ∘ f) (fun r => (hg _).trans (hf r)) := by
  apply ext
  simp only [update, map, List.map_map]
  refine List.map_congr_left (fun r _ => ?_)
  by_cases hk : key r = k <;> simp [hk, hf]

section
variable {σ β : Type} {table : σ → Table κ α key} {step : σ → β → σ} {f : α → β → α}
  (hf : ∀ b r, key (f r b) = key r)
  (hstep : ∀ s b, table (step s b) = (table s).map (fun r => f r b) (hf b))
include hstep

theorem get_foldl (l : List β) (s : σ) (k : κ) :
    (table (l.foldl step s)).get k = ((table s).get k).map (fun r => l.foldl f r) := by
  induction l generalizing s with
  | nil => simp
  | cons b l ih =>
    rw [List.foldl_cons, ih, hstep, get_map, Option.map_map]
    rfl

omit [DecidableEq κ] in
theorem keys_foldl (l : List β) (s : σ) :
    (table (l.foldl step s)).rows.map key = (table s).rows.map key := by
  induction l generalizing s with
  | nil => rfl
  | cons b l ih =>
    rw [List.foldl_cons, ih, hstep, map, List.map_map]
    exact List.map_congr_left (fun r _ => hf b r)

end

theorem isSome_get_update (t : Table κ α key) (k k' : κ) (f : α → α)
    (hf : ∀ r, key (f r) = key r) : ((t.update k f hf).get k').isSome = (t.get k').isSome := by
  by_cases h : k' = k
  · subst h
    simp
  · rw [get_update_of_ne _ _ _ h]

@[simp] theorem get_filter (t : Table κ α key) (p : α → Bool) (k : κ) :
    (t.filter p).get k = (t.get k).filter p := by
  ext r
  rw [get_eq_some, Option.filter_eq_some_iff, get_eq_some]
  simp only [filter, List.mem_filter]
  tauto

theorem get_filter_of_key (t : Table κ α key) {p : α → Bool} {k : κ}
    (hp : ∀ r, key r = k → p r = true) : (t.filter p).get k = t.get k := by
  rw [get_filter]
  rcases h : t.get k with _ | r
  · rfl
  · exact Option.filter_some_pos (hp r (key_of_get h))

theorem rows_with_key {t : Table κ α key} {k : κ} {r : α} (h : t.get k = some r) :
    t.rows.filter (fun x => decide (key x = k)) = [r] := by
  have hnodup : (t.rows.filter (fun x => decide (key x = k))).Nodup :=
    (t.keys_nodup.of_map key).filter _
  rw [← List.perm_singleton, List.perm_ext_iff_of_nodup hnodup (List.nodup_singleton r)]
  intro x
  rw [List.mem_filter, decide_eq_true_eq, List.mem_singleton, ← get_eq_some, h, Option.some.injEq,
    eq_comm]

theorem isSome_get {t : Table κ α key} {k : κ} : (t.get k).isSome ↔ k ∈ t.rows.map key := by
  rw [← Option.ne_none_iff_isSome, ne_eq, get_eq_none, not_not]

theorem get_filter_key (t : Table κ α key) (q : κ → Bool) (k : κ) :
    (t.filter (fun r => q (key r))).get k = if q k then t.get k else none := by
  rw [get_filter]
  rcases h : t.get k with _ | r
  · simp
  · by_cases hq : q k <;> simp [key_of_get h, hq]

theorem get_append {t t' : Table κ α key} {l : List α} (h : t'.rows = t.rows ++ l) (k : κ) :
    t'.get k = (t.get k).or (l.find? (fun r => key r = k)) := by
  rw [get, h, List.find?_append, get]

theorem filter_insert {t t' : Table κ α key} {p : α → Bool} {r : α} (h : t.insert r = some t')
    (hp : p r = true) : (t'.filter p).rows = (t.filter p).rows ++ [r] := by
  simp [filter, rows_of_insert h, hp]

theorem filter_update (t : Table κ α key) {p : α → Bool} (k : κ) (f : α → α)
    (hf : ∀ r, key (f r) = key r) (hp : ∀ r, p (f r) = p r) :
    (t.update k f hf).filter p = (t.filter p).update k f hf := by
  apply Table.ext
  simp only [filter, update, map, List.filter_map]
  congr 1
  apply List.filter_congr
  intro r _
  simp only [Function.comp_apply]
  split
  · exact hp r
  · rfl

theorem filter_update_of_not (t : Table κ α key) {p : α → Bool} (k : κ) (f : α → α)
    (hf : ∀ r, key (f r) = key r) (hp : ∀ r, key r = k → p r = false ∧ p (f r) = false) :
    (t.update k f hf).filter p = t.filter p := by
  apply Table.ext
  simp only [filter, update, map]
  induction t.rows with
  | nil => rfl
  | cons r rest ih =>
    rw [List.map_cons, List.filter_cons, List.filter_cons, ih]
    by_cases h : key r = k
    · simp [h, hp r h]
    · simp [h]

omit [DecidableEq κ] in
theorem filter_filter (t : Table κ α key) (p q : α → Bool) :
    (t.filter q).filter p = t.filter (fun r => p r && q r) := by
  apply Table.ext
  simp [filter, List.filter_filter]

omit [DecidableEq κ] in
theorem filter_filter_of_imp (t : Table κ α key) {p q : α → Bool}
    (h : ∀ r ∈ t.rows, p r = true → q r = true) : (t.filter q).filter p = t.filter p := by
  rw [filter_filter]
  apply Table.ext
  apply List.filter_congr
  intro r hr
  by_cases hp : p r = true
  · rw [hp, h r hr hp, Bool.and_self]
  · simp [hp]

omit [DecidableEq κ] in
theorem filter_append_of_not {t t' : Table κ α key} {p : α → Bool} {l : List α}
    (h : t'.rows = t.rows ++ l) (hl : ∀ r ∈ l, p r = false) : t'.filter p = t.filter p := by
  have hnone : l.filter p = [] := List.filter_eq_nil_iff.mpr (by simpa using hl)
  apply Table.ext
  simp [filter, h, hnone]

end Table
end SyncServer
