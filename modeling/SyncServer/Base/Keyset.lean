import Mathlib.Algebra.BigOperators.Group.List.Basic
import Mathlib.Data.List.Sort

/-! # Keyset pagination

Rows are read in pages, in descending order of a key; a page starts below the key of the last row
of the page before. Between two pages the rows may change above what has been read. The pages
are then still those of the first database, one after another.
-/

namespace SyncServer

/-! ## Descending lists -/

section
variable {α κ : Type} [LinearOrder κ] (key : α → κ)

/-- `ORDER BY key DESC`. -/
def newestFirst (rows : List α) : List α := rows.insertionSort (fun a b => key b ≤ key a)

/-- The rows below a key; without a key, all rows. -/
def rowsBelow (k : Option κ) (rows : List α) : List α :=
  rows.filter (fun r => k.all (fun k => decide (key r < k)))

@[simp] theorem mem_newestFirst {rows : List α} {r : α} : r ∈ newestFirst key rows ↔ r ∈ rows :=
  List.mem_insertionSort _

@[simp] theorem mem_rowsBelow {k : Option κ} {rows : List α} {r : α} :
    r ∈ rowsBelow key k rows ↔ r ∈ rows ∧ ∀ x ∈ k, key r < x := by
  cases k <;> simp [rowsBelow]

theorem rowsBelow_nodup {rows : List α} (h : (rows.map key).Nodup) (k : Option κ) :
    ((rowsBelow key k rows).map key).Nodup :=
  (List.Sublist.map key List.filter_sublist).nodup h

variable {key}

theorem newestFirst_descending {rows : List α} (h : (rows.map key).Nodup) :
    (newestFirst key rows).Pairwise (fun a b => key b < key a) := by
  have hle : (newestFirst key rows).Pairwise (fun a b => key b ≤ key a) := by
    have : Std.Total (fun a b : α => key b ≤ key a) := ⟨fun a b => le_total (key b) (key a)⟩
    have : IsTrans α (fun a b : α => key b ≤ key a) := ⟨fun a b c hab hbc => hbc.trans hab⟩
    exact List.pairwise_insertionSort _ rows
  have hne : (newestFirst key rows).Pairwise (fun a b => key a ≠ key b) := by
    have hperm := (List.perm_insertionSort (fun a b => key b ≤ key a) rows).map key
    exact List.pairwise_map.mp (hperm.nodup_iff.mpr h)
  exact (hle.and hne).imp (fun h => lt_of_le_of_ne h.1 h.2.symm)

theorem mem_take_newestFirst {rows : List α} (h : (rows.map key).Nodup) {r : α} (hr : r ∈ rows)
    (hmax : ∀ x ∈ rows, key x ≤ key r) {n : Nat} (hn : 0 < n) : r ∈ (newestFirst key rows).take n := by
  have hdesc := newestFirst_descending h
  have hmem : ∀ x, x ∈ newestFirst key rows ↔ x ∈ rows := fun x => mem_newestFirst key
  cases hl : newestFirst key rows with
  | nil =>
    rw [hl] at hmem
    exact absurd ((hmem r).mpr hr) List.not_mem_nil
  | cons first rest =>
    rw [hl] at hdesc hmem
    rcases List.mem_cons.mp ((hmem r).mpr hr) with rfl | hrest
    · obtain ⟨n, rfl⟩ := Nat.exists_eq_succ_of_ne_zero hn.ne'
      simp
    · have hlt : key r < key first := List.rel_of_pairwise_cons hdesc hrest
      exact absurd hlt (not_lt.mpr (hmax first ((hmem first).mp (by simp))))

theorem eq_of_descending {l l' : List α} (h : l.Pairwise (fun a b => key b < key a))
    (h' : l'.Pairwise (fun a b => key b < key a)) (hmem : ∀ r, r ∈ l ↔ r ∈ l') : l = l' := by
  have : Std.Irrefl (fun a b : α => key b < key a) := ⟨fun a => lt_irrefl (key a)⟩
  have : Std.Antisymm (fun a b : α => key b < key a) :=
    ⟨fun a b hab hba => absurd (hab.trans hba) (lt_irrefl _)⟩
  exact List.Pairwise.eq_of_mem_iff h h' hmem

theorem drop_eq_below {l : List α} (h : l.Pairwise (fun a b => key b < key a)) {n : Nat} {m r : α}
    (hm : (l.take n).getLast? = some m) : r ∈ l.drop n ↔ r ∈ l ∧ key r < key m := by
  obtain ⟨front, hfront⟩ := List.getLast?_eq_some_iff.mp hm
  have hsplit : l = l.take n ++ l.drop n := (List.take_append_drop n l).symm
  rw [hsplit, hfront] at h
  obtain ⟨htake, -, hcross⟩ := List.pairwise_append.mp h
  have hlast : ∀ a ∈ front, key m < key a := fun a ha =>
    (List.pairwise_append.mp htake).2.2 a ha m (List.mem_singleton_self m)
  constructor
  · intro hr
    exact ⟨List.mem_of_mem_drop hr, hcross m (by simp) r hr⟩
  · rintro ⟨hr, hlt⟩
    rw [hsplit, hfront, List.mem_append, List.mem_append, List.mem_singleton] at hr
    rcases hr with (hr | rfl) | hr
    · exact absurd (hlt.trans (hlast r hr)) (lt_irrefl _)
    · exact absurd hlt (lt_irrefl _)
    · exact hr

theorem le_of_mem_page {l : List α} (h : l.Pairwise (fun a b => key b < key a)) {n : Nat} {m r : α}
    (hm : (l.take n).getLast? = some m) (hr : r ∈ l.take n) : key m ≤ key r := by
  obtain ⟨front, hfront⟩ := List.getLast?_eq_some_iff.mp hm
  have htake := h.sublist (List.take_sublist n l)
  rw [hfront] at htake hr
  rcases List.mem_append.mp hr with hr | hr
  · exact ((List.pairwise_append.mp htake).2.2 r hr m (List.mem_singleton_self m)).le
  · rw [List.mem_singleton.mp hr]

/-- The pages of a list, `fuel` of them at most. -/
def pagesFrom (n : Nat) : Nat → List α → List (List α)
  | 0, _ => []
  | fuel + 1, rows => if rows.take n = [] then [] else rows.take n :: pagesFrom n fuel (rows.drop n)

theorem flatten_pagesFrom {n : Nat} (hn : 0 < n) {fuel : Nat} {rows : List α}
    (h : rows.length ≤ fuel) : (pagesFrom n fuel rows).flatten = rows := by
  induction fuel generalizing rows with
  | zero =>
    rw [List.length_eq_zero_iff.mp (Nat.le_zero.mp h)]
    rfl
  | succ fuel ih =>
    rw [pagesFrom]
    split
    · rename_i hempty
      rcases List.take_eq_nil_iff.mp hempty with hzero | hrows
      · omega
      · rw [hrows]
        rfl
    · rw [List.flatten_cons, ih (by rw [List.length_drop]; omega), List.take_append_drop]

theorem mem_pagesFrom {n fuel : Nat} {rows page : List α} (h : page ∈ pagesFrom n fuel rows) :
    page ≠ [] ∧ page.length ≤ n := by
  induction fuel generalizing rows with
  | zero => cases h
  | succ fuel ih =>
    rw [pagesFrom] at h
    split at h
    · cases h
    · rename_i hne
      rcases List.mem_cons.mp h with rfl | h
      · exact ⟨hne, List.length_take_le n rows⟩
      · exact ih h

end

/-! ## Reading page after page -/

section
variable {σ α ι ε : Type} (read : Option ι → σ → Except ε (List α)) (id : α → ι)

/-- Read page after page, each in the next database, until a page is empty. -/
def readPages : Option ι → List σ → Except ε (List (List α))
  | _, [] => .ok []
  | cursor, d :: ds => do
    let page ← read cursor d
    match page.getLast? with
    | none => pure []
    | some m => do
      let rest ← readPages (some (id m)) ds
      pure (page :: rest)

/-- Between two pages the database changes as `R` says, for what has been returned by then. -/
def BetweenPages (R : List α → σ → σ → Prop) : List α → Option ι → σ → List σ → Prop
  | _, _, _, [] => True
  | returned, cursor, d, d' :: ds => ∀ page m, read cursor d = .ok page → page.getLast? = some m →
      R (returned ++ page) d d' ∧ BetweenPages R (returned ++ page) (some (id m)) d' ds

variable {read id} {R R' : List α → σ → σ → Prop}

theorem BetweenPages.mono (h : ∀ returned d d', R returned d d' → R' returned d d')
    {returned : List α} {cursor : Option ι} {d : σ} {ds : List σ}
    (hds : BetweenPages read id R returned cursor d ds) :
    BetweenPages read id R' returned cursor d ds := by
  induction ds generalizing returned cursor d with
  | nil => trivial
  | cons d' ds ih =>
    intro page m hread hm
    obtain ⟨hR, hrest⟩ := hds page m hread hm
    exact ⟨h _ d d' hR, ih hrest⟩

theorem BetweenPages.replicate {d : σ} (h : ∀ returned, R returned d d) (n : Nat)
    (returned : List α) (cursor : Option ι) :
    BetweenPages read id R returned cursor d (List.replicate n d) := by
  induction n generalizing returned cursor with
  | zero => trivial
  | succ n ih => exact fun page m _ _ => ⟨h (returned ++ page), ih (returned ++ page) (some (id m))⟩

end

/-- All pages of a database that does not change, read with `n` reads after the first. -/
def readAll {σ α ι ε : Type} (read : Option ι → σ → Except ε (List α)) (id : α → ι) (n : Nat)
    (d : σ) : Except ε (List α) :=
  (readPages read id none (d :: List.replicate n d)).map List.flatten

/-- Pages of at most `n` rows that hold every row once, in descending order. -/
structure PagesOf {α κ : Type} [LinearOrder κ] (key : α → κ) (n : Nat) (rows : List α)
    (pages : List (List α)) : Prop where
  once : pages.flatten.Perm rows
  descending : pages.flatten.Pairwise (fun a b => key b < key a)
  size : ∀ page ∈ pages, page ≠ [] ∧ page.length ≤ n

theorem PagesOf.length_le {α κ : Type} [LinearOrder κ] {key : α → κ} {n : Nat} {rows : List α}
    {pages : List (List α)} (h : PagesOf key n rows pages) : pages.length ≤ rows.length := by
  have hone : ∀ n ∈ pages.map List.length, 1 ≤ n := by
    intro n hn
    obtain ⟨page, hpage, rfl⟩ := List.mem_map.mp hn
    exact List.length_pos_iff.mpr (h.size page hpage).1
  have hlen := List.length_le_sum_of_one_le _ hone
  rw [List.length_map, ← List.length_flatten] at hlen
  exact hlen.trans_eq h.once.length_eq

theorem pagesOf_pagesFrom {α κ : Type} [LinearOrder κ] {key : α → κ} {n fuel : Nat} {rows : List α}
    (hn : 0 < n) (hrows : (rows.map key).Nodup) (h : rows.length ≤ fuel) :
    PagesOf key n rows (pagesFrom n fuel (newestFirst key rows)) := by
  have hperm : (newestFirst key rows).Perm rows := List.perm_insertionSort _ rows
  have hflat := flatten_pagesFrom hn (hperm.length_eq.trans_le h)
  refine ⟨?_, ?_, fun page => mem_pagesFrom⟩
  · rw [hflat]
    exact hperm
  · rw [hflat]
    exact newestFirst_descending hrows

/-- A listing that is read in pages: what is visible in a database, and the read function. -/
structure Listing (σ α ι ε κ : Type) [LinearOrder κ] where
  key : α → κ
  id : α → ι
  visible : σ → List α
  distinct : ∀ d, ((visible d).map key).Nodup
  /-- The key of a cursor. -/
  locate : σ → ι → Option κ
  found : ∀ d, ∀ r ∈ visible d, locate d (id r) = some (key r)
  /-- The databases in which the listing may be read. -/
  ready : σ → Prop
  limit : Nat
  read : Option ι → σ → Except ε (List α)
  read_first : ∀ d, ready d → read none d = .ok ((newestFirst key (visible d)).take limit)
  read_next : ∀ d i k, ready d → locate d i = some k →
    read (some i) d = .ok ((newestFirst key (rowsBelow key (some k) (visible d))).take limit)

namespace Listing
variable {σ α ι ε κ : Type} [LinearOrder κ] (L : Listing σ α ι ε κ)

/-- From `d` to `d'` rows appear above something that has been returned, and returned rows may
disappear; the returned rows stay good as cursors. -/
structure Later (returned : List α) (d d' : σ) : Prop where
  ready : L.ready d'
  appear : ∀ r ∈ L.visible d', r ∈ L.visible d ∨ ∃ m ∈ returned, L.key m < L.key r
  remain : ∀ r ∈ L.visible d, r ∈ L.visible d' ∨ r ∈ returned
  cursors : ∀ m ∈ returned, L.locate d (L.id m) = some (L.key m) →
    L.locate d' (L.id m) = some (L.key m)

/-- The cursor stands for the key, and nothing returned is below it. -/
structure At (returned : List α) (cursor : Option ι) (k : Option κ) (d : σ) : Prop where
  ready : L.ready d
  cursor : cursor.bind (L.locate d) = k ∧ cursor.isSome = k.isSome
  returned : ∀ m ∈ returned, L.locate d (L.id m) = some (L.key m) ∧ ∃ x ∈ k, x ≤ L.key m

variable {L}

theorem At.read {returned : List α} {cursor : Option ι} {k : Option κ} {d : σ}
    (h : L.At returned cursor k d) : L.read cursor d =
      .ok ((newestFirst L.key (rowsBelow L.key k (L.visible d))).take L.limit) := by
  obtain ⟨hk, hsome⟩ := h.cursor
  cases cursor with
  | none =>
    cases k with
    | none => simpa [rowsBelow] using L.read_first d h.ready
    | some k => cases hsome
  | some i =>
    cases k with
    | none => cases hsome
    | some k => exact L.read_next d i k h.ready hk

/-- The next page starts where this one ends. -/
theorem At.next {returned : List α} {cursor : Option ι} {k : Option κ} {d d' : σ} {m : α}
    (h : L.At returned cursor k d)
    (hm : ((newestFirst L.key (rowsBelow L.key k (L.visible d))).take L.limit).getLast? = some m)
    (hlater : L.Later (returned ++
      (newestFirst L.key (rowsBelow L.key k (L.visible d))).take L.limit) d d') :
    L.At (returned ++ (newestFirst L.key (rowsBelow L.key k (L.visible d))).take L.limit)
        (some (L.id m)) (some (L.key m)) d' ∧
      newestFirst L.key (rowsBelow L.key (some (L.key m)) (L.visible d')) =
        (newestFirst L.key (rowsBelow L.key k (L.visible d))).drop L.limit := by
  have hdesc := newestFirst_descending (rowsBelow_nodup L.key (L.distinct d) k)
  have hpage : m ∈ (newestFirst L.key (rowsBelow L.key k (L.visible d))).take L.limit :=
    List.mem_of_getLast? hm
  have hvisible : ∀ r ∈ (newestFirst L.key (rowsBelow L.key k (L.visible d))).take L.limit,
      r ∈ L.visible d ∧ ∀ x ∈ k, L.key r < x := by
    intro r hr
    have hin := List.mem_of_mem_take hr
    rwa [mem_newestFirst, mem_rowsBelow] at hin
  have hall : ∀ r ∈ returned ++
      (newestFirst L.key (rowsBelow L.key k (L.visible d))).take L.limit,
      L.locate d (L.id r) = some (L.key r) ∧ L.key m ≤ L.key r := by
    intro r hr
    rcases List.mem_append.mp hr with hr | hr
    · obtain ⟨hlocate, x, hx, hle⟩ := h.returned r hr
      exact ⟨hlocate, ((hvisible m hpage).2 x hx).le.trans hle⟩
    · exact ⟨L.found d r (hvisible r hr).1, le_of_mem_page hdesc hm hr⟩
  constructor
  · have hcursors := fun r hr => hlater.cursors r hr (hall r hr).1
    exact ⟨hlater.ready, ⟨hcursors m (List.mem_append_right _ hpage), rfl⟩,
      fun r hr => ⟨hcursors r hr, L.key m, rfl, (hall r hr).2⟩⟩
  apply eq_of_descending (newestFirst_descending (rowsBelow_nodup L.key (L.distinct d') _))
    (hdesc.sublist (List.drop_sublist _ _))
  intro r
  rw [drop_eq_below hdesc hm, mem_newestFirst, mem_rowsBelow, mem_newestFirst, mem_rowsBelow]
  constructor
  · rintro ⟨hr, hlt⟩
    replace hlt := hlt (L.key m) rfl
    rcases hlater.appear r hr with hold | ⟨x, hx, hnew⟩
    · exact ⟨⟨hold, fun x hx => hlt.trans ((hvisible m hpage).2 x hx)⟩, hlt⟩
    · exact absurd (hlt.trans ((hall x hx).2.trans_lt hnew)) (lt_irrefl _)
  · rintro ⟨⟨hr, -⟩, hlt⟩
    rcases hlater.remain r hr with hr' | hreturned
    · refine ⟨hr', fun x hx => ?_⟩
      cases hx
      exact hlt
    · exact absurd (hall r hreturned).2 (not_le.mpr hlt)

theorem readPages_of_at {returned : List α} {cursor : Option ι} {k : Option κ} {d : σ}
    {ds : List σ} (h : L.At returned cursor k d)
    (hds : BetweenPages L.read L.id L.Later returned cursor d ds) :
    readPages L.read L.id cursor (d :: ds) = .ok (pagesFrom L.limit (ds.length + 1)
      (newestFirst L.key (rowsBelow L.key k (L.visible d)))) := by
  induction ds generalizing returned cursor k d with
  | nil =>
    rw [readPages, h.read, pagesFrom]
    simp only [bind, Except.bind]
    rcases hm : ((newestFirst L.key (rowsBelow L.key k (L.visible d))).take L.limit).getLast?
      with _ | m
    · rw [if_pos (List.getLast?_eq_none_iff.mp hm)]
      rfl
    · rw [if_neg (fun he => by simp [he] at hm)]
      rfl
  | cons d' ds ih =>
    rw [readPages, h.read, pagesFrom]
    simp only [bind, Except.bind]
    rcases hm : ((newestFirst L.key (rowsBelow L.key k (L.visible d))).take L.limit).getLast?
      with _ | m
    · rw [if_pos (List.getLast?_eq_none_iff.mp hm)]
      rfl
    · rw [if_neg (fun he => by simp [he] at hm)]
      obtain ⟨hlater, hrest⟩ := hds _ m h.read hm
      obtain ⟨hat, hdrop⟩ := h.next hm hlater
      simp only [ih hat hrest, hdrop]
      rfl

theorem readPages_eq {d : σ} {ds : List σ} (hready : L.ready d)
    (hds : BetweenPages L.read L.id L.Later [] none d ds) :
    readPages L.read L.id none (d :: ds) =
      .ok (pagesFrom L.limit (ds.length + 1) (newestFirst L.key (L.visible d))) := by
  have hat : L.At [] none none d := ⟨hready, ⟨rfl, rfl⟩, by simp⟩
  simpa [rowsBelow] using readPages_of_at hat hds

theorem Later.refl {d : σ} (hready : L.ready d) (returned : List α) : L.Later returned d d :=
  ⟨hready, fun _ hr => .inl hr, fun _ hr => .inl hr, fun _ _ hk => hk⟩

theorem readPages_complete {d : σ} {ds : List σ} (hlimit : 0 < L.limit) (hready : L.ready d)
    (hds : BetweenPages L.read L.id L.Later [] none d ds)
    (hlen : (L.visible d).length ≤ ds.length) :
    ∃ pages, readPages L.read L.id none (d :: ds) = .ok pages ∧ pages.length ≤ ds.length ∧
      PagesOf L.key L.limit (L.visible d) pages ∧
      readPages L.read L.id none (d :: List.replicate ds.length d) = .ok pages := by
  have hpages : PagesOf L.key L.limit (L.visible d)
      (pagesFrom L.limit (ds.length + 1) (newestFirst L.key (L.visible d))) :=
    pagesOf_pagesFrom hlimit (L.distinct d) (by omega)
  refine ⟨_, readPages_eq hready hds, hpages.length_le.trans hlen, hpages, ?_⟩
  rw [readPages_eq hready (.replicate (Later.refl hready) ds.length [] none), List.length_replicate]

theorem readAll_eq {d : σ} (hlimit : 0 < L.limit) (hready : L.ready d) {n : Nat}
    (hlen : (L.visible d).length ≤ n) :
    readAll L.read L.id n d = .ok (newestFirst L.key (L.visible d)) := by
  have hsorted : (newestFirst L.key (L.visible d)).length ≤ n + 1 := by
    rw [newestFirst, List.length_insertionSort]
    omega
  rw [readAll, readPages_eq hready (.replicate (Later.refl hready) n [] none),
    List.length_replicate, Except.map, flatten_pagesFrom hlimit hsorted]

end Listing

/-! ## Rows that are marked as deleted -/

section
variable {α κ : Type} [LinearOrder κ] (key : α → κ) (belongs marked : α → Bool) (mark : Int → α → α)

/-- What happens to the rows of a listing between two pages: a row stays, or it is marked as deleted
when it was returned before, or marked before; a row that is new is above something that was
returned. -/
structure MarkedAbove (returned rows rows' : List α) : Prop where
  kept : ∀ m ∈ rows, belongs m = true →
    m ∈ rows' ∨ (m ∈ returned ∨ marked m = true) ∧ ∃ t, mark t m ∈ rows'
  added : ∀ m' ∈ rows', belongs m' = true →
    (∃ m ∈ rows, m' = m ∨ ∃ t, m' = mark t m) ∨ ∃ m ∈ returned, key m < key m'

variable {key belongs marked mark} {returned rows rows' : List α}

theorem MarkedAbove.refl (returned rows : List α) :
    MarkedAbove key belongs marked mark returned rows rows :=
  ⟨fun _ hm _ => .inl hm, fun m' hm' _ => .inl ⟨m', hm', .inl rfl⟩⟩

variable (h : MarkedAbove key belongs marked mark returned rows rows')
include h

theorem MarkedAbove.appear (hmark : ∀ t m, marked (mark t m) = true) {m' : α} (hm' : m' ∈ rows')
    (hbelongs : belongs m' = true) (hlive : marked m' = false) :
    m' ∈ rows ∨ ∃ m ∈ returned, key m < key m' := by
  rcases h.added m' hm' hbelongs with ⟨m, hm, rfl | ⟨t, rfl⟩⟩ | habove
  · exact .inl hm
  · rw [hmark] at hlive
    cases hlive
  · exact .inr habove

theorem MarkedAbove.remain {m : α} (hm : m ∈ rows) (hbelongs : belongs m = true)
    (hlive : marked m = false) : m ∈ rows' ∨ m ∈ returned := by
  rcases h.kept m hm hbelongs with hkept | ⟨hreturned | hmarked, -⟩
  · exact .inl hkept
  · exact .inr hreturned
  · rw [hlive] at hmarked
    cases hmarked

theorem MarkedAbove.still {m : α} (hm : m ∈ rows) (hbelongs : belongs m = true) :
    ∃ m' ∈ rows', m' = m ∨ ∃ t, m' = mark t m := by
  rcases h.kept m hm hbelongs with hkept | ⟨-, t, ht⟩
  · exact ⟨m, hkept, .inl rfl⟩
  · exact ⟨mark t m, ht, .inr ⟨t, rfl⟩⟩

end
end SyncServer
