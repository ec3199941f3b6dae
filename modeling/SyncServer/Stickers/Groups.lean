import SyncServer.Base.Grouping
import SyncServer.Columns
import SyncServer.Stickers.Service

/-! # The listing of sticker groups

`list_sticker_groups` goes through the active stickers in the order of `created_at`, as the second
`order` of the query replaces the one by `group_name`. Stickers of the same time may come in any order.
-/

namespace SyncServer.Stickers

structure StickerGroupPublic where
  name : String
  author : Option String
  tabStickerId : Option Uuid
  total : Nat
deriving DecidableEq, Repr

/-- `created_at` of the stickers, by id. -/
abbrev StickerTimes := Uuid → Int

/-- What the query for the active stickers may deliver. -/
structure Delivered (w : Wide StickerTimes) (rows : List Sticker) : Prop where
  active : rows.Perm (w.db.stickers.rows.filter (fun r => r.status = "active"))
  ordered : rows.Pairwise (fun a b => w.columns a.id ≤ w.columns b.id)

def addToGroup (g : StickerGroupPublic) (sticker : Sticker) : StickerGroupPublic :=
  if sticker.name = "__tab__" then
    { g with tabStickerId := some sticker.id, author := sticker.groupAuthor }
  else { g with total := g.total + 1 }

def newGroup (sticker : Sticker) : StickerGroupPublic :=
  if sticker.name = "__tab__" then
    ⟨sticker.groupName, sticker.groupAuthor, some sticker.id, 0⟩
  else ⟨sticker.groupName, none, none, 1⟩

def placeSticker (sticker : Sticker) : List StickerGroupPublic → List StickerGroupPublic
  | [] => [newGroup sticker]
  | g :: rest =>
    if g.name = sticker.groupName then addToGroup g sticker :: rest
    else g :: placeSticker sticker rest

/-- `list_sticker_groups`, for the rows that the query delivers. -/
def listStickerGroups (rows : List Sticker) : List StickerGroupPublic :=
  (rows.foldl (fun groups sticker => placeSticker sticker groups) []).filter
    (fun g => g.tabStickerId.isSome)

def IsTab (groupName : String) (t : Sticker) : Prop :=
  t.status = "active" ∧ t.groupName = groupName ∧ t.name = "__tab__"

instance (groupName : String) : DecidablePred (IsTab groupName) := fun _ =>
  inferInstanceAs (Decidable (_ ∧ _))

/-- One entry for each group with a sentinel, in the order of the names, with the number of its other
active stickers and with the id and the author of its latest sentinel. -/
structure ListsGroups (le : String → String → Prop) (w : Wide StickerTimes)
    (groups : List StickerGroupPublic) : Prop where
  once : (groups.map StickerGroupPublic.name).Nodup
  listed : ∀ n, n ∈ groups.map StickerGroupPublic.name ↔ ∃ t ∈ w.db.stickers.rows, IsTab n t
  total : ∀ g ∈ groups, g.total = w.db.stickers.rows.countP (fun r =>
    decide (r.status = "active" ∧ r.groupName = g.name ∧ r.name ≠ "__tab__"))
  tab : ∀ g ∈ groups, ∃ t ∈ w.db.stickers.rows, IsTab g.name t ∧ g.tabStickerId = some t.id ∧
    g.author = t.groupAuthor ∧
    ∀ t' ∈ w.db.stickers.rows, IsTab g.name t' → w.columns t'.id ≤ w.columns t.id
  sorted : (groups.map StickerGroupPublic.name).Pairwise le

/-- Of two groups with sentinels, the one whose first sticker is delivered first has the smaller
name. -/
def FirstsInOrder (le : String → String → Prop) (w : Wide StickerTimes) (rows : List Sticker) :
    Prop :=
  ∀ a b, (∃ t ∈ w.db.stickers.rows, IsTab a t) → (∃ t ∈ w.db.stickers.rows, IsTab b t) →
    (rows.map Sticker.groupName).idxOf a < (rows.map Sticker.groupName).idxOf b → le a b

/-! ## The loop groups the stickers -/

def noStickers (name : String) : StickerGroupPublic := ⟨name, none, none, 0⟩

theorem addToGroup_name (g : StickerGroupPublic) (sticker : Sticker) :
    (addToGroup g sticker).name = g.name := by
  rw [addToGroup]
  split <;> rfl

theorem placeSticker_eq (sticker : Sticker) (groups : List StickerGroupPublic) :
    placeSticker sticker groups =
      addTo Sticker.groupName StickerGroupPublic.name noStickers addToGroup sticker groups := by
  induction groups with
  | nil =>
    by_cases h : sticker.name = "__tab__" <;>
      simp [placeSticker, addTo, newGroup, addToGroup, noStickers, h]
  | cons g rest ih => rw [placeSticker, addTo, ih]

def entry (rows : List Sticker) (name : String) : StickerGroupPublic :=
  groupOf Sticker.groupName noStickers addToGroup rows name

def lastTab (rows : List Sticker) (name : String) : Option Sticker :=
  (rows.filter (fun r => decide (r.name = "__tab__") && decide (r.groupName = name))).getLast?

theorem foldl_addToGroup (own : List Sticker) (name : String) :
    own.foldl addToGroup (noStickers name) =
      ⟨name, (own.filter (fun r => r.name = "__tab__")).getLast?.bind Sticker.groupAuthor,
        (own.filter (fun r => r.name = "__tab__")).getLast?.map Sticker.id,
        own.countP (fun r => r.name ≠ "__tab__")⟩ := by
  induction own using List.reverseRecOn with
  | nil => rfl
  | append_singleton own r ih =>
    rw [List.foldl_append, List.foldl_cons, List.foldl_nil, ih, addToGroup]
    by_cases h : r.name = "__tab__" <;> simp [List.filter_append, h]

theorem entry_eq (rows : List Sticker) (name : String) : entry rows name =
    ⟨name, (lastTab rows name).bind Sticker.groupAuthor, (lastTab rows name).map Sticker.id,
      rows.countP (fun r => decide (r.name ≠ "__tab__") && decide (r.groupName = name))⟩ := by
  rw [entry, groupOf, foldl_addToGroup, List.filter_filter, List.countP_filter]
  rfl

theorem listStickerGroups_eq (rows : List Sticker) : listStickerGroups rows =
    ((firsts (rows.map Sticker.groupName)).filter (fun n => (lastTab rows n).isSome)).map
      (entry rows) := by
  have hloop : rows.foldl (fun groups sticker => placeSticker sticker groups) [] =
      groupRows Sticker.groupName StickerGroupPublic.name noStickers addToGroup rows := by
    simp only [placeSticker_eq]
    rfl
  rw [listStickerGroups, hloop, groupRows_eq (fun _ => rfl) addToGroup_name, List.filter_map]
  congr 2
  funext n
  simp [entry_eq, ← entry.eq_1]

theorem map_name_listStickerGroups (rows : List Sticker) :
    (listStickerGroups rows).map StickerGroupPublic.name =
      (firsts (rows.map Sticker.groupName)).filter (fun n => (lastTab rows n).isSome) := by
  rw [listStickerGroups_eq, List.map_map]
  apply List.map_id''
  intro n
  simp [entry_eq]

/-! ## The last sentinel -/

theorem le_getLast {α : Type} {f : α → Int} {l : List α} (h : l.Pairwise (fun a b => f a ≤ f b))
    {m : α} (hm : l.getLast? = some m) {a : α} (ha : a ∈ l) : f a ≤ f m := by
  obtain ⟨front, rfl⟩ := List.getLast?_eq_some_iff.mp hm
  rcases List.mem_append.mp ha with ha | ha
  · exact (List.pairwise_append.mp h).2.2 a ha m (List.mem_singleton_self m)
  · rw [List.mem_singleton.mp ha]

section
variable {w : Wide StickerTimes} {rows : List Sticker} (h : Delivered w rows)
include h

theorem Delivered.mem_iff {r : Sticker} :
    r ∈ rows ↔ r ∈ w.db.stickers.rows ∧ r.status = "active" := by
  rw [h.active.mem_iff, List.mem_filter, decide_eq_true_eq]

theorem Delivered.mem_tabs {r : Sticker} {name : String} :
    r ∈ rows.filter (fun r => decide (r.name = "__tab__") && decide (r.groupName = name)) ↔
      r ∈ w.db.stickers.rows ∧ IsTab name r := by
  rw [List.mem_filter, h.mem_iff, Bool.and_eq_true, decide_eq_true_eq, decide_eq_true_eq, IsTab]
  tauto

theorem Delivered.lastTab_isSome {name : String} :
    (lastTab rows name).isSome ↔ ∃ t ∈ w.db.stickers.rows, IsTab name t := by
  rw [lastTab, List.getLast?_isSome]
  constructor
  · intro hne
    obtain ⟨t, ht⟩ := List.exists_mem_of_ne_nil _ hne
    exact ⟨t, h.mem_tabs.mp ht⟩
  · rintro ⟨t, ht⟩
    exact List.ne_nil_of_mem (h.mem_tabs.mpr ht)

theorem Delivered.lastTab_latest {name : String} {t : Sticker} (ht : lastTab rows name = some t) :
    (t ∈ w.db.stickers.rows ∧ IsTab name t) ∧
      ∀ t' ∈ w.db.stickers.rows, IsTab name t' → w.columns t'.id ≤ w.columns t.id := by
  constructor
  · exact h.mem_tabs.mp (List.mem_of_getLast? ht)
  · intro t' hrow htab
    exact le_getLast (h.ordered.filter _) ht (h.mem_tabs.mpr ⟨hrow, htab⟩)

theorem Delivered.countP_eq (name : String) :
    rows.countP (fun r => decide (r.name ≠ "__tab__") && decide (r.groupName = name)) =
      w.db.stickers.rows.countP (fun r =>
        decide (r.status = "active" ∧ r.groupName = name ∧ r.name ≠ "__tab__")) := by
  rw [h.active.countP_eq, List.countP_filter]
  apply List.countP_congr
  intro r _
  simp only [Bool.and_eq_true, decide_eq_true_eq]
  tauto

theorem Delivered.lists {le : String → String → Prop}
    (hsorted : ((listStickerGroups rows).map StickerGroupPublic.name).Pairwise le) :
    ListsGroups le w (listStickerGroups rows) := by
  refine ⟨?_, fun n => ?_, fun g hg => ?_, fun g hg => ?_, hsorted⟩
  · rw [map_name_listStickerGroups]
    exact (firsts_nodup _).filter _
  · rw [map_name_listStickerGroups, List.mem_filter, mem_firsts, h.lastTab_isSome]
    constructor
    · exact fun hn => hn.2
    · rintro ⟨t, ht, htab⟩
      exact ⟨List.mem_map.mpr ⟨t, h.mem_iff.mpr ⟨ht, htab.1⟩, htab.2.1⟩, t, ht, htab⟩
  · rw [listStickerGroups_eq, List.mem_map] at hg
    obtain ⟨n, -, rfl⟩ := hg
    rw [entry_eq]
    exact h.countP_eq n
  · rw [listStickerGroups_eq, List.mem_map] at hg
    obtain ⟨n, hn, rfl⟩ := hg
    obtain ⟨t, ht⟩ := Option.isSome_iff_exists.mp (List.mem_filter.mp hn).2
    obtain ⟨⟨hrow, htab⟩, hlatest⟩ := h.lastTab_latest ht
    rw [entry_eq, ht]
    exact ⟨t, hrow, htab, rfl, rfl, hlatest⟩

theorem Delivered.sorted_iff (le : String → String → Prop) :
    ((listStickerGroups rows).map StickerGroupPublic.name).Pairwise le ↔
      FirstsInOrder le w rows := by
  rw [map_name_listStickerGroups, pairwise_firsts_iff]
  simp only [h.lastTab_isSome]
  have hmem : ∀ n, (∃ t ∈ w.db.stickers.rows, IsTab n t) → n ∈ rows.map Sticker.groupName := by
    rintro n ⟨t, ht, htab⟩
    exact List.mem_map.mpr ⟨t, h.mem_iff.mpr ⟨ht, htab.1⟩, htab.2.1⟩
  constructor
  · intro hall a b ha hb hlt
    exact hall a (hmem a ha) b (hmem b hb) ha hb hlt
  · exact fun hall a _ b _ ha hb hlt => hall a b ha hb hlt

end

theorem exists_delivered (w : Wide StickerTimes) : ∃ rows, Delivered w rows := by
  have : Std.Total (fun a b : Sticker => w.columns a.id ≤ w.columns b.id) :=
    ⟨fun a b => le_total _ _⟩
  have : IsTrans Sticker (fun a b => w.columns a.id ≤ w.columns b.id) := ⟨fun _ _ _ => le_trans⟩
  exact ⟨_, List.perm_insertionSort _ _, List.pairwise_insertionSort _ _⟩

/-- The listing is as documented exactly if the groups that are listed have their first stickers in
the order of their names. -/
theorem listStickerGroups_iff (le : String → String → Prop) (w : Wide StickerTimes)
    (rows : List Sticker) (h : Delivered w rows) :
    ListsGroups le w (listStickerGroups rows) ↔ FirstsInOrder le w rows :=
  ⟨fun hlists => (h.sorted_iff le).mp hlists.sorted,
    fun hfirsts => h.lists ((h.sorted_iff le).mpr hfirsts)⟩

/-- Two groups, each with its sentinel. -/
def twoGroups (first second : String) : Wide StickerTimes where
  db := { Db.empty with stickers := ⟨[⟨1, 7, first, "__tab__", "image/png", "", 1, "active", none⟩,
    ⟨2, 7, second, "__tab__", "image/png", "", 1, "active", some "Ann"⟩], by simp⟩ }
  columns := fun id => id

theorem delivered_twoGroups (first second : String) :
    Delivered (twoGroups first second) (twoGroups first second).db.stickers.rows :=
  ⟨.of_eq (by simp [twoGroups]), by simp [twoGroups]⟩

theorem listStickerGroups_sorted : ListsGroups (· ≤ ·) (twoGroups "Animals" "Birds")
    (listStickerGroups (twoGroups "Animals" "Birds").db.stickers.rows) := by
  refine (listStickerGroups_iff _ _ _ (delivered_twoGroups "Animals" "Birds")).mpr ?_
  rintro a b ⟨t, ht, -, rfl, -⟩ ⟨u, hu, -, rfl, -⟩ hlt
  simp only [twoGroups, List.mem_cons, List.not_mem_nil, or_false] at ht hu
  rcases ht with rfl | rfl <;> rcases hu with rfl | rfl <;> revert hlt <;> decide

/-- The group "Birds" is older than "Animals", and listed first. -/
theorem listStickerGroups_unsorted :
    Delivered (twoGroups "Birds" "Animals") (twoGroups "Birds" "Animals").db.stickers.rows ∧
    ¬ ListsGroups (· ≤ ·) (twoGroups "Birds" "Animals")
      (listStickerGroups (twoGroups "Birds" "Animals").db.stickers.rows) := by
  refine ⟨delivered_twoGroups _ _, fun h => ?_⟩
  have hsorted := h.sorted
  revert hsorted
  decide

end SyncServer.Stickers
