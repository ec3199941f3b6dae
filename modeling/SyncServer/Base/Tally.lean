import Mathlib.Data.List.Perm.Basic
import SyncServer.Base.Table

/-! # Counting the rows of a table

How many rows satisfy a condition, and how the number changes with one row.
-/

namespace SyncServer
namespace Table
variable {κ α : Type} {key : α → κ}

/-- How many rows satisfy `p`. -/
def tally (t : Table κ α key) (p : α → Bool) : Nat := t.rows.countP p

/-- The keys of the rows that satisfy `p`. -/
def keysOf (t : Table κ α key) (p : α → Bool) : List κ := (t.rows.filter p).map key

theorem length_keysOf (t : Table κ α key) (p : α → Bool) : (t.keysOf p).length = t.tally p := by
  rw [keysOf, List.length_map, tally, List.countP_eq_length_filter]

theorem keysOf_nodup (t : Table κ α key) (p : α → Bool) : (t.keysOf p).Nodup :=
  (List.Sublist.map key List.filter_sublist).nodup t.keys_nodup

variable [DecidableEq κ] {t t' : Table κ α key} {p : α → Bool}

theorem mem_keysOf {k : κ} : k ∈ t.keysOf p ↔ (t.get k).any p = true := by
  rw [Option.any_eq_true, keysOf, List.mem_map]
  constructor
  · rintro ⟨r, hr, rfl⟩
    obtain ⟨hmem, hp⟩ := List.mem_filter.mp hr
    exact ⟨r, get_eq_some.mpr ⟨hmem, rfl⟩, hp⟩
  · rintro ⟨r, hr, hp⟩
    obtain ⟨hmem, hk⟩ := get_eq_some.mp hr
    exact ⟨r, List.mem_filter.mpr ⟨hmem, hp⟩, hk⟩

/-- The other keys, and one more if the row of `k` satisfies `p`. -/
theorem tally_eq_erase (t : Table κ α key) (p : α → Bool) (k : κ) :
    t.tally p = ((t.keysOf p).erase k).length + ((t.get k).any p).toNat := by
  rw [← length_keysOf]
  by_cases h : k ∈ t.keysOf p
  · have hpos := List.length_pos_of_mem h
    rw [List.length_erase_of_mem h, mem_keysOf.mp h, Bool.toNat_true]
    omega
  · have hany : (t.get k).any p = false := by simpa [mem_keysOf] using h
    rw [List.erase_of_not_mem h, hany, Bool.toNat_false, Nat.add_zero]

theorem tally_of_agree (k : κ) (h : ∀ k', k' ≠ k → (t'.get k').any p = (t.get k').any p) :
    t'.tally p + ((t.get k).any p).toNat = t.tally p + ((t'.get k).any p).toNat := by
  have hperm : ((t'.keysOf p).erase k).Perm ((t.keysOf p).erase k) := by
    rw [List.perm_ext_iff_of_nodup ((t'.keysOf_nodup p).erase k) ((t.keysOf_nodup p).erase k)]
    intro k'
    rw [(t'.keysOf_nodup p).mem_erase_iff, (t.keysOf_nodup p).mem_erase_iff, mem_keysOf, mem_keysOf]
    constructor
    · rintro ⟨hne, hp⟩
      exact ⟨hne, h k' hne ▸ hp⟩
    · rintro ⟨hne, hp⟩
      exact ⟨hne, (h k' hne).symm ▸ hp⟩
  rw [tally_eq_erase t' p k, tally_eq_erase t p k, hperm.length_eq]
  omega

theorem tally_congr (h : ∀ k, (t'.get k).any p = (t.get k).any p) : t'.tally p = t.tally p := by
  rw [← length_keysOf, ← length_keysOf]
  apply List.Perm.length_eq
  rw [List.perm_ext_iff_of_nodup (t'.keysOf_nodup p) (t.keysOf_nodup p)]
  intro k
  rw [mem_keysOf, mem_keysOf, h k]

end Table
end SyncServer
