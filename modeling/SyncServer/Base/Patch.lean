import Mathlib.Data.List.Induction

/-! # Merge patches

A patch of a value keeps it, clears it or sets it. A reader that takes a clear for nothing said
writes the values that are set and no others. After a list of patches the two differ only if the
last word on the value is a clear, and there was something to clear.
-/

namespace SyncServer

/-- What a patch says about a value. -/
inductive Patch (α : Type*) where
  | keep
  | clear
  | set (value : α)
deriving DecidableEq, Repr

namespace Patch
variable {α : Type*}

/-- The value that the patch sets. -/
def value? : Patch α → Option α
  | set v => some v
  | _ => none

/-- The patch says something about the value. -/
def speaks : Patch α → Bool
  | keep => false
  | _ => true

/-- The value after a patch; `empty` is what a cleared value is. -/
def merge (empty old : α) : Patch α → α
  | keep => old
  | clear => empty
  | set v => v

/-- The value after a patch whose clear is taken for nothing. -/
def write (old : α) (p : Patch α) : α := p.value?.getD old

def mergeAll (empty old : α) (ps : List (Patch α)) : α := ps.foldl (merge empty) old

def writeAll (old : α) (ps : List (Patch α)) : α := ps.foldl write old

/-- The last value that is set, or the one before all patches. -/
def lastSet (old : α) (ps : List (Patch α)) : α := (ps.reverse.findSome? value?).getD old

/-- If the last word on the value is a clear, then the value has been set to the empty one last,
or never and was empty. -/
def ClearsIdle (empty old : α) (ps : List (Patch α)) : Prop :=
  ps.reverse.find? speaks = some clear → lastSet old ps = empty

instance [DecidableEq α] (empty old : α) (ps : List (Patch α)) :
    Decidable (ClearsIdle empty old ps) :=
  inferInstanceAs (Decidable (ps.reverse.find? speaks = some clear → lastSet old ps = empty))

theorem mergeAll_concat (empty old : α) (ps : List (Patch α)) (p : Patch α) :
    mergeAll empty old (ps ++ [p]) = p.merge empty (mergeAll empty old ps) := by
  simp [mergeAll]

theorem writeAll_concat (old : α) (ps : List (Patch α)) (p : Patch α) :
    writeAll old (ps ++ [p]) = p.write (writeAll old ps) := by
  simp [writeAll]

theorem lastSet_concat (old : α) (ps : List (Patch α)) (p : Patch α) :
    lastSet old (ps ++ [p]) = p.write (lastSet old ps) := by
  cases p <;> simp [lastSet, List.findSome?_cons, value?, write]

theorem writeAll_eq_lastSet (old : α) (ps : List (Patch α)) :
    writeAll old ps = lastSet old ps := by
  induction ps using List.reverseRecOn with
  | nil => rfl
  | append_singleton ps p ih => rw [writeAll_concat, lastSet_concat, ih]

theorem writeAll_eq_mergeAll_iff (empty old : α) (ps : List (Patch α)) :
    writeAll old ps = mergeAll empty old ps ↔ ClearsIdle empty old ps := by
  induction ps using List.reverseRecOn with
  | nil => simp [writeAll, mergeAll, ClearsIdle]
  | append_singleton ps p ih =>
    rw [writeAll_concat, mergeAll_concat, ClearsIdle, lastSet_concat]
    cases p with
    | keep =>
      -- Nothing is said, neither then nor now.
      simpa [write, merge, value?, speaks, ClearsIdle] using ih
    | clear => simp [write, merge, value?, speaks, writeAll_eq_lastSet]
    | set v => simp [write, merge, value?, speaks]

end Patch
end SyncServer
