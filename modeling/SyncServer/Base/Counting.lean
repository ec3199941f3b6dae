import Mathlib.Data.List.Basic
import Mathlib.Data.List.Perm.Basic
import Mathlib.Data.Set.Card
import Mathlib.Tactic.Common

/-! # Counting along runs

How many instants of a list are in a window of time, how many places of a family show a value,
and what the steps of a run keep if they are all made under a condition.
-/

namespace SyncServer

/-- How many of the instants are after `x`. -/
def countAfter (x : Int) (l : List Int) : Nat := l.countP (fun t => x < t)

/-- How many of the instants are in the window of length `w` that begins at `t`. -/
def countWithin (t w : Int) (l : List Int) : Nat := l.countP (fun x => t ≤ x ∧ x < t + w)

theorem countAfter_append (x : Int) (l l' : List Int) :
    countAfter x (l ++ l') = countAfter x l + countAfter x l' := List.countP_append

theorem countAfter_anti {x y : Int} (h : x ≤ y) (l : List Int) :
    countAfter y l ≤ countAfter x l := by
  apply List.countP_mono_left
  intro t _ ht
  simp only [decide_eq_true_eq] at ht ⊢
  omega

theorem countWithin_snoc {l : List Int} {c w : Int} {n : Nat} (h : ∀ t, countWithin t w l ≤ n)
    (hc : countAfter (c - w) (l ++ [c]) ≤ n) (t : Int) : countWithin t w (l ++ [c]) ≤ n := by
  by_cases ht : t ≤ c ∧ c < t + w
  · refine Nat.le_trans (List.countP_mono_left (fun x _ hx => ?_)) hc
    simp only [decide_eq_true_eq] at hx ⊢
    omega
  · have hsame : countWithin t w (l ++ [c]) = countWithin t w l := by
      simp [countWithin, List.countP_append, ht]
    rw [hsame]
    exact h t

theorem countAfter_snoc (x c : Int) (l : List Int) :
    countAfter x (l ++ [c]) = countAfter x l + if x < c then 1 else 0 := by
  rw [countAfter_append]
  by_cases h : x < c <;> simp [countAfter, h]

theorem countP_eraseIdx {α : Type} {l : List α} {i : Nat} {a : α} (h : l[i]? = some a)
    (p : α → Bool) : (l.eraseIdx i).countP p + (if p a then 1 else 0) = l.countP p := by
  obtain ⟨hi, rfl⟩ := List.getElem?_eq_some_iff.mp h
  rw [← (List.getElem_cons_eraseIdx_perm hi).countP_eq, List.countP_cons]

section
universe u
variable {ι β : Type} {α : Type u}

/-- The places of a family that show `b`, without one of them. -/
theorem ncard_diff_singleton [DecidableEq β] (g : α → Option β) (f : ι → α) (i : ι) (b : β)
    (hfin : {j | g (f j) = some b}.Finite) :
    {j | g (f j) = some b}.ncard =
      ({j | g (f j) = some b} \ {i}).ncard + (g (f i)).toList.count b := by
  by_cases hi : g (f i) = some b
  · rw [hi, ← Set.ncard_sdiff_singleton_add_one (show i ∈ {j | g (f j) = some b} from hi) hfin]
    simp
  · rw [Set.sdiff_singleton_eq_self (show i ∉ {j | g (f j) = some b} from hi)]
    rcases hg : g (f i) with _ | b'
    · simp
    · have hne : b' ≠ b := fun h => hi (by rw [hg, h])
      simp [hne]

theorem update_diff_singleton [DecidableEq ι] (g : α → Option β) (f : ι → α) (i : ι) (x : α) (b : β) :
    {j | g (Function.update f i x j) = some b} \ {i} = {j | g (f j) = some b} \ {i} := by
  ext j
  by_cases hj : j = i
  · simp [hj]
  · simp [Function.update_of_ne hj]

/-- How the places that show `b` change with one place of the family. -/
theorem ncard_update [DecidableEq ι] [DecidableEq β] (g : α → Option β) (f : ι → α) (i : ι)
    (x : α) (b : β) (hfin : {j | g (f j) = some b}.Finite) :
    {j | g (Function.update f i x j) = some b}.Finite ∧
      {j | g (Function.update f i x j) = some b}.ncard + (g (f i)).toList.count b =
        {j | g (f j) = some b}.ncard + (g x).toList.count b := by
  have hfin' : {j | g (Function.update f i x j) = some b}.Finite := by
    apply Set.Finite.of_sdiff (t := {i})
    · rw [update_diff_singleton]
      exact hfin.sdiff
    · exact Set.finite_singleton i
  refine ⟨hfin', ?_⟩
  rw [ncard_diff_singleton g _ i b hfin', ncard_diff_singleton g f i b hfin,
    update_diff_singleton, Function.update_self]
  omega

end

/-- The condition holds before every step of a run. -/
def Along {σ μ : Type} (step : σ → μ → σ) (C : σ → μ → Prop) (s : σ) : List μ → Prop
  | [] => True
  | m :: ms => C s m ∧ Along step C (step s m) ms

theorem Along.foldl {σ μ : Type} {step : σ → μ → σ} {C : σ → μ → Prop} {P : σ → Prop} {s : σ}
    {ms : List μ} (hc : Along step C s ms) (h0 : P s)
    (hstep : ∀ s m, P s → C s m → P (step s m)) : P (ms.foldl step s) := by
  induction ms generalizing s with
  | nil => exact h0
  | cons m ms ih => exact ih hc.2 (hstep s m h0 hc.1)

end SyncServer
