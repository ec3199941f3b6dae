import Mathlib.Data.List.Induction
import Mathlib.Data.List.Nodup
import Mathlib.Tactic.Common

/-! # Grouping rows

A loop over rows that adds each row to the group of its key, or begins a group at the end of the
list. The groups stand in the order in which their keys occur first, and each is made of its own rows.
-/

namespace SyncServer

/-! ## First occurrences -/

section
variable {κ : Type} [DecidableEq κ]

/-- The elements of a list in the order of their first occurrences. -/
def firsts : List κ → List κ
  | [] => []
  | k :: rest => k :: (firsts rest).filter (fun x => decide (x ≠ k))

@[simp] theorem mem_firsts {l : List κ} {k : κ} : k ∈ firsts l ↔ k ∈ l := by
  induction l with
  | nil => simp [firsts]
  | cons x rest ih =>
    by_cases h : k = x
    · simp [firsts, h]
    · simp [firsts, h, ih]

theorem firsts_nodup (l : List κ) : (firsts l).Nodup := by
  induction l with
  | nil => exact List.nodup_nil
  | cons x rest ih =>
    rw [firsts, List.nodup_cons]
    exact ⟨by simp, ih.filter _⟩

theorem firsts_snoc (l : List κ) (k : κ) :
    firsts (l ++ [k]) = if k ∈ l then firsts l else firsts l ++ [k] := by
  induction l with
  | nil => rfl
  | cons x rest ih =>
    rw [List.cons_append, firsts, ih, firsts]
    by_cases hx : k = x
    · subst hx
      by_cases hk : k ∈ rest <;> simp [hk]
    · by_cases hk : k ∈ rest <;> simp [hk, hx]

/-- What holds of two elements whenever the one occurs first before the other does. -/
theorem pairwise_firsts_iff {R : κ → κ → Prop} (p : κ → Bool) (l : List κ) :
    ((firsts l).filter p).Pairwise R ↔ ∀ a ∈ l, ∀ b ∈ l, p a = true → p b = true →
      l.idxOf a < l.idxOf b → R a b := by
  induction l generalizing p with
  | nil => simp [firsts]
  | cons x rest ih =>
    -- The elements other than `x`, one position later.
    have hrest : ((firsts rest).filter (fun y => decide (y ≠ x) && p y)).Pairwise R ↔
        ∀ a ∈ rest, ∀ b ∈ rest, a ≠ x → b ≠ x → p a = true → p b = true →
          (x :: rest).idxOf a < (x :: rest).idxOf b → R a b := by
      rw [ih]
      constructor
      · intro h a ha b hb hax hbx hpa hpb hlt
        rw [List.idxOf_cons_ne _ hax.symm, List.idxOf_cons_ne _ hbx.symm] at hlt
        exact h a ha b hb (by simp [hax, hpa]) (by simp [hbx, hpb]) (by omega)
      · intro h a ha b hb hpa hpb hlt
        simp only [Bool.and_eq_true, decide_eq_true_eq] at hpa hpb
        refine h a ha b hb hpa.1 hpb.1 hpa.2 hpb.2 ?_
        rw [List.idxOf_cons_ne _ hpa.1.symm, List.idxOf_cons_ne _ hpb.1.symm]
        omega
    have hfilter : (firsts (x :: rest)).filter p =
        if p x then x :: (firsts rest).filter (fun y => decide (y ≠ x) && p y)
          else (firsts rest).filter (fun y => decide (y ≠ x) && p y) := by
      rw [firsts, List.filter_cons, List.filter_filter]
      simp only [Bool.and_comm]
    rw [hfilter]
    constructor
    · intro h a ha b hb hpa hpb hlt
      have hbx : b ≠ x := by
        rintro rfl
        simp at hlt
      have hb' : b ∈ rest := (List.mem_cons.mp hb).resolve_left hbx
      by_cases hax : a = x
      · subst hax
        rw [if_pos hpa, List.pairwise_cons] at h
        exact h.1 b (by simp [hb', hbx, hpb])
      · have ha' : a ∈ rest := (List.mem_cons.mp ha).resolve_left hax
        have htail : ((firsts rest).filter (fun y => decide (y ≠ x) && p y)).Pairwise R := by
          split at h
          · exact (List.pairwise_cons.mp h).2
          · exact h
        exact hrest.mp htail a ha' b hb' hax hbx hpa hpb hlt
    · intro h
      have htail := hrest.mpr (fun a ha b hb _ _ => h a (by simp [ha]) b (by simp [hb]))
      split
      · rename_i hpx
        refine List.pairwise_cons.mpr ⟨fun b hb => ?_, htail⟩
        simp only [List.mem_filter, mem_firsts, Bool.and_eq_true, decide_eq_true_eq] at hb
        refine h x (by simp) b (by simp [hb.1]) hpx hb.2.2 ?_
        rw [List.idxOf_cons_self, List.idxOf_cons_ne _ hb.2.1.symm]
        omega
      · exact htail

end

/-! ## Groups -/

section
variable {κ ρ γ : Type} [DecidableEq κ] (key : ρ → κ) (name : γ → κ) (fresh : κ → γ)
  (add : γ → ρ → γ)

/-- Add a row to the group of its key, or begin that group. -/
def addTo (r : ρ) : List γ → List γ
  | [] => [add (fresh (key r)) r]
  | g :: rest => if name g = key r then add g r :: rest else g :: addTo r rest

/-- The groups of all rows. -/
def groupRows (rows : List ρ) : List γ :=
  rows.foldl (fun groups r => addTo key name fresh add r groups) []

/-- The group of a key, made of the rows with this key. -/
def groupOf (rows : List ρ) (k : κ) : γ :=
  (rows.filter (fun r => decide (key r = k))).foldl add (fresh k)

variable {key name fresh add}

theorem addTo_map {f : κ → γ} (hname : ∀ k, name (f k) = k) (r : ρ) {ks : List κ}
    (hks : ks.Nodup) : addTo key name fresh add r (ks.map f) =
      if key r ∈ ks then ks.map (fun k => if k = key r then add (f k) r else f k)
        else ks.map f ++ [add (fresh (key r)) r] := by
  induction ks with
  | nil => rfl
  | cons k rest ih =>
    obtain ⟨hk, hrest⟩ := List.nodup_cons.mp hks
    rw [List.map_cons, addTo, hname]
    by_cases h : k = key r
    · have hothers : rest.map (fun k => if k = key r then add (f k) r else f k) = rest.map f := by
        apply List.map_congr_left
        intro x hx
        have hxr : x ≠ key r := by
          rintro rfl
          exact hk (h ▸ hx)
        exact if_neg hxr
      simp [h, ← hothers]
    · rw [if_neg h, ih hrest]
      by_cases hmem : key r ∈ rest
      · simp [hmem, h]
      · simp [hmem, Ne.symm h]

theorem groupOf_snoc (rows : List ρ) (r : ρ) (k : κ) :
    groupOf key fresh add (rows ++ [r]) k =
      if k = key r then add (groupOf key fresh add rows k) r else groupOf key fresh add rows k := by
  by_cases h : k = key r
  · simp [groupOf, List.filter_append, h]
  · simp [groupOf, List.filter_append, h, Ne.symm h]

theorem name_groupOf (hfresh : ∀ k, name (fresh k) = k) (hadd : ∀ g r, name (add g r) = name g)
    (rows : List ρ) (k : κ) : name (groupOf key fresh add rows k) = k := by
  rw [groupOf]
  generalize rows.filter (fun r => decide (key r = k)) = own
  induction own using List.reverseRecOn with
  | nil => exact hfresh k
  | append_singleton own r ih => rw [List.foldl_append, List.foldl_cons, List.foldl_nil, hadd, ih]

/-- The groups are in the order of the first rows with their keys, each made of its own rows. -/
theorem groupRows_eq (hfresh : ∀ k, name (fresh k) = k) (hadd : ∀ g r, name (add g r) = name g)
    (rows : List ρ) : groupRows key name fresh add rows =
      (firsts (rows.map key)).map (groupOf key fresh add rows) := by
  induction rows using List.reverseRecOn with
  | nil => rfl
  | append_singleton rows r ih =>
    rw [groupRows, List.foldl_append, List.foldl_cons, List.foldl_nil]
    rw [show rows.foldl _ [] = groupRows key name fresh add rows from rfl, ih,
      addTo_map (name_groupOf hfresh hadd rows) r (firsts_nodup _), List.map_append, List.map_cons,
      List.map_nil, firsts_snoc]
    have hsnoc : groupOf key fresh add (rows ++ [r]) = fun k =>
        if k = key r then add (groupOf key fresh add rows k) r else groupOf key fresh add rows k :=
      funext (groupOf_snoc rows r)
    by_cases h : key r ∈ rows.map key
    · rw [if_pos (mem_firsts.mpr h), if_pos h, hsnoc]
    · rw [if_neg (fun hin => h (mem_firsts.mp hin)), if_neg h, List.map_append, hsnoc]
      congr 1
      · apply List.map_congr_left
        intro k hk
        have hkr : k ≠ key r := by
          rintro rfl
          exact h (mem_firsts.mp hk)
        exact (if_neg hkr).symm
      · have hnone : groupOf key fresh add rows (key r) = fresh (key r) := by
          rw [groupOf, List.filter_eq_nil_iff.mpr]
          · rfl
          · intro x hx
            rw [decide_eq_true_eq]
            exact fun hxr => h (hxr ▸ List.mem_map_of_mem hx)
        simp [hnone]

end
end SyncServer
