import Mathlib.Data.List.Basic
import Mathlib.Data.List.Perm.Subperm
import Mathlib.Data.List.Nodup
import Mathlib.Tactic.Common

/-! # The most frequent keys

Keys are counted in a table that is iterated in any order, and sorted by how often they occur and
then by a strict order on them; the first of them are kept. The result is the only list that a
reader would call the top.
-/

namespace SyncServer.Ranking
variable {κ : Type}

/-- A key, and how often it occurs. -/
structure Counted (κ : Type) where
  key : κ
  count : Nat
deriving DecidableEq, Repr

/-- A strict order in which any two keys are comparable. -/
structure StrictTotal (lt : κ → κ → Bool) : Prop where
  irrefl : ∀ a, lt a a = false
  trans : ∀ a b c, lt a b → lt b c → lt a c
  total : ∀ a b, lt a b ∨ a = b ∨ lt b a

/-- One key comes before another. -/
def ranks (lt : κ → κ → Bool) (a b : Counted κ) : Bool :=
  decide (b.count < a.count) || (decide (a.count = b.count) && lt a.key b.key)

/-- The order of a sort, in which equal entries may stand either way. -/
def notAfter (lt : κ → κ → Bool) (a b : Counted κ) : Bool := !ranks lt b a

section
variable {lt : κ → κ → Bool} (hlt : StrictTotal lt) {a b c : Counted κ}
include hlt

theorem StrictTotal.ranks_irrefl (a : Counted κ) : ranks lt a a = false := by
  simp [ranks, hlt.irrefl]

theorem StrictTotal.ranks_trans (hab : ranks lt a b) (hbc : ranks lt b c) : ranks lt a c := by
  simp only [ranks, Bool.or_eq_true, Bool.and_eq_true, decide_eq_true_eq] at hab hbc ⊢
  rcases hab with hab | ⟨hab, hkey⟩ <;> rcases hbc with hbc | ⟨hbc, hkey'⟩
  · omega
  · omega
  · omega
  · exact .inr ⟨hab.trans hbc, hlt.trans _ _ _ hkey hkey'⟩

theorem StrictTotal.ranks_asymm (hab : ranks lt a b) : ranks lt b a = false := by
  by_contra hba
  have hself := hlt.ranks_trans hab (by simpa using hba)
  rw [hlt.ranks_irrefl] at hself
  cases hself

theorem StrictTotal.ranks_total (hne : a ≠ b) : ranks lt a b ∨ ranks lt b a := by
  obtain ⟨k, n⟩ := a
  obtain ⟨k', n'⟩ := b
  simp only [ranks, Bool.or_eq_true, Bool.and_eq_true, decide_eq_true_eq]
  by_cases hcount : n = n'
  · rcases hlt.total k k' with h | h | h
    · exact .inl (.inr ⟨hcount, h⟩)
    · exact absurd (by rw [h, hcount]) hne
    · exact .inr (.inr ⟨hcount.symm, h⟩)
  · omega

theorem StrictTotal.notAfter_trans (a b c : Counted κ) (hab : notAfter lt a b)
    (hbc : notAfter lt b c) : notAfter lt a c := by
  simp only [notAfter, Bool.not_eq_true'] at hab hbc ⊢
  by_contra hca
  rw [Bool.not_eq_false] at hca
  by_cases heq : a = b
  · rw [heq, hbc] at hca
    cases hca
  · rcases hlt.ranks_total heq with h | h
    · rw [hlt.ranks_trans hca h] at hbc
      cases hbc
    · rw [h] at hab
      cases hab

theorem StrictTotal.notAfter_total (a b : Counted κ) : notAfter lt a b || notAfter lt b a := by
  by_cases hab : ranks lt a b
  · simp [notAfter, hlt.ranks_asymm hab]
  · simp [notAfter, hab]

theorem StrictTotal.pairwise_mergeSort {cs : List (Counted κ)} (h : cs.Nodup) :
    (cs.mergeSort (notAfter lt)).Pairwise (fun a b => ranks lt a b) := by
  have hsorted := List.pairwise_mergeSort hlt.notAfter_trans hlt.notAfter_total cs
  refine ((List.mergeSort_perm cs _).nodup_iff.mpr h).imp₂ (fun a b hne hle => ?_) hsorted
  rcases hlt.ranks_total hne with hab | hba
  · exact hab
  · simp [notAfter, hba] at hle

end

/-! ## Counting -/

section
variable [DecidableEq κ]

/-- One more occurrence of a key. -/
def bump (k : κ) : List (Counted κ) → List (Counted κ)
  | [] => [⟨k, 1⟩]
  | c :: rest => if c.key = k then ⟨c.key, c.count + 1⟩ :: rest else c :: bump k rest

/-- The keys of a list with their numbers of occurrences. -/
def countAll (ks : List κ) : List (Counted κ) := ks.foldl (fun acc k => bump k acc) []

/-- How often a key is counted. -/
def countOf (cs : List (Counted κ)) (x : κ) : Nat :=
  ((cs.find? (fun c => c.key = x)).map Counted.count).getD 0

theorem countOf_bump (k : κ) (cs : List (Counted κ)) (x : κ) :
    countOf (bump k cs) x = countOf cs x + if x = k then 1 else 0 := by
  induction cs with
  | nil => by_cases h : x = k <;> simp [bump, countOf, h, eq_comm]
  | cons c rest ih =>
    rw [bump]
    by_cases hk : c.key = k
    · rw [if_pos hk]
      by_cases hx : c.key = x
      · simp [countOf, hx, hx.symm.trans hk]
      · simp [countOf, hx, show x ≠ k from fun h => hx (hk.trans h.symm)]
    · rw [if_neg hk]
      by_cases hx : c.key = x
      · simp [countOf, hx, show x ≠ k from fun h => hk (hx.trans h)]
      · simpa [countOf, hx] using ih

theorem mem_keys_bump (k : κ) (cs : List (Counted κ)) (x : κ) :
    x ∈ (bump k cs).map Counted.key ↔ x = k ∨ x ∈ cs.map Counted.key := by
  induction cs with
  | nil => simp [bump]
  | cons c rest ih =>
    rw [bump]
    by_cases h : c.key = k
    · rw [if_pos h]
      simp only [List.map_cons, List.mem_cons, h]
      tauto
    · rw [if_neg h]
      simp only [List.map_cons, List.mem_cons, ih]
      tauto

/-- Every key is counted once, and at least one time. -/
def Tidy (cs : List (Counted κ)) : Prop :=
  (cs.map Counted.key).Nodup ∧ ∀ c ∈ cs, 0 < c.count

theorem Tidy.bump {k : κ} {cs : List (Counted κ)} (h : Tidy cs) : Tidy (bump k cs) := by
  induction cs with
  | nil => simp [Tidy, Ranking.bump]
  | cons c rest ih =>
    obtain ⟨hkeys, hpos⟩ := h
    obtain ⟨hc, hrest⟩ := List.nodup_cons.mp hkeys
    obtain ⟨hkeys', hpos'⟩ := ih ⟨hrest, fun c' hc' => hpos c' (by simp [hc'])⟩
    rw [Ranking.bump]
    by_cases hk : c.key = k
    · rw [if_pos hk]
      refine ⟨hkeys, fun c' hc' => ?_⟩
      rcases List.mem_cons.mp hc' with rfl | hc'
      · exact Nat.succ_pos _
      · exact hpos c' (by simp [hc'])
    · rw [if_neg hk]
      refine ⟨List.nodup_cons.mpr ⟨fun hmem => ?_, hkeys'⟩, fun c' hc' => ?_⟩
      · rcases (mem_keys_bump k rest c.key).mp hmem with h | h
        · exact hk h
        · exact hc h
      · rcases List.mem_cons.mp hc' with rfl | hc'
        · exact hpos c' (by simp)
        · exact hpos' c' hc'

theorem countOf_foldl (ks : List κ) (cs : List (Counted κ)) (x : κ) :
    countOf (ks.foldl (fun acc k => bump k acc) cs) x = countOf cs x + ks.count x := by
  induction ks generalizing cs with
  | nil => rfl
  | cons k ks ih =>
    rw [List.foldl_cons, ih, countOf_bump, List.count_cons]
    by_cases h : k = x
    · simp [h]
      omega
    · simp [h, Ne.symm h]

theorem tidy_foldl (ks : List κ) {cs : List (Counted κ)} (h : Tidy cs) :
    Tidy (ks.foldl (fun acc k => bump k acc) cs) := by
  induction ks generalizing cs with
  | nil => exact h
  | cons k ks ih => exact ih h.bump

theorem tidy_countAll (ks : List κ) : Tidy (countAll ks) :=
  tidy_foldl ks ⟨List.nodup_nil, by simp⟩

theorem countOf_countAll (ks : List κ) (x : κ) : countOf (countAll ks) x = ks.count x := by
  rw [countAll, countOf_foldl]
  simp [countOf]

theorem Tidy.mem_iff {cs : List (Counted κ)} (h : Tidy cs) (c : Counted κ) :
    c ∈ cs ↔ c.count = countOf cs c.key ∧ 0 < c.count := by
  have hfind : ∀ c ∈ cs, cs.find? (fun c' => c'.key = c.key) = some c := by
    intro c hc
    cases hf : cs.find? (fun c' => c'.key = c.key) with
    | none => exact absurd (List.find?_eq_none.mp hf c hc) (by simp)
    | some c' =>
      have hkey : c'.key = c.key := by simpa using List.find?_some hf
      exact congrArg some (List.inj_on_of_nodup_map h.1 (List.mem_of_find?_eq_some hf) hc hkey)
  constructor
  · intro hc
    exact ⟨by simp [countOf, hfind c hc], h.2 c hc⟩
  · rintro ⟨hcount, hpos⟩
    cases hf : cs.find? (fun c' => c'.key = c.key) with
    | none => simp [countOf, hf] at hcount; omega
    | some c' =>
      have hkey : c'.key = c.key := by simpa using List.find?_some hf
      have hsame : c' = c := by
        cases c
        cases c'
        simp [countOf, hf] at hcount
        simp at hkey
        simp [hkey, hcount]
      exact hsame ▸ List.mem_of_find?_eq_some hf

theorem mem_countAll (ks : List κ) (c : Counted κ) :
    c ∈ countAll ks ↔ c.count = ks.count c.key ∧ 0 < c.count := by
  rw [(tidy_countAll ks).mem_iff, countOf_countAll]

end

/-! ## The top -/

/-- The first entries, once they are sorted. -/
def topRanked (lt : κ → κ → Bool) (n : Nat) (cs : List (Counted κ)) : List (Counted κ) :=
  (cs.mergeSort (notAfter lt)).take n

/-- What the most frequent keys of a list are: in order, with their counts, and no key that is left
out comes before one of them. -/
structure IsTop [DecidableEq κ] (lt : κ → κ → Bool) (ks : List κ) (n : Nat)
    (top : List (Counted κ)) : Prop where
  sorted : top.Pairwise (fun a b => ranks lt a b)
  counted : ∀ c ∈ top, c.count = ks.count c.key ∧ 0 < c.count
  short : top.length ≤ n
  rest : ∀ k ∈ ks, (∃ c ∈ top, c.key = k) ∨
    (top.length = n ∧ ∀ c ∈ top, ranks lt c ⟨k, ks.count k⟩)

section
variable [DecidableEq κ] {lt : κ → κ → Bool} (hlt : StrictTotal lt) {ks : List κ} {n : Nat}
include hlt

/-- In whichever order the counts are iterated, the first of them are the top. -/
theorem isTop_topRanked {cs : List (Counted κ)} (h : cs.Perm (countAll ks)) :
    IsTop lt ks n (topRanked lt n cs) := by
  have hperm : (cs.mergeSort (notAfter lt)).Perm (countAll ks) :=
    (List.mergeSort_perm _ _).trans h
  have htidy := tidy_countAll ks
  have hsorted := hlt.pairwise_mergeSort (h.nodup_iff.mpr htidy.1.of_map)
  unfold topRanked
  generalize cs.mergeSort (notAfter lt) = sorted at hperm hsorted
  have hmem : ∀ c, c ∈ sorted ↔ c.count = ks.count c.key ∧ 0 < c.count := fun c => by
    rw [hperm.mem_iff, mem_countAll]
  constructor
  · exact hsorted.sublist (List.take_sublist n sorted)
  · exact fun c hc => (hmem c).mp (List.mem_of_mem_take hc)
  · exact List.length_take_le n sorted
  · intro k hk
    have hentry : (⟨k, ks.count k⟩ : Counted κ) ∈ sorted :=
      (hmem _).mpr ⟨rfl, List.count_pos_iff.mpr hk⟩
    rw [← List.take_append_drop n sorted] at hentry hsorted
    rcases List.mem_append.mp hentry with hin | hout
    · exact .inl ⟨_, hin, rfl⟩
    · refine .inr ⟨?_, fun c hc => (List.pairwise_append.mp hsorted).2.2 c hc _ hout⟩
      rw [List.length_take]
      have hpos : 0 < (sorted.drop n).length := List.length_pos_of_mem hout
      rw [List.length_drop] at hpos
      omega

/-- What one top holds, every other holds. -/
theorem IsTop.subset {top top' : List (Counted κ)} (h : IsTop lt ks n top)
    (h' : IsTop lt ks n top') : top ⊆ top' := by
  intro c hc
  obtain ⟨hcount, hpos⟩ := h.counted c hc
  have heq : (⟨c.key, ks.count c.key⟩ : Counted κ) = c := by
    rw [← hcount]
  rcases h'.rest c.key (List.count_pos_iff.mp (hcount ▸ hpos)) with ⟨c', hc', hkey⟩ | ⟨hlen, hall⟩
  · obtain ⟨hcount', -⟩ := h'.counted c' hc'
    have hsame : c' = c := by
      rw [← heq, ← hkey, ← hcount']
    exact hsame ▸ hc'
  · rw [heq] at hall
    -- The other top and `c` would be too many for the first.
    have hsub : c :: top' ⊆ top := by
      intro c' hc'
      rcases List.mem_cons.mp hc' with rfl | hc'
      · exact hc
      obtain ⟨hcount', hpos'⟩ := h'.counted c' hc'
      have heq' : (⟨c'.key, ks.count c'.key⟩ : Counted κ) = c' := by
        rw [← hcount']
      rcases h.rest c'.key (List.count_pos_iff.mp (hcount' ▸ hpos')) with ⟨c₁, hc₁, hkey⟩ | ⟨-, hall'⟩
      · obtain ⟨hcount₁, -⟩ := h.counted c₁ hc₁
        have hsame : c₁ = c' := by
          rw [← heq', ← hkey, ← hcount₁]
        exact hsame ▸ hc₁
      · have hback := hall' c hc
        rw [heq', hlt.ranks_asymm (hall c' hc')] at hback
        cases hback
    have hnodup : (c :: top').Nodup := by
      refine List.nodup_cons.mpr ⟨fun hmem => ?_, h'.sorted.imp (fun {a b} hab heq => ?_)⟩
      · have hself := hall c hmem
        rw [hlt.ranks_irrefl] at hself
        cases hself
      · rw [heq, hlt.ranks_irrefl] at hab
        cases hab
    have hlength := (List.subperm_of_subset hnodup hsub).length_le
    have hshort := h.short
    rw [List.length_cons, hlen] at hlength
    omega

theorem IsTop.unique {top top' : List (Counted κ)} (h : IsTop lt ks n top)
    (h' : IsTop lt ks n top') : top = top' := by
  have hnodup : ∀ {l : List (Counted κ)}, l.Pairwise (fun a b => ranks lt a b) → l.Nodup := by
    intro l hl
    refine hl.imp (fun {a b} hab heq => ?_)
    rw [heq, hlt.ranks_irrefl] at hab
    cases hab
  have hperm : top.Perm top' :=
    (List.perm_ext_iff_of_nodup (hnodup h.sorted) (hnodup h'.sorted)).mpr
      (fun c => ⟨fun hc => h.subset hlt h' hc, fun hc => h'.subset hlt h hc⟩)
  refine List.Perm.eq_of_pairwise (fun a b _ _ hab hba => ?_) h.sorted h'.sorted hperm
  rw [hlt.ranks_asymm hab] at hba
  cases hba

end
end SyncServer.Ranking
