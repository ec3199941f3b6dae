import Mathlib.Data.List.Basic
import Mathlib.Tactic.Common

/-! # The first candidate that fits

Candidates are computed one after the other until one is small enough; if none is, the smallest is
taken. A candidate that cannot be computed ends the search.
-/

namespace SyncServer.FirstFit
variable {ε β : Type} (size : β → Nat) (limit : Nat)

/-- The smaller of the best candidate and a new one. -/
def better (best : Option β) (b : β) : β :=
  match best with
  | some a => if size a ≤ size b then a else b
  | none => b

/-- The search, with the best candidate so far. -/
def search : List (Except ε β) → Option β → Except ε (β ⊕ Option β)
  | [], best => .ok (.inr best)
  | .error e :: _, _ => .error e
  | .ok b :: rest, best =>
    if size b ≤ limit then .ok (.inl b) else search rest (some (better size best b))

/-- The first that fits: what is before it was computed, and does not. -/
def IsFirstFit (l : List (Except ε β)) (b : β) : Prop :=
  ∃ before after, l = before ++ .ok b :: after ∧ size b ≤ limit ∧
    ∀ x ∈ before, ∃ c, x = .ok c ∧ limit < size c

/-- The first of the smallest. -/
def IsSmallest (l : List β) (b : β) : Prop :=
  ∃ before after, l = before ++ b :: after ∧ (∀ c ∈ before, size b < size c) ∧
    ∀ c ∈ after, size b ≤ size c

/-- What the search finds: the first that fits, or if none does, the first of the smallest. -/
def Chosen (l : List (Except ε β)) (b : β) : Prop :=
  IsFirstFit size limit l b ∨
    ∃ cs : List β, l = cs.map .ok ∧ (∀ c ∈ cs, limit < size c) ∧ IsSmallest size cs b

variable {size limit} {l l' : List (Except ε β)} {best : Option β} {b : β}

theorem search_append : search size limit (l ++ l') best =
    (search size limit l best).bind (Sum.elim (fun b => .ok (.inl b)) (search size limit l')) := by
  induction l generalizing best with
  | nil => rfl
  | cons x l ih =>
    cases x with
    | error e => rfl
    | ok c =>
      rw [List.cons_append, search, search]
      by_cases h : size c ≤ limit
      · simp [h, Except.bind]
      · simp [h, ih]

theorem IsFirstFit.of_search (h : search size limit l best = .ok (.inl b)) :
    IsFirstFit size limit l b := by
  induction l generalizing best with
  | nil => cases h
  | cons x l ih =>
    cases x with
    | error e => cases h
    | ok c =>
      rw [search] at h
      by_cases hc : size c ≤ limit
      · rw [if_pos hc] at h
        cases h
        exact ⟨[], l, rfl, hc, by simp⟩
      · rw [if_neg hc] at h
        obtain ⟨before, after, rfl, hb, hbefore⟩ := ih h
        refine ⟨.ok c :: before, after, rfl, hb, fun x hx => ?_⟩
        rcases List.mem_cons.mp hx with rfl | hx
        · exact ⟨c, rfl, by omega⟩
        · exact hbefore x hx

theorem search_eq_inr {r : Option β} (h : search size limit l best = .ok (.inr r)) :
    ∃ cs : List β, l = cs.map .ok ∧ (∀ c ∈ cs, limit < size c) ∧
      r = cs.foldl (fun best c => some (better size best c)) best := by
  induction l generalizing best with
  | nil =>
    cases h
    exact ⟨[], rfl, by simp, rfl⟩
  | cons x l ih =>
    cases x with
    | error e => cases h
    | ok c =>
      rw [search] at h
      by_cases hc : size c ≤ limit
      · rw [if_pos hc] at h
        cases h
      · rw [if_neg hc] at h
        obtain ⟨cs, rfl, hcs, hr⟩ := ih h
        refine ⟨c :: cs, rfl, fun c' hc' => ?_, hr⟩
        rcases List.mem_cons.mp hc' with rfl | hc'
        · omega
        · exact hcs c' hc'

/-- The fold keeps the first of the smallest. -/
theorem isSmallest_foldl (cs : List β) (a : β) :
    ∃ b, cs.foldl (fun best c => some (better size best c)) (some a) = some b ∧
      IsSmallest size (a :: cs) b := by
  induction cs generalizing a with
  | nil => exact ⟨a, rfl, [], [], rfl, by simp, by simp⟩
  | cons c cs ih =>
    obtain ⟨b, hb, before, after, hl, hbefore, hafter⟩ := ih (better size (some a) c)
    refine ⟨b, hb, ?_⟩
    by_cases h : size a ≤ size c
    · -- the new candidate is passed over
      rw [better, if_pos h] at hl
      cases before with
      | nil =>
        obtain ⟨rfl, rfl⟩ := List.cons.inj hl
        refine ⟨[], c :: cs, rfl, by simp, fun c' hc' => ?_⟩
        rcases List.mem_cons.mp hc' with rfl | hc'
        · exact h
        · exact hafter c' hc'
      | cons a' before =>
        obtain ⟨rfl, rfl⟩ := List.cons.inj hl
        have ha : size b < size a := hbefore a (by simp)
        refine ⟨a :: c :: before, after, rfl, fun c' hc' => ?_, hafter⟩
        rcases List.mem_cons.mp hc' with rfl | hc'
        · exact ha
        · rcases List.mem_cons.mp hc' with rfl | hc'
          · omega
          · exact hbefore c' (by simp [hc'])
    · rw [better, if_neg h] at hl
      refine ⟨a :: before, after, by rw [hl]; rfl, fun c' hc' => ?_, hafter⟩
      rcases List.mem_cons.mp hc' with rfl | hc'
      · have hc : size b ≤ size c := by
          cases before with
          | nil =>
            obtain ⟨rfl, -⟩ := List.cons.inj hl
            exact Nat.le_refl _
          | cons c₁ before =>
            obtain ⟨rfl, -⟩ := List.cons.inj hl
            exact Nat.le_of_lt (hbefore c (by simp))
        omega
      · exact hbefore c' hc'

theorem Chosen.of_search (h : search size limit l none = .ok (.inl b) ∨
    search size limit l none = .ok (.inr (some b))) : Chosen size limit l b := by
  rcases h with h | h
  · exact .inl (.of_search h)
  · obtain ⟨cs, rfl, hcs, hfold⟩ := search_eq_inr h
    refine .inr ⟨cs, rfl, hcs, ?_⟩
    cases cs with
    | nil => cases hfold
    | cons c cs =>
      obtain ⟨b', hb', hsmallest⟩ := isSmallest_foldl cs c
      have heq : b = b' := Option.some.inj (hfold.trans hb')
      rwa [heq]

theorem search_ne_none (h : l ≠ []) : search size limit l none ≠ .ok (.inr none) := by
  intro hsearch
  obtain ⟨cs, rfl, -, hfold⟩ := search_eq_inr hsearch
  cases cs with
  | nil => exact h rfl
  | cons c cs =>
    obtain ⟨b, hb, -⟩ := isSmallest_foldl cs c
    cases hfold.trans hb

end SyncServer.FirstFit
