import Mathlib.Data.List.Basic
import Mathlib.Tactic.Common

/-! # Runs between separators

The maximal runs of a list that contain no separator, in their order. What lies on the two sides of a
separator is made of runs of its own; without one, the last run of the left side and the first one of
the right side grow together.
-/

namespace SyncServer

section
variable {α : Type} (p : α → Bool)

/-- The maximal nonempty runs without a separator. -/
def runs (l : List α) : List (List α) := (l.splitOnP p).filter (· ≠ [])

variable {p}

@[simp] theorem runs_nil : runs p ([] : List α) = [] := rfl

theorem runs_append_cons {c : α} (hc : p c = true) (l r : List α) :
    runs p (l ++ c :: r) = runs p l ++ runs p r := by
  rw [runs, List.splitOnP_append_cons l r hc, List.filter_append]
  rfl

theorem runs_cons_of_separator {c : α} (hc : p c = true) (r : List α) : runs p (c :: r) = runs p r :=
  runs_append_cons hc [] r

theorem runs_eq_singleton {w : List α} (hne : w ≠ []) (hw : ∀ c ∈ w, p c = false) :
    runs p w = [w] := by
  rw [runs, List.splitOnP_eq_singleton (by simpa using hw)]
  simp [hne]

theorem runs_cons {c : α} (hc : p c = false) (l : List α) :
    runs p (c :: l) = [c] :: runs p l ∨
      ∃ w rest, runs p l = w :: rest ∧ runs p (c :: l) = (c :: w) :: rest := by
  obtain ⟨head, tail, h⟩ := List.exists_cons_of_ne_nil (List.splitOnP_ne_nil p l)
  rw [runs, runs, List.splitOnP_cons_eq_if_modifyHead, h]
  by_cases hhead : head = []
  · simp [hc, hhead]
  · simp [hc, hhead]

theorem runs_cons_cons {c d : α} (hc : p c = false) (hd : p d = false) (l : List α) :
    ∃ w rest, runs p (d :: l) = w :: rest ∧ runs p (c :: d :: l) = (c :: w) :: rest := by
  obtain ⟨head, tail, h⟩ := List.exists_cons_of_ne_nil (List.splitOnP_ne_nil p l)
  have hsplit : (d :: l).splitOnP p = (d :: head) :: tail := by
    rw [List.splitOnP_cons_eq_if_modifyHead, h]
    simp [hd]
  have hnext : (c :: d :: l).splitOnP p = (c :: d :: head) :: tail := by
    rw [List.splitOnP_cons_eq_if_modifyHead, hsplit]
    simp [hc]
  rw [runs, runs, hsplit, hnext]
  simp

theorem mem_runs {l w : List α} (h : w ∈ runs p l) : w ≠ [] ∧ ∀ c ∈ w, c ∈ l ∧ p c = false := by
  induction l generalizing w with
  | nil => simp at h
  | cons x l ih =>
    by_cases hx : p x = true
    · rw [runs_cons_of_separator hx] at h
      exact ⟨(ih h).1, fun c hc => ⟨List.mem_cons_of_mem _ ((ih h).2 c hc).1, ((ih h).2 c hc).2⟩⟩
    · rw [Bool.not_eq_true] at hx
      have hgrow : ∀ c ∈ w, c = x ∨ (c ∈ l ∧ p c = false) → c ∈ x :: l ∧ p c = false := by
        rintro c - (rfl | ⟨hc, hpc⟩)
        · exact ⟨by simp, hx⟩
        · exact ⟨List.mem_cons_of_mem _ hc, hpc⟩
      rcases runs_cons hx l with hruns | ⟨v, rest, hl, hruns⟩
      · rw [hruns, List.mem_cons] at h
        rcases h with rfl | h
        · exact ⟨by simp, fun c hc => hgrow c hc (.inl (by simpa using hc))⟩
        · exact ⟨(ih h).1, fun c hc => hgrow c hc (.inr ((ih h).2 c hc))⟩
      · rw [hruns, List.mem_cons] at h
        rcases h with rfl | h
        · refine ⟨by simp, fun c hc => hgrow c hc ?_⟩
          rcases List.mem_cons.mp hc with rfl | hc
          · exact .inl rfl
          · exact .inr ((ih (w := v) (by rw [hl]; simp)).2 c hc)
        · have hin : w ∈ runs p l := by
            rw [hl]
            exact List.mem_cons_of_mem _ h
          exact ⟨(ih hin).1, fun c hc => hgrow c hc (.inr ((ih hin).2 c hc))⟩

/-- A list that ends with `w` has a last run that does. -/
theorem runs_append_right {w : List α} (hne : w ≠ []) (hw : ∀ c ∈ w, p c = false) (l : List α) :
    ∃ front x, runs p (l ++ w) = front ++ [x] ∧ w <:+ x := by
  induction l with
  | nil => exact ⟨[], w, runs_eq_singleton hne hw, List.suffix_rfl⟩
  | cons c l ih =>
    obtain ⟨front, x, hruns, hx⟩ := ih
    by_cases hc : p c = true
    · exact ⟨front, x, by rw [List.cons_append, runs_cons_of_separator hc, hruns], hx⟩
    · rw [Bool.not_eq_true] at hc
      rcases runs_cons hc (l ++ w) with h | ⟨v, rest, hl, h⟩
      · exact ⟨[c] :: front, x, by rw [List.cons_append, h, hruns]; rfl, hx⟩
      · rw [hruns] at hl
        cases front with
        | nil =>
          obtain ⟨rfl, rfl⟩ := List.cons.inj hl
          exact ⟨[], c :: x, h, hx.trans (List.suffix_cons c x)⟩
        | cons u front =>
          obtain ⟨rfl, rfl⟩ := List.cons.inj hl
          exact ⟨(c :: u) :: front, x, h, hx⟩

/-- A list that begins with `w` has a first run that does. -/
theorem runs_append_left {w : List α} (hne : w ≠ []) (hw : ∀ c ∈ w, p c = false) (r : List α) :
    ∃ y rest, runs p (w ++ r) = y :: rest ∧ w <+: y := by
  induction w with
  | nil => exact absurd rfl hne
  | cons c w ih =>
    have hc : p c = false := hw c (by simp)
    cases w with
    | nil =>
      rcases runs_cons hc r with h | ⟨v, rest, -, h⟩
      · exact ⟨[c], _, h, List.prefix_rfl⟩
      · exact ⟨c :: v, rest, h, by simp⟩
    | cons d w =>
      obtain ⟨y, rest, hruns, hy⟩ := ih (by simp) (fun x hx => hw x (List.mem_cons_of_mem _ hx))
      obtain ⟨v, rest', hv, h⟩ := runs_cons_cons hc (hw d (by simp)) (w ++ r)
      rw [List.cons_append] at hruns
      obtain ⟨rfl, rfl⟩ := List.cons.inj (hv.symm.trans hruns)
      exact ⟨c :: v, rest', h, by simpa using hy⟩

theorem runs_around {a b : List α} {c : α} (ha : a ≠ []) (hb : b ≠ []) (hc : p c = true)
    (hpa : ∀ x ∈ a, p x = false) (hpb : ∀ x ∈ b, p x = false) (l r : List α) :
    ∃ front x y rest, runs p (l ++ a ++ c :: (b ++ r)) = front ++ x :: y :: rest ∧ a <:+ x ∧
      b <+: y := by
  obtain ⟨front, x, hl, hx⟩ := runs_append_right ha hpa l
  obtain ⟨y, rest, hr, hy⟩ := runs_append_left hb hpb r
  exact ⟨front, x, y, rest, by rw [runs_append_cons hc, hl, hr]; simp, hx, hy⟩

theorem runs_intercalate {c : α} (hc : p c = true) {ws : List (List α)}
    (hws : ∀ w ∈ ws, w ≠ [] ∧ ∀ x ∈ w, p x = false) : runs p ([c].intercalate ws) = ws := by
  induction ws with
  | nil => rfl
  | cons w rest ih =>
    obtain ⟨hne, hw⟩ := hws w (by simp)
    have hrest := ih (fun v hv => hws v (List.mem_cons_of_mem _ hv))
    cases rest with
    | nil => simpa using runs_eq_singleton hne hw
    | cons v rest =>
      rw [List.intercalate_cons_cons, List.append_assoc, List.singleton_append, runs_append_cons hc,
        hrest, runs_eq_singleton hne hw]
      rfl

/-! ## Joined words -/

theorem mem_intercalate {c x : α} {ws : List (List α)} (h : x ∈ [c].intercalate ws) :
    x = c ∨ ∃ w ∈ ws, x ∈ w := by
  induction ws with
  | nil => simp at h
  | cons w rest ih =>
    cases rest with
    | nil => exact .inr ⟨w, by simp, by simpa using h⟩
    | cons v rest =>
      rw [List.intercalate_cons_cons, List.append_assoc, List.mem_append] at h
      rcases h with hw | h
      · exact .inr ⟨w, by simp, hw⟩
      · rcases List.mem_append.mp h with hc | hrest
        · exact .inl (by simpa using hc)
        · rcases ih hrest with rfl | ⟨u, hu, hx⟩
          · exact .inl rfl
          · exact .inr ⟨u, List.mem_cons_of_mem _ hu, hx⟩

theorem head?_intercalate {c x : α} {ws : List (List α)} (hne : ∀ w ∈ ws, w ≠ [])
    (h : x ∈ ([c].intercalate ws).head?) : ∃ w ∈ ws, x ∈ w := by
  cases ws with
  | nil => simp at h
  | cons w rest =>
    obtain ⟨y, w', rfl⟩ := List.exists_cons_of_ne_nil (hne w (by simp))
    refine ⟨y :: w', by simp, ?_⟩
    cases rest with
    | nil =>
      obtain rfl : y = x := by simpa using h
      simp
    | cons v rest =>
      obtain rfl : y = x := by simpa [List.intercalate_cons_cons] using h
      simp

theorem getLast?_intercalate {c x : α} {ws : List (List α)} (hne : ∀ w ∈ ws, w ≠ [])
    (h : x ∈ ([c].intercalate ws).getLast?) : ∃ w ∈ ws, x ∈ w := by
  induction ws with
  | nil => simp at h
  | cons w rest ih =>
    cases rest with
    | nil =>
      rw [List.intercalate_singleton] at h
      exact ⟨w, by simp, List.mem_of_getLast? h⟩
    | cons v rest =>
      have hrest : [c].intercalate (v :: rest) ≠ [] := by
        obtain ⟨y, v', rfl⟩ := List.exists_cons_of_ne_nil (hne v (by simp))
        cases rest <;> simp [List.intercalate_cons_cons]
      rw [List.intercalate_cons_cons, List.append_assoc, List.getLast?_append_of_ne_nil _ (by simp),
        List.singleton_append, List.getLast?_cons_of_ne_nil hrest] at h
      obtain ⟨u, hu, hx⟩ := ih (fun u hu => hne u (List.mem_cons_of_mem _ hu)) h
      exact ⟨u, List.mem_cons_of_mem _ hu, hx⟩

theorem intercalate_around (c : α) (front : List (List α)) (x y : List α) (rest : List (List α)) :
    ∃ l r, [c].intercalate (front ++ x :: y :: rest) = l ++ x ++ c :: (y ++ r) := by
  induction front with
  | nil =>
    rw [List.nil_append, List.intercalate_cons_cons]
    cases rest with
    | nil => exact ⟨[], [], by simp⟩
    | cons z rest =>
      exact ⟨[], c :: [c].intercalate (z :: rest), by simp [List.intercalate_cons_cons]⟩
  | cons w front ih =>
    obtain ⟨l, r, h⟩ := ih
    refine ⟨w ++ c :: l, r, ?_⟩
    rw [List.cons_append, List.intercalate_cons_of_ne_nil (by simp), h]
    simp

end
end SyncServer
