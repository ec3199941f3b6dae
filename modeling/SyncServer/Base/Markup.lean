import SyncServer.Base.Regex

/-! # Texts with tags

A list that is made of single elements and of tags. A tag is read where it opens, and what is
between two elements that no tag has is made of elements and tags again. So it stays under a
replacement whose pattern begins with such an element.
-/

namespace SyncServer

/-- The list is made of elements with one property and lists with the other. -/
inductive Parts {α : Type} (text : α → Prop) (tag : List α → Prop) : List α → Prop
  | nil : Parts text tag []
  | text {c : α} {s : List α} (hc : text c) (h : Parts text tag s) : Parts text tag (c :: s)
  | tag {t s : List α} (ht : tag t) (h : Parts text tag s) : Parts text tag (t ++ s)

namespace Parts
variable {α : Type} {text text' : α → Prop} {tag tag' : List α → Prop} {s s' : List α}

theorem append (h : Parts text tag s) (h' : Parts text tag s') : Parts text tag (s ++ s') := by
  induction h with
  | nil => exact h'
  | text hc _ ih => exact .text hc ih
  | tag ht _ ih =>
    rw [List.append_assoc]
    exact .tag ht ih

theorem mono (h : Parts text tag s) (htext : ∀ c, text c → text' c) (htag : ∀ t, tag t → tag' t) :
    Parts text' tag' s := by
  induction h with
  | nil => exact .nil
  | text hc _ ih => exact .text (htext _ hc) ih
  | tag ht _ ih => exact .tag (htag _ ht) ih

theorem of_text (h : ∀ c ∈ s, text c) : Parts text tag s := by
  induction s with
  | nil => exact .nil
  | cons c s ih =>
    obtain ⟨hc, h⟩ := List.forall_mem_cons.mp h
    exact .text hc (ih h)

theorem of_tag {t : List α} (h : tag t) : Parts text tag t := by
  have happend : Parts text tag (t ++ []) := .tag h .nil
  rwa [List.append_nil] at happend

theorem split {a b : List α} {d : α} (hd : ∀ t, tag t → d ∉ t)
    (h : Parts text tag (a ++ d :: b)) : Parts text tag a ∧ Parts text tag b := by
  generalize hs : a ++ d :: b = s at h
  induction h generalizing a with
  | nil => simp at hs
  | @text c s hc h ih =>
    rcases a with _ | ⟨c', a⟩
    · obtain ⟨rfl, rfl⟩ := List.cons.inj hs
      exact ⟨.nil, h⟩
    · obtain ⟨rfl, hs'⟩ := List.cons.inj hs
      obtain ⟨ha, hb⟩ := ih hs'
      exact ⟨.text hc ha, hb⟩
  | @tag t s ht h ih =>
    rcases List.append_eq_append_iff.mp hs with ⟨a', rfl, hrest⟩ | ⟨a', rfl, hrest⟩
    · rcases a' with _ | ⟨d', a'⟩
      · obtain ⟨-, hb⟩ := ih (a := []) hrest
        rw [List.append_nil] at ht
        exact ⟨of_tag ht, hb⟩
      · obtain ⟨rfl, -⟩ := List.cons.inj hrest
        exact absurd (by simp) (hd _ ht)
    · obtain ⟨ha, hb⟩ := ih hrest.symm
      exact ⟨.tag ht ha, hb⟩

theorem tag_at {o : α} (htext : ¬ text o) (htag : ∀ t, tag t → ∃ body, t = o :: body ∧ o ∉ body)
    {a b : List α} (h : Parts text tag (a ++ o :: b)) : ∃ t, tag t ∧ t <+: o :: b := by
  generalize hs : a ++ o :: b = s at h
  induction h generalizing a with
  | nil => simp at hs
  | @text c s hc h ih =>
    rcases a with _ | ⟨c', a⟩
    · obtain ⟨rfl, rfl⟩ := List.cons.inj hs
      exact absurd hc htext
    · exact ih (List.cons.inj hs).2
  | @tag t s ht h ih =>
    obtain ⟨body, rfl, hbody⟩ := htag t ht
    rcases a with _ | ⟨c', a⟩
    · exact ⟨o :: body, ht, s, hs.symm⟩
    · obtain ⟨rfl, hs'⟩ := List.cons.inj hs
      rcases List.append_eq_append_iff.mp hs' with ⟨a', rfl, hrest⟩ | ⟨a', rfl, hrest⟩
      · rcases a' with _ | ⟨o', a'⟩
        · exact ih (a := []) hrest
        · obtain ⟨rfl, -⟩ := List.cons.inj hrest
          simp at hbody
      · exact ih hrest.symm

theorem split_list {a d b : List α} (hd : ∀ t, tag t → ∀ c ∈ d, c ∉ t) (hne : d ≠ [])
    (h : Parts text tag (a ++ (d ++ b))) : Parts text tag a ∧ Parts text tag b := by
  induction d generalizing a with
  | nil => exact absurd rfl hne
  | cons c d ih =>
    obtain ⟨ha, hb⟩ := split (fun t ht => hd t ht c List.mem_cons_self) h
    by_cases hnil : d = []
    · subst hnil
      exact ⟨ha, hb⟩
    · exact ⟨ha, (ih (a := []) (fun t ht x hx => hd t ht x (List.mem_cons_of_mem _ hx)) hnil hb).2⟩

theorem first (h : Parts text tag s) : s = [] ∨
    (∃ c s', s = c :: s' ∧ text c ∧ Parts text tag s') ∨
      ∃ t s', s = t ++ s' ∧ t ≠ [] ∧ tag t ∧ Parts text tag s' := by
  induction h with
  | nil => exact .inl rfl
  | text hc h => exact .inr (.inl ⟨_, _, rfl, hc, h⟩)
  | @tag t s ht h ih =>
    by_cases hnil : t = []
    · subst hnil
      exact ih
    · exact .inr (.inr ⟨t, s, rfl, hnil, ht, h⟩)

/-- A replacement leaves texts with tags, if it does so at each match. -/
theorem replaced {p : α → Bool} {pieces : List (Piece α)} {f : List (List α) → List α} {r : List α}
    (htext : ∀ c, text c → text' c) (htag : ∀ t, tag t → tag' t)
    (hp : ∀ t, tag t → ∀ c ∈ t, p c = false)
    (hhit : ∀ s gs rest, Parts text tag s →
      Piece.matchPieces (.one p :: pieces) s = some (gs, rest) →
      Parts text' tag' (f gs) ∧ Parts text tag rest)
    (h : Parts text tag s) (hr : Piece.Replaced (.one p :: pieces) f s r) : Parts text' tag' r := by
  induction hn : s.length using Nat.strongRecOn generalizing s r with
  | _ n ih =>
    subst hn
    rcases h.first with rfl | ⟨c, s', rfl, hc, hs'⟩ | ⟨t, s', rfl, hne, ht, hs'⟩
    · cases hr with
      | nil => exact .nil
      | hit hsome => cases hsome
    · cases hr with
      | skip _ hr => exact .text (htext c hc) (ih _ (by simp) hs' hr rfl)
      | hit hsome hr =>
        obtain ⟨hf, hrest⟩ := hhit _ _ _ h hsome
        obtain ⟨t, heq, ht⟩ := Piece.fits_of_matchPieces hsome
        have hpos := List.length_pos_of_ne_nil (ht.length_pos (by simp))
        refine hf.append (ih _ ?_ hrest hr rfl)
        rw [heq, List.length_append]
        omega
    · obtain ⟨r', rfl, hr'⟩ := Piece.Replaced.of_append (hp t ht) hr
      refine .tag (htag t ht) (ih _ ?_ hs' hr' rfl)
      have hpos := List.length_pos_of_ne_nil hne
      rw [List.length_append]
      omega

end Parts

/-! ## The first tag -/

section
variable {α : Type} {o : α} {body : List α}

theorem eq_nil_of_append_tag (ho : o ∉ body) {x b b' : List α}
    (hx : ¬ o :: body <:+: x) (h : o :: body ++ b = x ++ (o :: body ++ b')) : x = [] := by
  rcases List.append_eq_append_iff.mp h with ⟨y, rfl, hrest⟩ | ⟨y, hbody, hrest⟩
  · exact absurd (List.prefix_append _ _).isInfix hx
  · rcases x with _ | ⟨c, x⟩
    · rfl
    obtain ⟨rfl, rfl⟩ := List.cons.inj hbody
    rcases y with _ | ⟨c, y⟩
    · exact absurd (by simp) hx
    · obtain ⟨rfl, -⟩ := List.cons.inj hrest
      simp at ho

theorem eq_of_append_tag (o : α) (body : List α) (ho : o ∉ body) {a a' b b' : List α} (ha : ¬ o :: body <:+: a)
    (ha' : ¬ o :: body <:+: a') (h : a ++ (o :: body ++ b) = a' ++ (o :: body ++ b')) :
    a = a' ∧ b = b' := by
  have hsame : a = a' := by
    rcases List.append_eq_append_iff.mp h with ⟨x, rfl, hrest⟩ | ⟨x, rfl, hrest⟩
    · have hx := eq_nil_of_append_tag ho (fun hin => ha' (hin.trans (List.suffix_append _ _).isInfix))
        hrest
      rw [hx, List.append_nil]
    · have hx := eq_nil_of_append_tag ho (fun hin => ha (hin.trans (List.suffix_append _ _).isInfix))
        hrest
      rw [hx, List.append_nil]
  subst hsame
  exact ⟨rfl, List.append_cancel_left (List.append_cancel_left h)⟩

theorem eq_of_append_cons [DecidableEq α] {x : α} {s s' t t' : List α}
    (h : s ++ x :: t = s' ++ x :: t') (hcount : t.count x = t'.count x) : s = s' ∧ t = t' := by
  have hbehind : ∀ {s s' t t' : List α}, s ++ x :: t = s' ++ x :: t' → t.count x = t'.count x →
      s'.length ≤ s.length → s = s' := by
    intro s s' t t' h hcount hlength
    rcases List.append_eq_append_iff.mp h with ⟨y, rfl, -⟩ | ⟨y, rfl, hrest⟩
    · rw [List.length_append] at hlength
      rw [List.eq_nil_of_length_eq_zero (l := y) (by omega), List.append_nil]
    · rcases y with _ | ⟨c, y⟩
      · rw [List.append_nil]
      · obtain ⟨rfl, rfl⟩ := List.cons.inj hrest
        simp at hcount
        omega
  have hsame : s = s' := by
    rcases Nat.le_total s'.length s.length with hlength | hlength
    · exact hbehind h hcount hlength
    · exact (hbehind h.symm hcount.symm hlength).symm
  subst hsame
  exact ⟨rfl, (List.cons.inj (List.append_cancel_left h)).2⟩

end

/-! ## What stays in place -/

/-- Texts that differ in runs of certain elements, none of which is empty. -/
inductive Swaps {α : Type} (p : α → Prop) : List α → List α → Prop
  | nil : Swaps p [] []
  | keep (c : α) {s t : List α} (h : Swaps p s t) : Swaps p (c :: s) (c :: t)
  | swap {u v s t : List α} (hu : u ≠ []) (hv : v ≠ []) (hpu : ∀ c ∈ u, p c) (hpv : ∀ c ∈ v, p c)
    (h : Swaps p s t) : Swaps p (u ++ s) (v ++ t)

namespace Swaps
variable {α : Type} {p : α → Prop} {s t : List α} {x y : α}

theorem keep_append (l : List α) (h : Swaps p s t) : Swaps p (l ++ s) (l ++ t) := by
  induction l with
  | nil => exact h
  | cons c l ih => exact .keep c ih

theorem eq_nil_iff (h : Swaps p s t) : s = [] ↔ t = [] := by
  cases h with
  | nil => exact Iff.rfl
  | keep => simp
  | swap hu hv => simp [hu, hv]

theorem mem_iff (hx : ¬ p x) (h : Swaps p s t) : x ∈ s ↔ x ∈ t := by
  induction h with
  | nil => exact Iff.rfl
  | keep c _ ih => simp [ih]
  | swap _ _ hpu hpv _ ih =>
    rw [List.mem_append, List.mem_append, ih]
    exact or_congr_left (iff_of_false (fun hm => hx (hpu x hm)) (fun hm => hx (hpv x hm)))

theorem prefix_iff (hy : ¬ p y) (h : Swaps p s t) : [y] <+: s ↔ [y] <+: t := by
  have hother : ∀ {u r : List α}, u ≠ [] → (∀ c ∈ u, p c) → ¬ [y] <+: u ++ r := by
    intro u r hne hu
    rcases u with _ | ⟨c, u⟩
    · exact absurd rfl hne
    · rintro ⟨rest, heq⟩
      obtain ⟨rfl, -⟩ := List.cons.inj heq
      exact hy (hu y List.mem_cons_self)
  cases h with
  | nil => exact Iff.rfl
  | keep c => simp [List.cons_prefix_cons]
  | swap hu hv hpu hpv => exact iff_of_false (hother hu hpu) (hother hv hpv)

theorem pair_append {u : List α} (hx : ¬ p x) (hu : ∀ c ∈ u, p c) (s : List α) :
    [x, y] <:+: u ++ s ↔ [x, y] <:+: s := by
  induction u with
  | nil => exact Iff.rfl
  | cons c u ih =>
    obtain ⟨hc, hu⟩ := List.forall_mem_cons.mp hu
    have hne : x ≠ c := fun heq => hx (heq ▸ hc)
    rw [List.cons_append, List.infix_cons_iff, List.cons_prefix_cons, ih hu]
    simp [hne]

theorem pair_iff (hx : ¬ p x) (hy : ¬ p y) (h : Swaps p s t) :
    [x, y] <:+: s ↔ [x, y] <:+: t := by
  induction h with
  | nil => exact Iff.rfl
  | keep c h ih =>
    rw [List.infix_cons_iff, List.infix_cons_iff, List.cons_prefix_cons, List.cons_prefix_cons, ih,
      h.prefix_iff hy]
  | swap _ _ hpu hpv _ ih => rw [pair_append hx hpu, pair_append hx hpv, ih]

theorem pair_tail_iff (hx : ¬ p x) (hy : ¬ p y) (h : Swaps p s t) :
    [x, y] <:+: s.tail ↔ [x, y] <:+: t.tail := by
  cases h with
  | nil => exact Iff.rfl
  | keep c h => exact h.pair_iff hx hy
  | @swap u v s t hu hv hpu hpv h =>
    rw [List.tail_append_of_ne_nil hu, List.tail_append_of_ne_nil hv,
      pair_append hx (fun c hc => hpu c (List.mem_of_mem_tail hc)),
      pair_append hx (fun c hc => hpv c (List.mem_of_mem_tail hc)), h.pair_iff hx hy]

end Swaps

end SyncServer
