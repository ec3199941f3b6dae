import Mathlib.Data.List.Basic
import Mathlib.Tactic.Common

/-! # Patterns, and replacement from left to right

A pattern is a row of pieces, and a match is the one that backtracking finds first: a lazy piece is
as short as the pieces after it let it be, a greedy one as long. A replacement looks for a match at
every place from left to right, and goes on behind it.
-/

namespace SyncServer

/-- One element, or a run of at least one that is captured. -/
inductive Piece (α : Type) where
  | one (p : α → Bool)
  | shortest (p : α → Bool)
  | longest (p : α → Bool)

namespace Piece
variable {α β : Type}

def matchShortest (p : α → Bool) (k : List α → Option β) : List α → Option (List α × β)
  | [] => none
  | c :: s =>
    if p c then
      match k s with
      | some b => some ([c], b)
      | none => (matchShortest p k s).map (fun m => (c :: m.1, m.2))
    else none

def matchLongest (p : α → Bool) (k : List α → Option β) : List α → Option (List α × β)
  | [] => none
  | c :: s =>
    if p c then
      match matchLongest p k s with
      | some m => some (c :: m.1, m.2)
      | none => (k s).map (fun b => ([c], b))
    else none

/-- The captures of the match at the front, and what comes after it. -/
def matchPieces : List (Piece α) → List α → Option (List (List α) × List α)
  | [], s => some ([], s)
  | one _ :: _, [] => none
  | one p :: pieces, c :: s => if p c then matchPieces pieces s else none
  | shortest p :: pieces, s =>
    (matchShortest p (matchPieces pieces) s).map (fun m => (m.1 :: m.2.1, m.2.2))
  | longest p :: pieces, s =>
    (matchLongest p (matchPieces pieces) s).map (fun m => (m.1 :: m.2.1, m.2.2))

def replaceFrom (pieces : List (Piece α)) (f : List (List α) → List α) : Nat → List α → List α
  | 0, s => s
  | _ + 1, [] => []
  | n + 1, c :: s =>
    match matchPieces pieces (c :: s) with
    | some m => f m.1 ++ replaceFrom pieces f n m.2
    | none => c :: replaceFrom pieces f n s

/-- All matches of a pattern with pieces, replaced by what is made of their captures. -/
def replaceAll (pieces : List (Piece α)) (f : List (List α) → List α) (s : List α) : List α :=
  replaceFrom pieces f s.length s

/-! ## What matches -/

/-- The captures of a text that the pattern describes. -/
inductive Fits : List (Piece α) → List (List α) → List α → Prop
  | nil : Fits [] [] []
  | one {p : α → Bool} {pieces : List (Piece α)} {gs : List (List α)} {t : List α} {c : α}
    (hc : p c = true) (h : Fits pieces gs t) : Fits (.one p :: pieces) gs (c :: t)
  | shortest {p : α → Bool} {pieces : List (Piece α)} {gs : List (List α)} {g t : List α}
    (hne : g ≠ []) (hg : ∀ c ∈ g, p c = true) (h : Fits pieces gs t) :
    Fits (.shortest p :: pieces) (g :: gs) (g ++ t)
  | longest {p : α → Bool} {pieces : List (Piece α)} {gs : List (List α)} {g t : List α}
    (hne : g ≠ []) (hg : ∀ c ∈ g, p c = true) (h : Fits pieces gs t) :
    Fits (.longest p :: pieces) (g :: gs) (g ++ t)

section
variable {p : α → Bool} {k : List α → Option β}

/-- The shortest run is one of which no part would do. -/
theorem of_matchShortest {s g : List α} {b : β} (h : matchShortest p k s = some (g, b)) :
    ∃ s', s = g ++ s' ∧ g ≠ [] ∧ (∀ c ∈ g, p c = true) ∧ k s' = some b ∧
      ∀ x y, g = x ++ y → x ≠ [] → y ≠ [] → k (y ++ s') = none := by
  induction s generalizing g with
  | nil => cases h
  | cons c s ih =>
    rw [matchShortest] at h
    by_cases hc : p c = true
    · rw [if_pos hc] at h
      rcases hk : k s with _ | b₀
      · rw [hk] at h
        obtain ⟨⟨g', b'⟩, hm, heq⟩ := Option.map_eq_some_iff.mp h
        cases heq
        obtain ⟨s', rfl, -, hall, hb, hleast⟩ := ih hm
        refine ⟨s', rfl, by simp, List.forall_mem_cons.mpr ⟨hc, hall⟩, hb, ?_⟩
        intro x y hxy hx hy
        rcases x with _ | ⟨d, x⟩
        · exact absurd rfl hx
        obtain ⟨rfl, rfl⟩ := List.cons.inj hxy
        by_cases hx' : x = []
        · simpa [hx'] using hk
        · exact hleast x y rfl hx' hy
      · rw [hk] at h
        cases h
        refine ⟨s, rfl, by simp, by simpa using hc, hk, ?_⟩
        intro x y hxy hx hy
        rcases x with _ | ⟨d, x⟩
        · exact absurd rfl hx
        · obtain ⟨-, hnil⟩ := List.cons.inj hxy
          exact absurd (List.append_eq_nil_iff.mp hnil.symm).2 hy
    · rw [if_neg hc] at h
      cases h

theorem matchShortest_of_least {g s : List α} {b : β} (hne : g ≠ []) (hg : ∀ c ∈ g, p c = true)
    (hb : k s = some b) (hleast : ∀ x y, g = x ++ y → x ≠ [] → y ≠ [] → k (y ++ s) = none) :
    matchShortest p k (g ++ s) = some (g, b) := by
  induction g with
  | nil => exact absurd rfl hne
  | cons c g ih =>
    obtain ⟨hc, hg⟩ := List.forall_mem_cons.mp hg
    rw [List.cons_append, matchShortest, if_pos hc]
    by_cases hnil : g = []
    · subst hnil
      rw [List.nil_append, hb]
    · have hrest : matchShortest p k (g ++ s) = some (g, b) :=
        ih hnil hg (fun x y hxy hx hy => hleast (c :: x) y (by rw [hxy]; rfl) (by simp) hy)
      rw [hleast [c] g rfl (by simp) hnil, hrest]
      rfl

theorem isSome_matchShortest {g s : List α} (hne : g ≠ []) (hg : ∀ c ∈ g, p c = true)
    (hk : (k s).isSome = true) : (matchShortest p k (g ++ s)).isSome = true := by
  induction g with
  | nil => exact absurd rfl hne
  | cons c g ih =>
    obtain ⟨hc, hg⟩ := List.forall_mem_cons.mp hg
    rw [List.cons_append, matchShortest, if_pos hc]
    rcases h : k (g ++ s) with _ | b
    · by_cases hnil : g = []
      · subst hnil
        rw [List.nil_append] at h
        rw [h] at hk
        cases hk
      · simpa using ih hnil hg
    · rfl

theorem isSome_matchLongest {g s : List α} (hne : g ≠ []) (hg : ∀ c ∈ g, p c = true)
    (hk : (k s).isSome = true) : (matchLongest p k (g ++ s)).isSome = true := by
  induction g with
  | nil => exact absurd rfl hne
  | cons c g ih =>
    obtain ⟨hc, hg⟩ := List.forall_mem_cons.mp hg
    rw [List.cons_append, matchLongest, if_pos hc]
    rcases h : matchLongest p k (g ++ s) with _ | m
    · by_cases hnil : g = []
      · simpa [hnil] using hk
      · rw [h] at ih
        exact absurd (ih hnil hg) (by simp)
    · rfl

theorem of_matchLongest {s g : List α} {b : β} (h : matchLongest p k s = some (g, b)) :
    ∃ s', s = g ++ s' ∧ g ≠ [] ∧ (∀ c ∈ g, p c = true) ∧ k s' = some b := by
  induction s generalizing g with
  | nil => cases h
  | cons c s ih =>
    rw [matchLongest] at h
    by_cases hc : p c = true
    · rw [if_pos hc] at h
      rcases hm : matchLongest p k s with _ | ⟨g', b'⟩
      · rw [hm] at h
        obtain ⟨b₀, hb, heq⟩ := Option.map_eq_some_iff.mp h
        cases heq
        exact ⟨s, rfl, by simp, by simpa using hc, hb⟩
      · rw [hm] at h
        cases h
        obtain ⟨s', rfl, -, hall, hb⟩ := ih hm
        exact ⟨s', rfl, by simp, List.forall_mem_cons.mpr ⟨hc, hall⟩, hb⟩
    · rw [if_neg hc] at h
      cases h

end

variable {pieces : List (Piece α)} {gs : List (List α)} {rest : List α}

/-- What matches is described by the pattern. -/
theorem fits_of_matchPieces {s : List α} (h : matchPieces pieces s = some (gs, rest)) :
    ∃ t, s = t ++ rest ∧ Fits pieces gs t := by
  induction pieces generalizing s gs with
  | nil =>
    cases h
    exact ⟨[], rfl, .nil⟩
  | cons piece pieces ih =>
    cases piece with
    | one p =>
      rcases s with _ | ⟨c, s⟩
      · cases h
      rw [matchPieces] at h
      by_cases hc : p c = true
      · rw [if_pos hc] at h
        obtain ⟨t, rfl, ht⟩ := ih h
        exact ⟨c :: t, rfl, .one hc ht⟩
      · rw [if_neg hc] at h
        cases h
    | shortest p =>
      obtain ⟨⟨g, gs', rest'⟩, hm, heq⟩ := Option.map_eq_some_iff.mp h
      cases heq
      obtain ⟨s', rfl, hne, hg, hb, -⟩ := of_matchShortest hm
      obtain ⟨t, rfl, ht⟩ := ih hb
      exact ⟨g ++ t, (List.append_assoc ..).symm, .shortest hne hg ht⟩
    | longest p =>
      obtain ⟨⟨g, gs', rest'⟩, hm, heq⟩ := Option.map_eq_some_iff.mp h
      cases heq
      obtain ⟨s', rfl, hne, hg, hb⟩ := of_matchLongest hm
      obtain ⟨t, rfl, ht⟩ := ih hb
      exact ⟨g ++ t, (List.append_assoc ..).symm, .longest hne hg ht⟩

theorem Fits.isSome_matchPieces {t : List α} (h : Fits pieces gs t) (rest : List α) :
    (matchPieces pieces (t ++ rest)).isSome = true := by
  induction h with
  | nil => rfl
  | one hc _ ih => rwa [List.cons_append, matchPieces, if_pos hc]
  | shortest hne hg _ ih =>
    rw [List.append_assoc, matchPieces, Option.isSome_map]
    exact isSome_matchShortest hne hg ih
  | longest hne hg _ ih =>
    rw [List.append_assoc, matchPieces, Option.isSome_map]
    exact isSome_matchLongest hne hg ih

theorem Fits.length_pos {t : List α} (h : Fits pieces gs t) (hne : pieces ≠ []) : t ≠ [] := by
  cases h with
  | nil => exact absurd rfl hne
  | one => simp
  | shortest hg => simp [hg]
  | longest hg => simp [hg]

/-! ## What is replaced -/

/-- The replacement as a relation: at every place there is a match or there is none. -/
inductive Replaced (pieces : List (Piece α)) (f : List (List α) → List α) :
    List α → List α → Prop
  | nil : Replaced pieces f [] []
  | skip {c : α} {s t : List α} (hnone : matchPieces pieces (c :: s) = none)
    (h : Replaced pieces f s t) : Replaced pieces f (c :: s) (c :: t)
  | hit {s rest t : List α} {gs : List (List α)} (hsome : matchPieces pieces s = some (gs, rest))
    (h : Replaced pieces f rest t) : Replaced pieces f s (f gs ++ t)

variable {f : List (List α) → List α}

theorem replaced_replaceFrom (hne : pieces ≠ []) {n : Nat} {s : List α} (hn : s.length ≤ n) :
    Replaced pieces f s (replaceFrom pieces f n s) := by
  induction n generalizing s with
  | zero =>
    obtain rfl := List.length_eq_zero_iff.mp (Nat.le_zero.mp hn)
    exact .nil
  | succ n ih =>
    rcases s with _ | ⟨c, s⟩
    · exact .nil
    rw [replaceFrom]
    rcases hm : matchPieces pieces (c :: s) with _ | ⟨gs, rest⟩
    · exact .skip hm (ih (Nat.le_of_succ_le_succ hn))
    · refine .hit hm (ih ?_)
      obtain ⟨t, heq, ht⟩ := fits_of_matchPieces hm
      have hpos : 0 < t.length := List.length_pos_of_ne_nil (ht.length_pos hne)
      have hlength : (c :: s).length = t.length + rest.length := by
        rw [heq, List.length_append]
      omega

theorem replaced_replaceAll (hne : pieces ≠ []) (s : List α) :
    Replaced pieces f s (replaceAll pieces f s) :=
  replaced_replaceFrom hne (Nat.le_refl _)

theorem Replaced.unique (hne : pieces ≠ []) {s t t' : List α} (h : Replaced pieces f s t)
    (h' : Replaced pieces f s t') : t = t' := by
  induction h generalizing t' with
  | nil =>
    cases h' with
    | nil => rfl
    | hit hsome =>
      obtain ⟨t, heq, ht⟩ := fits_of_matchPieces hsome
      exact absurd (List.append_eq_nil_iff.mp heq.symm).1 (ht.length_pos hne)
  | skip hnone _ ih =>
    cases h' with
    | skip _ h' => rw [ih h']
    | hit hsome => rw [hnone] at hsome; cases hsome
  | hit hsome _ ih =>
    cases h' with
    | nil =>
      obtain ⟨t, heq, ht⟩ := fits_of_matchPieces hsome
      exact absurd (List.append_eq_nil_iff.mp heq.symm).1 (ht.length_pos hne)
    | skip hnone => rw [hnone] at hsome; cases hsome
    | hit hsome' h' =>
      rw [hsome] at hsome'
      cases hsome'
      rw [ih h']

theorem replaceAll_eq (hne : pieces ≠ []) {s t : List α} (h : Replaced pieces f s t) :
    replaceAll pieces f s = t :=
  (replaced_replaceAll hne s).unique hne h

theorem Replaced.of_none {s : List α}
    (h : ∀ x y, s = x ++ y → matchPieces pieces y = none) : Replaced pieces f s s := by
  induction s with
  | nil => exact .nil
  | cons c s ih =>
    exact .skip (h [] (c :: s) rfl) (ih (fun x y hxy => h (c :: x) y (by rw [hxy]; rfl)))

theorem Replaced.of_append {p : α → Bool} {t s r : List α} (ht : ∀ c ∈ t, p c = false)
    (h : Replaced (one p :: pieces) f (t ++ s) r) :
    ∃ r', r = t ++ r' ∧ Replaced (one p :: pieces) f s r' := by
  induction t generalizing r with
  | nil => exact ⟨r, rfl, h⟩
  | cons c t ih =>
    obtain ⟨hc, ht⟩ := List.forall_mem_cons.mp ht
    cases h with
    | skip _ h =>
      obtain ⟨r', rfl, hr'⟩ := ih ht h
      exact ⟨r', rfl, hr'⟩
    | hit hsome =>
      rw [List.cons_append, matchPieces, if_neg (by simp [hc])] at hsome
      cases hsome

theorem replaceAll_append_left {p : α → Bool} {t : List α} (ht : ∀ c ∈ t, p c = false)
    (s : List α) :
    replaceAll (one p :: pieces) f (t ++ s) = t ++ replaceAll (one p :: pieces) f s := by
  have hne : one p :: pieces ≠ [] := by simp
  obtain ⟨r, hr, hreplaced⟩ := Replaced.of_append ht (replaced_replaceAll hne (f := f) (t ++ s))
  rw [hr, replaceAll_eq hne hreplaced]

theorem Replaced.eq_nil (hf : ∀ gs, f gs ≠ []) {s : List α} (h : Replaced pieces f s []) :
    s = [] := by
  generalize hr : ([] : List α) = r at h
  cases h with
  | nil => rfl
  | skip => cases hr
  | hit => exact absurd (List.append_eq_nil_iff.mp hr.symm).1 (hf _)

/-! ## What comes after -/

/-- The pattern has an element that the text does not have. -/
def Needs (b : List α) (pieces : List (Piece α)) : Prop :=
  ∃ p, one p ∈ pieces ∧ ∀ c ∈ b, p c = false

/-- No match of a part of the pattern gets into the text from before it. -/
def Guarded (b : List α) : List (Piece α) → Prop
  | [] => True
  | one p :: pieces => (∀ c ∈ b, p c = false) ∧ Guarded b pieces
  | shortest _ :: pieces => Needs b pieces ∧ Guarded b pieces
  | longest _ :: pieces => Needs b pieces ∧ Guarded b pieces

theorem Fits.exists_one {t : List α} (h : Fits pieces gs t) {p : α → Bool}
    (hp : Piece.one p ∈ pieces) : ∃ c ∈ t, p c = true := by
  induction h with
  | nil => cases hp
  | one hc _ ih =>
    rcases List.mem_cons.mp hp with heq | hp
    · cases heq
      exact ⟨_, List.mem_cons_self, hc⟩
    · obtain ⟨c, hct, hc⟩ := ih hp
      exact ⟨c, List.mem_cons_of_mem _ hct, hc⟩
  | shortest _ _ _ ih | longest _ _ _ ih =>
    obtain ⟨c, hct, hc⟩ := ih (by simpa using hp)
    exact ⟨c, List.mem_append_right _ hct, hc⟩

theorem Needs.matchPieces_eq_none {b y : List α} (h : Needs b pieces) (hy : ∀ c ∈ y, c ∈ b) :
    matchPieces pieces y = none := by
  rw [Option.eq_none_iff_forall_ne_some]
  rintro ⟨gs, rest⟩ hm
  obtain ⟨p, hp, hnone⟩ := h
  obtain ⟨t, rfl, ht⟩ := fits_of_matchPieces hm
  obtain ⟨c, hct, hc⟩ := ht.exists_one hp
  rw [hnone c (hy c (List.mem_append_left _ hct))] at hc
  cases hc

section
variable {p : α → Bool} {k : List α → Option β} {b : List α} {g : β → β}

theorem matchShortest_append (hk : ∀ x, k (x ++ b) = (k x).map g)
    (hnone : ∀ y, (∀ c ∈ y, c ∈ b) → k y = none) (x : List α) :
    matchShortest p k (x ++ b) = (matchShortest p k x).map (fun m => (m.1, g m.2)) := by
  induction x with
  | nil =>
    rw [List.nil_append, matchShortest, Option.map_none, Option.eq_none_iff_forall_ne_some]
    rintro ⟨run, r⟩ hm
    obtain ⟨s', rfl, -, -, hb, -⟩ := of_matchShortest hm
    rw [hnone s' (fun c hc => List.mem_append_right _ hc)] at hb
    cases hb
  | cons c x ih =>
    rw [List.cons_append, matchShortest, matchShortest, hk, ih]
    by_cases hc : p c = true
    · rw [if_pos hc, if_pos hc]
      rcases k x with _ | r
      · simp [Option.map_map, Function.comp_def]
      · rfl
    · rw [if_neg hc, if_neg hc]
      rfl

theorem matchLongest_append (hk : ∀ x, k (x ++ b) = (k x).map g)
    (hnone : ∀ y, (∀ c ∈ y, c ∈ b) → k y = none) (x : List α) :
    matchLongest p k (x ++ b) = (matchLongest p k x).map (fun m => (m.1, g m.2)) := by
  induction x with
  | nil =>
    rw [List.nil_append, matchLongest, Option.map_none, Option.eq_none_iff_forall_ne_some]
    rintro ⟨run, r⟩ hm
    obtain ⟨s', rfl, -, -, hb⟩ := of_matchLongest hm
    rw [hnone s' (fun c hc => List.mem_append_right _ hc)] at hb
    cases hb
  | cons c x ih =>
    rw [List.cons_append, matchLongest, matchLongest, hk, ih]
    by_cases hc : p c = true
    · rw [if_pos hc, if_pos hc]
      rcases matchLongest p k x with _ | m
      · simp [Option.map_map, Function.comp_def]
      · rfl
    · rw [if_neg hc, if_neg hc]
      rfl

end

/-- A text that guards itself against the pattern stays behind the rest of a match. -/
theorem Guarded.matchPieces_append {b : List α} (h : Guarded b pieces) (x : List α) :
    matchPieces pieces (x ++ b) = (matchPieces pieces x).map (fun m => (m.1, m.2 ++ b)) := by
  induction pieces generalizing x with
  | nil => rfl
  | cons piece pieces ih =>
    cases piece with
    | one p =>
      obtain ⟨hp, h⟩ := h
      rcases x with _ | ⟨c, x⟩
      · exact Needs.matchPieces_eq_none ⟨p, List.mem_cons_self, hp⟩ (fun c hc => hc)
      · rw [List.cons_append, matchPieces, matchPieces, ih h]
        by_cases hc : p c = true
        · rw [if_pos hc, if_pos hc]
        · rw [if_neg hc, if_neg hc]
          rfl
    | shortest p =>
      obtain ⟨hneeds, h⟩ := h
      rw [matchPieces, matchPieces, matchShortest_append (ih h)
        (fun y hy => hneeds.matchPieces_eq_none hy)]
      simp [Option.map_map, Function.comp_def]
    | longest p =>
      obtain ⟨hneeds, h⟩ := h
      rw [matchPieces, matchPieces, matchLongest_append (ih h)
        (fun y hy => hneeds.matchPieces_eq_none hy)]
      simp [Option.map_map, Function.comp_def]

theorem Replaced.append {b : List α} (hguarded : Guarded b pieces) (hneeds : Needs b pieces)
    {s t : List α} (h : Replaced pieces f s t) : Replaced pieces f (s ++ b) (t ++ b) := by
  induction h with
  | nil =>
    refine .of_none (fun x y hxy => hneeds.matchPieces_eq_none (fun c hc => ?_))
    rw [List.nil_append] at hxy
    rw [hxy]
    exact List.mem_append_right _ hc
  | @skip c s t hnone _ ih =>
    have hmatch := hguarded.matchPieces_append (c :: s)
    rw [hnone] at hmatch
    exact .skip hmatch ih
  | hit hsome _ ih =>
    rw [List.append_assoc]
    refine .hit ?_ ih
    rw [hguarded.matchPieces_append, hsome]
    rfl

theorem replaceAll_append_right {b : List α} (hne : pieces ≠ []) (hguarded : Guarded b pieces)
    (hneeds : Needs b pieces) (s : List α) :
    replaceAll pieces f (s ++ b) = replaceAll pieces f s ++ b :=
  replaceAll_eq hne ((replaced_replaceAll hne s).append hguarded hneeds)

end Piece

end SyncServer
