import SyncServer.Guild.Snapshot

/-! # Thresholds

Which entry of an accepted policy a number falls to. The minima of the entries are the thresholds
that users reach one after another; the ranges may leave gaps between them, and what falls into
a gap is given the last entry of all.
-/

namespace SyncServer.Guild

namespace RangeRules
variable {α κ : Type} (R : RangeRules α κ)

/-- The entry whose minimum is the greatest that the number has reached. -/
structure IsTier (entries : List α) (x : Int) (e : α) : Prop where
  mem : e ∈ entries
  reached : R.lo e ≤ x
  greatest : ∀ e' ∈ entries, R.lo e' ≤ x → R.lo e' ≤ R.lo e

/-- The number lies after the range of an entry and before that of the next one. -/
def InGap : List α → Int → Prop
  | a :: b :: rest, x => (∃ hi, R.hi a = some hi ∧ hi < x ∧ x < R.lo b) ∨ InGap (b :: rest) x
  | _, _ => False

variable {R}

/-! ## The order of the entries -/

theorem Accepted.hi_lt {seen : List κ} {a : α} {rest : List α} (h : R.Accepted seen (a :: rest)) :
    ∀ b ∈ rest, ∃ hi, R.hi a = some hi ∧ R.lo a ≤ hi ∧ hi < R.lo b := by
  cases rest with
  | nil => simp
  | cons next rest =>
    obtain ⟨hi, hhi, hlt⟩ := h.1.hi_lt_next next rest rfl
    have hlo := h.1.lo_le_hi hi hhi
    suffices hle : ∀ b ∈ next :: rest, R.lo next ≤ R.lo b from
      fun b hb => ⟨hi, hhi, hlo, lt_of_lt_of_le hlt (hle b hb)⟩
    clear hhi hlt hlo hi
    obtain ⟨-, h⟩ := h
    generalize hs : R.name a :: seen = seen' at h
    clear hs a seen
    induction rest generalizing next seen' with
    | nil => simp
    | cons b rest ih =>
      obtain ⟨hi, hhi, hlt⟩ := h.1.hi_lt_next b rest rfl
      have hb : R.lo next ≤ R.lo b := le_trans (h.1.lo_le_hi hi hhi) hlt.le
      intro e he
      rcases List.mem_cons.mp he with rfl | he
      · exact le_refl _
      · exact le_trans hb (ih b _ h.2 e he)

theorem Accepted.lo_lt {seen : List κ} {a : α} {rest : List α} (h : R.Accepted seen (a :: rest)) :
    ∀ b ∈ rest, R.lo a < R.lo b := by
  intro b hb
  obtain ⟨hi, -, hlo, hlt⟩ := h.hi_lt b hb
  exact lt_of_le_of_lt hlo hlt

theorem Accepted.pairwise_lo {seen : List κ} {entries : List α} (h : R.Accepted seen entries) :
    entries.Pairwise (fun a b => R.lo a < R.lo b) := by
  induction entries generalizing seen with
  | nil => exact List.Pairwise.nil
  | cons a rest ih => exact List.pairwise_cons.mpr ⟨h.lo_lt, ih h.2⟩

theorem Accepted.forall_mem {P : α → Prop} (hP : ∀ seen e rest, R.EntryAccepted seen e rest → P e)
    {seen : List κ} {entries : List α} (h : R.Accepted seen entries) : ∀ e ∈ entries, P e := by
  induction entries generalizing seen with
  | nil => simp
  | cons a rest ih => exact List.forall_mem_cons.mpr ⟨hP _ _ _ h.1, ih h.2⟩

theorem Accepted.lo_nonneg {seen : List κ} {entries : List α} (h : R.Accepted seen entries) :
    ∀ e ∈ entries, 0 ≤ R.lo e :=
  h.forall_mem (fun _ _ _ he => he.lo_nonneg)

theorem Accepted.leastAmount_le {seen : List κ} {entries : List α} (h : R.Accepted seen entries) :
    ∀ e ∈ entries, ∀ v, some v ∈ R.amounts e → R.leastAmount ≤ v :=
  h.forall_mem (fun _ _ _ he => he.amounts)

theorem Accepted.eq_of_lo_eq {seen : List κ} {entries : List α} (h : R.Accepted seen entries) :
    ∀ e ∈ entries, ∀ e' ∈ entries, R.lo e = R.lo e' → e = e' := by
  induction entries generalizing seen with
  | nil => simp
  | cons a rest ih =>
    intro e he e' he' heq
    rcases List.mem_cons.mp he with rfl | hrest <;> rcases List.mem_cons.mp he' with rfl | hrest'
    · rfl
    · exact absurd heq (h.lo_lt e' hrest').ne
    · exact absurd heq.symm (h.lo_lt e hrest).ne
    · exact ih h.2 e hrest e' hrest' heq

theorem Accepted.fresh {seen : List κ} {entries : List α} (h : R.Accepted seen entries) :
    ∀ e ∈ entries, R.name e ∉ seen := by
  induction entries generalizing seen with
  | nil => simp
  | cons a rest ih =>
    refine List.forall_mem_cons.mpr ⟨h.1.fresh, fun e he => ?_⟩
    exact fun hmem => ih h.2 e he (List.mem_cons_of_mem _ hmem)

theorem Accepted.eq_of_name_eq {seen : List κ} {entries : List α} (h : R.Accepted seen entries) :
    ∀ e ∈ entries, ∀ e' ∈ entries, R.name e = R.name e' → e = e' := by
  induction entries generalizing seen with
  | nil => simp
  | cons a rest ih =>
    intro e he e' he' heq
    have hfresh := h.2.fresh
    rcases List.mem_cons.mp he with rfl | hrest <;> rcases List.mem_cons.mp he' with rfl | hrest'
    · rfl
    · exact absurd (by simp [heq]) (hfresh e' hrest')
    · exact absurd (by simp [heq]) (hfresh e hrest)
    · exact ih h.2 e hrest e' hrest' heq

theorem IsTier.eq {seen : List κ} {entries : List α} (h : R.Accepted seen entries) {x : Int}
    {e e' : α} (he : R.IsTier entries x e) (he' : R.IsTier entries x e') : e = e' :=
  h.eq_of_lo_eq e he.mem e' he'.mem
    (le_antisymm (he'.greatest e he.mem he.reached) (he.greatest e' he'.mem he'.reached))

theorem IsTier.lo_le {entries : List α} {x y : Int} {e e' : α} (he : R.IsTier entries x e)
    (he' : R.IsTier entries y e') (hxy : x ≤ y) : R.lo e ≤ R.lo e' :=
  he'.greatest e he.mem (he.reached.trans hxy)

/-! ## The lookup -/

theorem lookup_singleton (a : α) (x : Int) (h : [a] ≠ []) : R.lookup [a] h x = a := by
  unfold lookup
  simp only [List.find?_cons, List.find?_nil, List.getLast_singleton]
  split <;> rfl

theorem lookup_cons_of_le {a : α} {rest : List α} {x hi : Int} (h : a :: rest ≠ [])
    (hhi : R.hi a = some hi) (hlo : R.lo a ≤ x) (hx : x ≤ hi) : R.lookup (a :: rest) h x = a := by
  simp [lookup, hhi, hlo, hx]

theorem lookup_cons_of_lt {a b : α} {rest : List α} {x hi : Int} (h : a :: b :: rest ≠ [])
    (hhi : R.hi a = some hi) (hx : hi < x) :
    R.lookup (a :: b :: rest) h x = R.lookup (b :: rest) (List.cons_ne_nil b rest) x := by
  have hfind : (decide (R.lo a ≤ x) && (R.hi a).all (fun m => decide (x ≤ m))) = false := by
    simp [hhi, hx]
  simp only [lookup, List.find?_cons, hfind, List.getLast_cons_cons]

theorem Accepted.lo_lt_of_inGap {seen : List κ} {a : α} {rest : List α} {x : Int}
    (h : R.Accepted seen (a :: rest)) (hx : R.InGap (a :: rest) x) : R.lo a < x := by
  induction rest generalizing a seen with
  | nil => exact hx.elim
  | cons b rest ih =>
    rcases hx with ⟨hi, hhi, hlt, -⟩ | hx
    · exact lt_of_le_of_lt (h.1.lo_le_hi hi hhi) hlt
    · exact lt_trans (h.lo_lt b (List.mem_cons_self ..)) (ih h.2 hx)

theorem isTier_cons_iff {seen : List κ} {a : α} {rest : List α} {x : Int} {e : α}
    (h : R.Accepted seen (a :: rest)) (he : e ∈ rest) :
    R.IsTier (a :: rest) x e ↔ R.IsTier rest x e := by
  have hlt := h.lo_lt e he
  constructor
  · intro ht
    exact ⟨he, ht.reached, fun e' he' => ht.greatest e' (List.mem_cons_of_mem a he')⟩
  · intro ht
    refine ⟨List.mem_cons_of_mem a he, ht.reached, fun e' he' hx => ?_⟩
    rcases List.mem_cons.mp he' with rfl | he'
    · exact hlt.le
    · exact ht.greatest e' he' hx

/-- The lookup is right outside the gaps, and only there. -/
theorem lookup_isTier_iff {seen : List κ} {entries : List α} (h : R.Accepted seen entries)
    (hne : entries ≠ []) {x : Int} (hx : ∀ a ∈ entries.head?, R.lo a ≤ x) :
    R.IsTier entries x (R.lookup entries hne x) ↔ ¬ R.InGap entries x := by
  induction entries generalizing seen with
  | nil => exact absurd rfl hne
  | cons a rest ih =>
    have hlo : R.lo a ≤ x := hx a rfl
    cases rest with
    | nil =>
      rw [lookup_singleton]
      refine iff_of_true ⟨List.mem_singleton_self a, hlo, ?_⟩ id
      simp
    | cons b rest =>
      obtain ⟨hi, hhi, -, hlt⟩ := h.hi_lt b (List.mem_cons_self ..)
      by_cases hin : x ≤ hi
      · -- inside the first range: no later entry is reached
        rw [lookup_cons_of_le hne hhi hlo hin]
        refine iff_of_true ⟨List.mem_cons_self .., hlo, ?_⟩ ?_
        · intro e' he' hreached
          rcases List.mem_cons.mp he' with rfl | he'
          · exact le_refl _
          · obtain ⟨hi', hhi', -, hlt'⟩ := h.hi_lt e' he'
            rw [hhi] at hhi'
            cases hhi'
            omega
        · rintro (⟨hi', hhi', hlt', -⟩ | hgap)
          · rw [hhi] at hhi'
            cases hhi'
            omega
          · have := h.2.lo_lt_of_inGap hgap
            omega
      · have hout : hi < x := by omega
        have hmem := R.lookup_mem (b :: rest) (List.cons_ne_nil b rest) x
        rw [lookup_cons_of_lt hne hhi hout]
        by_cases hb : R.lo b ≤ x
        · -- past the first range and its gap: as if the first entry were not there
          rw [isTier_cons_iff h hmem, ih h.2 (List.cons_ne_nil b rest) (by simpa using hb)]
          refine not_congr ⟨Or.inr, ?_⟩
          rintro (⟨hi', -, -, hlt'⟩ | hgap)
          · omega
          · exact hgap
        · -- in the gap: whatever is found has not been reached
          refine iff_of_false (fun ht => ?_) (fun hgap => hgap (Or.inl ⟨hi, hhi, hout, by omega⟩))
          have hreached := ht.reached
          rcases List.mem_cons.mp hmem with heq | hmem
          · rw [heq] at hreached
            exact hb hreached
          · have := h.2.lo_lt _ hmem
            omega

/-- A gap lies above the last entry that was passed and below the last one of all. -/
theorem Accepted.gap_bounds {seen : List κ} {entries : List α} (h : R.Accepted seen entries)
    {x : Int} (hx : R.InGap entries x) :
    (∃ a ∈ entries, R.lo a < x ∧ ∀ e ∈ entries, R.lo e < x → R.lo e ≤ R.lo a) ∧
      ∀ e ∈ entries.getLast?, x < R.lo e := by
  induction entries generalizing seen with
  | nil => exact hx.elim
  | cons a rest ih =>
    cases rest with
    | nil => exact hx.elim
    | cons b rest =>
      rw [List.getLast?_cons_cons]
      rcases hx with ⟨hi, hhi, hout, hb⟩ | hgap
      · have hlater : ∀ e ∈ b :: rest, x < R.lo e :=
          List.forall_mem_cons.mpr ⟨hb, fun e he => lt_trans hb (h.2.lo_lt e he)⟩
        refine ⟨⟨a, List.mem_cons_self .., lt_of_le_of_lt (h.1.lo_le_hi hi hhi) hout, ?_⟩,
          fun e he => hlater e (List.mem_of_getLast? he)⟩
        intro e he hlt
        rcases List.mem_cons.mp he with rfl | he
        · exact le_refl _
        · exact absurd hlt (lt_asymm (hlater e he))
      · obtain ⟨⟨c, hc, hlt, hgreatest⟩, hlast⟩ := ih h.2 hgap
        refine ⟨⟨c, List.mem_cons_of_mem a hc, hlt, ?_⟩, hlast⟩
        intro e he hle
        rcases List.mem_cons.mp he with rfl | he
        · exact (h.lo_lt c hc).le
        · exact hgreatest e he hle

/-- What lies in a gap is given the last entry. -/
theorem lookup_of_inGap {seen : List κ} {entries : List α} (h : R.Accepted seen entries)
    (hne : entries ≠ []) {x : Int} (hx : R.InGap entries x) :
    R.lookup entries hne x = entries.getLast hne := by
  induction entries generalizing seen with
  | nil => exact hx.elim
  | cons a rest ih =>
    cases rest with
    | nil => exact hx.elim
    | cons b rest =>
      obtain ⟨hi, hhi, -, hlt⟩ := h.hi_lt b (List.mem_cons_self ..)
      rw [List.getLast_cons_cons]
      rcases hx with ⟨hi', hhi', hout, hb⟩ | hgap
      · rw [hhi] at hhi'
        cases hhi'
        rw [lookup_cons_of_lt hne hhi hout]
        have hfind : (b :: rest).find? (fun e => decide (R.lo e ≤ x) &&
            (R.hi e).all (fun m => decide (x ≤ m))) = none := by
          refine List.find?_eq_none.mpr (fun e he hcontains => ?_)
          have hle : R.lo b ≤ R.lo e := by
            rcases List.mem_cons.mp he with rfl | he
            · exact le_refl _
            · exact (h.2.lo_lt e he).le
          simp only [Bool.and_eq_true, decide_eq_true_eq] at hcontains
          omega
        simp only [lookup, hfind, Option.getD_none]
      · have hout : hi < x := lt_trans hlt (h.2.lo_lt_of_inGap hgap)
        rw [lookup_cons_of_lt hne hhi hout]
        exact ih h.2 (List.cons_ne_nil b rest) hgap

theorem Accepted.not_inGap_lo {seen : List κ} {entries : List α} (h : R.Accepted seen entries) :
    ∀ e ∈ entries, ¬ R.InGap entries (R.lo e) := by
  induction entries generalizing seen with
  | nil => simp
  | cons a rest ih =>
    intro e he hgap
    cases rest with
    | nil => exact hgap
    | cons b rest =>
      rcases List.mem_cons.mp he with rfl | he
      · exact absurd (h.lo_lt_of_inGap hgap) (lt_irrefl _)
      · rcases hgap with ⟨hi, -, -, hlt⟩ | hgap
        · rcases List.mem_cons.mp he with rfl | he
          · exact lt_irrefl _ hlt
          · exact lt_asymm hlt (h.2.lo_lt e he)
        · exact ih h.2 e he hgap

end RangeRules

/-! ## Levels and ranks -/

namespace Policy

/-- What the validator returned, as a policy. -/
def ofNormalized {unicode : Unicode} {config p : GuildPolicyConfig}
    (h : normalizeGuildPolicy unicode config = .ok p) : Policy :=
  ⟨p, normalizeGuildPolicy_accepted h⟩

variable (p : Policy)

theorem level_head_le {x : Int} (hx : 0 ≤ x) :
    ∀ e ∈ p.levelPolicies.head?, levelRules.lo e ≤ x := by
  intro e he
  have h := p.accepted.levels_head
  rw [Option.mem_def.mp he] at h
  simp only [Option.map_some, Option.some.injEq] at h
  simpa [levelRules, h] using hx

theorem rank_head_le {x : Int} (hx : 0 ≤ x) : ∀ e ∈ p.rankPolicies.head?, rankRules.lo e ≤ x := by
  intro e he
  have h := p.accepted.ranks_head
  rw [Option.mem_def.mp he] at h
  simp only [Option.map_some, Option.some.injEq] at h
  simpa [rankRules, h] using hx

theorem level_isTier_iff {x : Int} (hx : 0 ≤ x) :
    levelRules.IsTier p.levelPolicies x (p.levelPolicyForActiveDays x) ↔
      ¬ levelRules.InGap p.levelPolicies x :=
  RangeRules.lookup_isTier_iff p.accepted.levels p.levels_ne (p.level_head_le hx)

theorem rank_isTier_iff {x : Int} (hx : 0 ≤ x) :
    rankRules.IsTier p.rankPolicies x (p.rankPolicyForScore x) ↔
      ¬ rankRules.InGap p.rankPolicies x :=
  RangeRules.lookup_isTier_iff p.accepted.ranks p.ranks_ne (p.rank_head_le hx)

end Policy

/-- Users get the last level and the last rank whose minimum they have reached, as long as their
numbers are in no gap of an accepted policy; in a gap they get another one. -/
theorem thresholds_reached_iff {unicode : Unicode} {config p : GuildPolicyConfig}
    (h : normalizeGuildPolicy unicode config = .ok p) {activeDays contributionScore : Int}
    (hdays : 0 ≤ activeDays) (hscore : 0 ≤ contributionScore) :
    (levelRules.IsTier p.levelPolicies activeDays
        ((Policy.ofNormalized h).levelPolicyForActiveDays activeDays) ↔
      ¬ levelRules.InGap p.levelPolicies activeDays) ∧
    (rankRules.IsTier p.rankPolicies contributionScore
        ((Policy.ofNormalized h).rankPolicyForScore contributionScore) ↔
      ¬ rankRules.InGap p.rankPolicies contributionScore) :=
  ⟨(Policy.ofNormalized h).level_isTier_iff hdays, (Policy.ofNormalized h).rank_isTier_iff hscore⟩

/-- Levels and ranks with something missing between the first and the last. -/
def gappedPolicy : GuildPolicyConfig where
  enforcement := ⟨true, true, true, true, true⟩
  dailyCounterRetentionDays := 45
  scoreEventRetentionDays := 180
  levelPolicies :=
    [⟨1, 0, some 6, some 50, some 5, some 5⟩, ⟨8, 180, none, none, some 50, none⟩]
  rankPolicies :=
    [⟨"F", 0, some 99, none, none, none, false⟩, ⟨"S", 10000, none, none, none, none, true⟩]
  communityUpvoteDailyCap := 100
  safeAttachmentTypes := []

theorem gappedPolicy_normalized : normalizeGuildPolicy .ascii gappedPolicy = .ok gappedPolicy :=
  normalizeGuildPolicy_eq_ok.mpr ⟨by decide, by decide, rfl, by decide, rfl, by decide, by decide,
    by decide⟩

theorem thresholds_reached_iff_gapped :
    (levelRules.IsTier gappedPolicy.levelPolicies 6
        ((Policy.ofNormalized gappedPolicy_normalized).levelPolicyForActiveDays 6) ↔
      ¬ levelRules.InGap gappedPolicy.levelPolicies 6) ∧
    (rankRules.IsTier gappedPolicy.rankPolicies 10000
        ((Policy.ofNormalized gappedPolicy_normalized).rankPolicyForScore 10000) ↔
      ¬ rankRules.InGap gappedPolicy.rankPolicies 10000) :=
  thresholds_reached_iff gappedPolicy_normalized (by decide) (by decide)

/-- Seven days and a hundred points are enough for the last level and the last rank. -/
theorem gap_reaches_last_tier :
    normalizeGuildPolicy .ascii gappedPolicy = .ok gappedPolicy ∧
      ((Policy.ofNormalized gappedPolicy_normalized).levelPolicyForActiveDays 7).minActiveDays =
        180 ∧
      ((Policy.ofNormalized gappedPolicy_normalized).rankPolicyForScore 100).minScore = 10000 ∧
      ¬ levelRules.IsTier gappedPolicy.levelPolicies 7
        ((Policy.ofNormalized gappedPolicy_normalized).levelPolicyForActiveDays 7) ∧
      ¬ rankRules.IsTier gappedPolicy.rankPolicies 100
        ((Policy.ofNormalized gappedPolicy_normalized).rankPolicyForScore 100) := by
  refine ⟨gappedPolicy_normalized, by decide, by decide, fun h => ?_, fun h => ?_⟩
  · exact absurd h.reached (by decide)
  · exact absurd h.reached (by decide)

/-! ## The next level -/

/-- What the target of the next level promises: the first number of days above the given one
that resolves to a greater level, if there is any. -/
def Policy.TargetRight (p : Policy) (activeDays : Int) : Option Int → Prop
  | some d => activeDays < d ∧
      (p.levelPolicyForActiveDays activeDays).level < (p.levelPolicyForActiveDays d).level ∧
      ∀ x, activeDays < x → x < d →
        (p.levelPolicyForActiveDays x).level ≤ (p.levelPolicyForActiveDays activeDays).level
  | none => ∀ x, activeDays < x →
      (p.levelPolicyForActiveDays x).level ≤ (p.levelPolicyForActiveDays activeDays).level

namespace GuildPolicyConfig
variable (p : GuildPolicyConfig)

def IsCurrent (activeDays : Int) (e : LevelPolicy) : Prop :=
  (levelRules.InGap p.levelPolicies activeDays ∧ e ∈ p.levelPolicies.getLast?) ∨
    (¬ levelRules.InGap p.levelPolicies activeDays ∧ levelRules.IsTier p.levelPolicies activeDays e)

/-- From the current entry on the levels go up: none that was passed is greater, and a gap that
comes before the next greater one does not lead to a greater one. -/
def LevelsGoUpFrom (activeDays : Int) : Prop :=
  ∃ current, p.IsCurrent activeDays current ∧
    (∀ e ∈ p.levelPolicies, e.minActiveDays ≤ activeDays → e.level ≤ current.level) ∧
    ∀ x, activeDays < x → levelRules.InGap p.levelPolicies x →
      (∀ e ∈ p.levelPolicies, e.minActiveDays < x → e.level ≤ current.level) →
      ∀ e ∈ p.levelPolicies.getLast?, e.level ≤ current.level

end GuildPolicyConfig

namespace Policy
variable (p : Policy)

theorem isCurrent_iff {x : Int} (hx : 0 ≤ x) {e : LevelPolicy} :
    p.IsCurrent x e ↔ e = p.levelPolicyForActiveDays x := by
  by_cases hgap : levelRules.InGap p.levelPolicies x
  · have hlast : p.levelPolicyForActiveDays x = p.levelPolicies.getLast p.levels_ne :=
      RangeRules.lookup_of_inGap p.accepted.levels p.levels_ne hgap
    simp [GuildPolicyConfig.IsCurrent, hgap, hlast, List.getLast?_eq_getLast_of_ne_nil p.levels_ne,
      eq_comm]
  · have htier := (p.level_isTier_iff hx).mpr hgap
    simp only [GuildPolicyConfig.IsCurrent, hgap, false_and, not_false_eq_true, true_and, false_or]
    constructor
    · exact fun h => h.eq p.accepted.levels htier
    · rintro rfl
      exact htier

theorem levelPolicyForActiveDays_mem (x : Int) :
    p.levelPolicyForActiveDays x ∈ p.levelPolicies :=
  levelRules.lookup_mem p.levelPolicies p.levels_ne x

theorem rankPolicyForScore_mem (x : Int) : p.rankPolicyForScore x ∈ p.rankPolicies :=
  rankRules.lookup_mem p.rankPolicies p.ranks_ne x

theorem levelPolicyForActiveDays_min {e : LevelPolicy} (he : e ∈ p.levelPolicies) :
    p.levelPolicyForActiveDays e.minActiveDays = e := by
  have hmin : 0 ≤ e.minActiveDays := p.accepted.levels.lo_nonneg e he
  have htier : levelRules.IsTier p.levelPolicies e.minActiveDays e :=
    ⟨he, le_refl _, fun _ _ h => h⟩
  have hlookup := (p.level_isTier_iff hmin).mpr (p.accepted.levels.not_inGap_lo e he)
  exact hlookup.eq p.accepted.levels htier

theorem nextLevelActiveDays_eq_none {level : Nat} (h : p.nextLevelActiveDays level = none) :
    ∀ e ∈ p.levelPolicies, e.level ≤ level := by
  simpa [nextLevelActiveDays] using h

theorem nextLevelActiveDays_eq_some {level : Nat} {d : Int}
    (h : p.nextLevelActiveDays level = some d) :
    ∃ e ∈ p.levelPolicies, level < e.level ∧ e.minActiveDays = d ∧
      ∀ e' ∈ p.levelPolicies, e'.minActiveDays < d → e'.level ≤ level := by
  simp only [nextLevelActiveDays, Option.map_eq_some_iff] at h
  obtain ⟨e, hfind, rfl⟩ := h
  obtain ⟨hgreater, before, after, hsplit, hbefore⟩ := List.find?_eq_some_iff_append.mp hfind
  refine ⟨e, by simp [hsplit], of_decide_eq_true hgreater, rfl, fun e' he' hlt => ?_⟩
  have horder : p.levelPolicies.Pairwise (fun a b => a.minActiveDays < b.minActiveDays) :=
    p.accepted.levels.pairwise_lo
  rw [hsplit] at he' horder
  rcases List.mem_append.mp he' with hmem | hmem
  · simpa using hbefore e' hmem
  · -- not before the entry, so not below it
    obtain ⟨hrest, -⟩ := List.pairwise_cons.mp (List.pairwise_append.mp horder).2.1
    rcases List.mem_cons.mp hmem with rfl | hmem
    · exact absurd hlt (lt_irrefl _)
    · exact absurd hlt (lt_asymm (hrest e' hmem))

theorem targetRight_iff {activeDays : Int} (hdays : 0 ≤ activeDays) :
    p.TargetRight activeDays
        (p.nextLevelActiveDays (p.levelPolicyForActiveDays activeDays).level) ↔
      p.LevelsGoUpFrom activeDays := by
  have hlast : ∀ e, e ∈ p.levelPolicies.getLast? ↔ e = p.levelPolicies.getLast p.levels_ne := by
    simp [List.getLast?_eq_getLast_of_ne_nil p.levels_ne, eq_comm]
  simp only [GuildPolicyConfig.LevelsGoUpFrom, p.isCurrent_iff hdays, exists_eq_left, hlast,
    forall_eq]
  generalize hcur : p.levelPolicyForActiveDays activeDays = current
  have hgap : ∀ x, levelRules.InGap p.levelPolicies x →
      p.levelPolicyForActiveDays x = p.levelPolicies.getLast p.levels_ne := fun x hx =>
    RangeRules.lookup_of_inGap p.accepted.levels p.levels_ne hx
  rcases hnext : p.nextLevelActiveDays current.level with _ | d
  · -- no level is greater, now or later
    have hall := p.nextLevelActiveDays_eq_none hnext
    refine iff_of_true (fun x _ => ?_)
      ⟨fun e he _ => hall e he, fun _ _ _ _ => hall _ (List.getLast_mem _)⟩
    rw [hcur]
    exact hall _ (p.levelPolicyForActiveDays_mem x)
  · obtain ⟨e, he, hgreater, rfl, hbelow⟩ := p.nextLevelActiveDays_eq_some hnext
    have hat := p.levelPolicyForActiveDays_min he
    simp only [TargetRight, hcur, hat]
    constructor
    · rintro ⟨hahead, -, hbetween⟩
      refine ⟨fun e' he' hle => hbelow e' he' (lt_of_le_of_lt hle hahead),
        fun x hx hin hpassed => ?_⟩
      rw [← hgap x hin]
      refine hbetween x hx (lt_of_not_ge fun hge => ?_)
      rcases lt_or_eq_of_le hge with hlt | heq
      · exact absurd (hpassed e he hlt) (not_le.mpr hgreater)
      · rw [← heq] at hin
        exact p.accepted.levels.not_inGap_lo e he hin
    · rintro ⟨hpassed, hgaps⟩
      refine ⟨lt_of_not_ge fun hle => absurd (hpassed e he hle) (not_le.mpr hgreater), hgreater,
        fun x hx hlt => ?_⟩
      by_cases hin : levelRules.InGap p.levelPolicies x
      · rw [hgap x hin]
        exact hgaps x hx hin (fun e' he' hlt' => hbelow e' he' (lt_trans hlt' hlt))
      · have htier := (p.level_isTier_iff (by omega)).mpr hin
        exact hbelow _ htier.mem (lt_of_le_of_lt htier.reached hlt)

/-- The targets of an accepted policy are right for every number of days exactly if the levels
go up with the days and their ranges leave no gaps. -/
theorem targetRight_always_iff :
    (∀ x, 0 ≤ x →
      p.TargetRight x (p.nextLevelActiveDays (p.levelPolicyForActiveDays x).level)) ↔
      (∀ e ∈ p.levelPolicies, ∀ e' ∈ p.levelPolicies, e.minActiveDays < e'.minActiveDays →
        e.level < e'.level) ∧
      ∀ x, ¬ levelRules.InGap p.levelPolicies x := by
  have hlo := p.accepted.levels.lo_nonneg
  constructor
  · intro hall
    have hcurrent : ∀ e ∈ p.levelPolicies,
        (∀ e' ∈ p.levelPolicies, e'.minActiveDays ≤ e.minActiveDays → e'.level ≤ e.level) ∧
        ∀ x, e.minActiveDays < x → levelRules.InGap p.levelPolicies x →
          (∀ e' ∈ p.levelPolicies, e'.minActiveDays < x → e'.level ≤ e.level) →
          ∀ l ∈ p.levelPolicies.getLast?, l.level ≤ e.level := by
      intro e he
      obtain ⟨c, hc, h⟩ := (p.targetRight_iff (hlo e he)).mp (hall _ (hlo e he))
      have hmin : p.levelPolicyForActiveDays (levelRules.lo e) = e :=
        p.levelPolicyForActiveDays_min he
      rw [(p.isCurrent_iff (hlo e he)).mp hc, hmin] at h
      exact h
    have hup : ∀ e ∈ p.levelPolicies, ∀ e' ∈ p.levelPolicies,
        e.minActiveDays < e'.minActiveDays → e.level < e'.level := by
      intro e he e' he' hlt
      refine lt_of_le_of_ne ((hcurrent e' he').1 e he hlt.le) (fun heq => ?_)
      rw [p.accepted.levels.eq_of_name_eq e he e' he' heq] at hlt
      exact lt_irrefl _ hlt
    refine ⟨hup, fun x hgap => ?_⟩
    -- the entry before the gap would have to be as great as the last one
    obtain ⟨⟨a, ha, hax, hpassed⟩, hlater⟩ := p.accepted.levels.gap_bounds hgap
    have hlast := List.getLast?_eq_getLast_of_ne_nil p.levels_ne
    generalize p.levelPolicies.getLast p.levels_ne = last at hlast
    have hle : last.level ≤ a.level := by
      refine (hcurrent a ha).2 x hax hgap (fun e he hlt => ?_) last hlast
      exact (hcurrent a ha).1 e he (hpassed e he hlt)
    have hlt : a.level < last.level :=
      hup a ha last (List.mem_of_getLast? hlast) (lt_trans hax (hlater last hlast))
    exact absurd hlt (not_lt.mpr hle)
  · rintro ⟨hup, hgaps⟩ x hx
    have htier := (p.level_isTier_iff hx).mpr (hgaps x)
    refine (p.targetRight_iff hx).mpr ⟨_, (p.isCurrent_iff hx).mpr rfl, fun e he hle => ?_,
      fun y _ hin => absurd hin (hgaps y)⟩
    rcases lt_or_eq_of_le (htier.greatest e he hle) with hlt | heq
    · exact (hup e he _ htier.mem hlt).le
    · rw [p.accepted.levels.eq_of_lo_eq e he _ htier.mem heq]

end Policy

/-- The target that a snapshot shows is right for a number of active days exactly if the levels of
the accepted policy go up from there. -/
theorem next_level_target_right_iff {unicode : Unicode} {config p : GuildPolicyConfig}
    (h : normalizeGuildPolicy unicode config = .ok p) (stats : UserGuildStats)
    (hstats : stats.Valid) (messagesSent attachmentsSent friendAddsSent : Int) (prevLevel : Nat)
    (prevRank : String) :
    (Policy.ofNormalized h).TargetRight stats.activeDays
        (buildSnapshot unicode (Policy.ofNormalized h) stats messagesSent attachmentsSent
          friendAddsSent prevLevel prevRank).nextLevelActiveDays ↔
      p.LevelsGoUpFrom stats.activeDays :=
  (Policy.ofNormalized h).targetRight_iff hstats.1

/-- Level two after level three, and nothing between the days 19 and 40. -/
def unorderedPolicy : GuildPolicyConfig where
  enforcement := ⟨true, true, true, true, true⟩
  dailyCounterRetentionDays := 45
  scoreEventRetentionDays := 180
  levelPolicies :=
    [⟨3, 0, some 9, some 50, none, none⟩, ⟨2, 10, some 19, some 100, none, none⟩,
      ⟨4, 40, none, none, none, none⟩]
  rankPolicies := [⟨"F", 0, none, none, none, none, false⟩]
  communityUpvoteDailyCap := 100
  safeAttachmentTypes := []

theorem unorderedPolicy_normalized :
    normalizeGuildPolicy .ascii unorderedPolicy = .ok unorderedPolicy :=
  normalizeGuildPolicy_eq_ok.mpr ⟨by decide, by decide, rfl, by decide, rfl, by decide, by decide,
    by decide⟩

def activeFor (days : Int) : UserGuildStats :=
  ⟨1, days, 0, 1, "F", none, none, 0, .clear⟩

theorem next_level_target_right_iff_unordered :
    (Policy.ofNormalized unorderedPolicy_normalized).TargetRight 12
        (buildSnapshot .ascii (Policy.ofNormalized unorderedPolicy_normalized) (activeFor 12)
          0 0 0 1 "F").nextLevelActiveDays ↔
      unorderedPolicy.LevelsGoUpFrom 12 :=
  next_level_target_right_iff unorderedPolicy_normalized (activeFor 12) (by decide) 0 0 0 1 "F"

/-- After twelve days the next level is said to come at day zero, after five days at day forty,
but the days from twenty on already count as the next level. -/
theorem next_level_target_wrong :
    normalizeGuildPolicy .ascii unorderedPolicy = .ok unorderedPolicy ∧
      (buildSnapshot .ascii (Policy.ofNormalized unorderedPolicy_normalized) (activeFor 12)
        0 0 0 1 "F").nextLevelActiveDays = some 0 ∧
      ¬ (Policy.ofNormalized unorderedPolicy_normalized).TargetRight 12 (some 0) ∧
      (buildSnapshot .ascii (Policy.ofNormalized unorderedPolicy_normalized) (activeFor 5)
        0 0 0 1 "F").nextLevelActiveDays = some 40 ∧
      ¬ (Policy.ofNormalized unorderedPolicy_normalized).TargetRight 5 (some 40) := by
  refine ⟨unorderedPolicy_normalized, by decide, fun h => ?_, by decide, fun h => ?_⟩
  · exact absurd h.1 (by decide)
  · exact absurd (h.2.2 20 (by decide) (by decide)) (by decide)

end SyncServer.Guild
