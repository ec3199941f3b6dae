import Mathlib.Data.Int.ConditionallyCompleteOrder
import Mathlib.Order.ConditionallyCompleteLattice.Basic
import Mathlib.Order.WithBot
import SyncServer.Guild.ActiveDays
import SyncServer.Guild.Milestones
import SyncServer.Guild.QuotaArithmetic
import SyncServer.Guild.SnapshotView
import SyncServer.Guild.Votes

/-! # Promotion and quotas

Under the built-in policy more active days never lower a limit, and neither do more points, with
one exception: rank D raises the limits by a fifth, and rank C, which is above it, does not.
-/

namespace SyncServer.Guild
open Transaction

/-! ## Limits and percents -/

/-- What a limit allows. -/
def allowance : Option Int → WithTop Int
  | none => ⊤
  | some l => (l : WithTop Int)

def perk : Option Int → Bool → WithTop Int
  | some q, _ => (q : WithTop Int)
  | none, true => ⊤
  | none, false => ((100 : Int) : WithTop Int)

def percentOf : WithTop Int → WithTop Int → WithTop Int := WithTop.map₂ (fun l q => l * q / 100)

theorem allowance_effectiveDailyLimit {limit percent : Option Int} (overrides : Bool)
    (h : ∀ l ∈ limit, ∀ q ∈ percent, 0 ≤ l * q ∧ l * q ≤ i32Max) :
    allowance (effectiveDailyLimit limit percent overrides) =
      percentOf (allowance limit) (perk percent overrides) := by
  rcases limit with _ | l
  · rfl
  rcases percent with _ | q
  · cases overrides
    · change (l : WithTop Int) = ((l * 100 / 100 : Int) : WithTop Int)
      rw [Int.mul_ediv_cancel _ (by decide)]
    · rfl
  · obtain ⟨hnonneg, hfits⟩ := h l rfl q rfl
    have hvalue : effectiveDailyLimit (some l) (some q) overrides =
        some ((i32 (l * q)).tdiv 100) := by cases overrides <;> rfl
    rw [hvalue, (i32_tdiv_hundred_eq_iff hnonneg).mpr hfits]
    rfl

theorem percentOf_mono {l l' q q' : WithTop Int} (hl₀ : ((0 : Int) : WithTop Int) ≤ l)
    (hq₀ : ((0 : Int) : WithTop Int) ≤ q) (hl : l ≤ l') (hq : q ≤ q') :
    percentOf l q ≤ percentOf l' q' := by
  induction l' using WithTop.recTopCoe with
  | top => exact le_top
  | coe l' =>
    induction q' using WithTop.recTopCoe with
    | top => exact le_top
    | coe q' =>
      obtain ⟨l, rfl, hle⟩ := WithTop.le_coe_iff.mp hl
      obtain ⟨q, rfl, hqe⟩ := WithTop.le_coe_iff.mp hq
      have hl₀ := WithTop.coe_le_coe.mp hl₀
      have hq₀ := WithTop.coe_le_coe.mp hq₀
      refine WithTop.coe_le_coe.mpr (Int.ediv_le_ediv (by decide) ?_)
      exact Int.mul_le_mul hle hqe hq₀ (hl₀.trans hle)

/-! ## The built-in tables -/

theorem default_level_isTier {d : Int} (hd : 0 ≤ d) :
    levelRules.IsTier defaultGuildPolicy.levelPolicies d
      (defaultGuildPolicy.levelPolicyForActiveDays d) := by
  refine (defaultGuildPolicy.level_isTier_iff hd).mpr ?_
  simp [defaultGuildPolicy, defaultGuildPolicyConfig, RangeRules.InGap, levelRules]
  omega

theorem default_rank_isTier {c : Int} (hc : 0 ≤ c) :
    rankRules.IsTier defaultGuildPolicy.rankPolicies c
      (defaultGuildPolicy.rankPolicyForScore c) := by
  refine (defaultGuildPolicy.rank_isTier_iff hc).mpr ?_
  simp [defaultGuildPolicy, defaultGuildPolicyConfig, RangeRules.InGap, rankRules]
  omega

theorem default_whole_nonneg (key : ActionKey) : ∀ e ∈ defaultGuildPolicy.levelPolicies,
    ((0 : Int) : WithTop Int) ≤ allowance (levelLimit e key) := by
  cases key <;> decide

theorem default_perk_nonneg (key : ActionKey) : ∀ e ∈ defaultGuildPolicy.rankPolicies,
    ((0 : Int) : WithTop Int) ≤ perk (rankPercent e key) e.overridesLevelLimits := by
  cases key <;> decide

theorem default_levelLimit_mono (key : ActionKey) : ∀ e ∈ defaultGuildPolicy.levelPolicies,
    ∀ e' ∈ defaultGuildPolicy.levelPolicies, e.minActiveDays ≤ e'.minActiveDays →
    allowance (levelLimit e key) ≤ allowance (levelLimit e' key) := by
  cases key <;> decide

theorem default_perk_mono (key : ActionKey) : ∀ e ∈ defaultGuildPolicy.rankPolicies,
    ∀ e' ∈ defaultGuildPolicy.rankPolicies, e.minScore ≤ e'.minScore →
    perk (rankPercent e key) e.overridesLevelLimits ≤
        perk (rankPercent e' key) e'.overridesLevelLimits ∨ e.rank = "D" ∧ e'.rank = "C" := by
  cases key <;> decide

theorem default_levelLimit_bounds (key : ActionKey) : ∀ e ∈ defaultGuildPolicy.levelPolicies,
    ∀ l ∈ levelLimit e key, 5 ≤ l ∧ l ≤ 1000 := by
  cases key <;> decide

theorem default_rankPercent_bounds (key : ActionKey) : ∀ e ∈ defaultGuildPolicy.rankPolicies,
    ∀ q ∈ rankPercent e key, 0 ≤ q ∧ q ≤ 150 := by
  cases key <;> decide

theorem default_perk_lost (key : ActionKey) : ∀ e ∈ defaultGuildPolicy.rankPolicies,
    ∀ e' ∈ defaultGuildPolicy.rankPolicies, e.rank = "D" → e'.rank = "C" →
    perk (rankPercent e key) e.overridesLevelLimits = ((120 : Int) : WithTop Int) ∧
      perk (rankPercent e' key) e'.overridesLevelLimits = ((100 : Int) : WithTop Int) := by
  cases key <;> decide

theorem default_levelLimit_grows (key : ActionKey) : ∀ e ∈ defaultGuildPolicy.levelPolicies,
    ∀ e' ∈ defaultGuildPolicy.levelPolicies, e.minActiveDays ≤ e'.minActiveDays →
    (levelLimit e key).isSome ∧ levelLimit e' key = levelLimit e key ∨
      percentOf (allowance (levelLimit e key)) ((120 : Int) : WithTop Int) ≤
        percentOf (allowance (levelLimit e' key)) ((100 : Int) : WithTop Int) := by
  cases key <;> decide

def wholeOf (r : UserGuildStats) (key : ActionKey) : WithTop Int :=
  allowance (levelLimit (defaultGuildPolicy.levelPolicyForActiveDays r.activeDays) key)

def perkOf (r : UserGuildStats) (key : ActionKey) : WithTop Int :=
  perk (rankPercent (defaultGuildPolicy.rankPolicyForScore r.contributionScore) key)
    (defaultGuildPolicy.rankPolicyForScore r.contributionScore).overridesLevelLimits

theorem default_allowance (r : UserGuildStats) (key : ActionKey) :
    allowance (dailyLimit defaultGuildPolicy r key) = percentOf (wholeOf r key) (perkOf r key) := by
  rw [dailyLimit_eq]
  refine allowance_effectiveDailyLimit _ (fun l hl q hq => ?_)
  obtain ⟨hl₀, hl₁⟩ := default_levelLimit_bounds key _
    (defaultGuildPolicy.levelPolicyForActiveDays_mem r.activeDays) l hl
  obtain ⟨hq₀, hq₁⟩ := default_rankPercent_bounds key _
    (defaultGuildPolicy.rankPolicyForScore_mem r.contributionScore) q hq
  have hle : l * q ≤ 1000 * 150 := Int.mul_le_mul hl₁ hq₁ hq₀ (by decide)
  exact ⟨Int.mul_nonneg (by omega) hq₀, hle.trans (by decide)⟩

/-- From rank D to rank C at levels that give an action the same limit. -/
def PerkLost (p : Policy) (days score days' score' : Int) : Prop :=
  (p.rankPolicyForScore score).rank = "D" ∧ (p.rankPolicyForScore score').rank = "C" ∧
    ∃ key l, levelLimit (p.levelPolicyForActiveDays days) key = some l ∧
      levelLimit (p.levelPolicyForActiveDays days') key = some l

section
variable {r r' : UserGuildStats} (hdays₀ : 0 ≤ r.activeDays) (hscore₀ : 0 ≤ r.contributionScore)
  (hdays : r.activeDays ≤ r'.activeDays) (hscore : r.contributionScore ≤ r'.contributionScore)
include hdays₀ hdays

theorem default_level_mono :
    (defaultGuildPolicy.levelPolicyForActiveDays r.activeDays).minActiveDays ≤
      (defaultGuildPolicy.levelPolicyForActiveDays r'.activeDays).minActiveDays :=
  (default_level_isTier hdays₀).lo_le (default_level_isTier (hdays₀.trans hdays)) hdays

omit hdays₀ hdays in
include hscore₀ hscore in
theorem default_rank_mono :
    (defaultGuildPolicy.rankPolicyForScore r.contributionScore).minScore ≤
      (defaultGuildPolicy.rankPolicyForScore r'.contributionScore).minScore :=
  (default_rank_isTier hscore₀).lo_le (default_rank_isTier (hscore₀.trans hscore)) hscore

include hscore₀ hscore

/-- More days and more points lower a limit only if they lose a perk. -/
theorem default_dailyLimit_mono_iff :
    (∀ key, allowance (dailyLimit defaultGuildPolicy r key) ≤
        allowance (dailyLimit defaultGuildPolicy r' key)) ↔
      ¬ PerkLost defaultGuildPolicy r.activeDays r.contributionScore r'.activeDays
        r'.contributionScore := by
  have hlevel := default_level_mono hdays₀ hdays
  have hrank := default_rank_mono hscore₀ hscore
  have hmem := defaultGuildPolicy.levelPolicyForActiveDays_mem r.activeDays
  have hmem' := defaultGuildPolicy.levelPolicyForActiveDays_mem r'.activeDays
  have hrankMem := defaultGuildPolicy.rankPolicyForScore_mem r.contributionScore
  have hrankMem' := defaultGuildPolicy.rankPolicyForScore_mem r'.contributionScore
  constructor
  · rintro h ⟨hD, hC, key, l, hl, hl'⟩
    obtain ⟨hperk, hperk'⟩ := default_perk_lost key _ hrankMem _ hrankMem' hD hC
    have hle := h key
    rw [default_allowance, default_allowance, perkOf, perkOf, hperk, hperk', wholeOf, wholeOf, hl,
      hl'] at hle
    have hfive := (default_levelLimit_bounds key _ hmem l hl).1
    have hless : l * 120 / 100 ≤ l * 100 / 100 := WithTop.coe_le_coe.mp hle
    omega
  · intro h key
    rw [default_allowance, default_allowance]
    rcases default_perk_mono key _ hrankMem _ hrankMem' hrank with hle | ⟨hD, hC⟩
    · refine percentOf_mono ?_ ?_ (default_levelLimit_mono key _ hmem _ hmem' hlevel) hle
      · exact default_whole_nonneg key _ hmem
      · exact default_perk_nonneg key _ hrankMem
    · obtain ⟨hperk, hperk'⟩ := default_perk_lost key _ hrankMem _ hrankMem' hD hC
      rw [perkOf, perkOf, hperk, hperk']
      rcases default_levelLimit_grows key _ hmem _ hmem' hlevel with ⟨hsome, heq⟩ | hle
      · obtain ⟨l, hl⟩ := Option.isSome_iff_exists.mp hsome
        exact absurd ⟨hD, hC, key, l, hl, heq.trans hl⟩ h
      · exact hle

end

/-! ## Rewards -/

/-- The operations other than a change of the policy, a clawback or a penalty. -/
def GuildOp.rewards : GuildOp → Bool
  | saveGuildPolicy _ => false
  | recordContributionEvent q _ _ _ => decide (0 ≤ q.requestedDelta)
  | _ => true

theorem GuildOp.keepsPolicy_of_rewards {op : GuildOp} (h : op.rewards = true) :
    op.keepsPolicy = true := by
  cases op with
  | saveGuildPolicy policy => cases h
  | _ => rfl

/-- The operation is a contribution event of the user. -/
def GuildOp.scores (u : Uuid) : GuildOp → Prop
  | recordContributionEvent q _ _ _ => q.userId = u
  | _ => False

variable {env : Env} {policy : Policy} {s s' : Db} {u : Uuid} {q : ContributionRequest}
  {eventType : String} {now : Int}

theorem run_voteDelta_nonneg {v : Int × Option String} (hq : 0 ≤ q.requestedDelta)
    (h : (voteDelta policy q eventType now).run s = (.ok v, s')) : 0 ≤ v.1 := by
  unfold voteDelta at h
  split at h
  swap
  · cases h
    exact hq
  split at h
  · cases h
    exact le_rfl
  obtain ⟨reciprocal, s₁, -, h⟩ := Tx.run_bind_eq_ok h
  split at h
  · cases h
    exact le_rfl
  obtain ⟨clustered, s₂, -, h⟩ := Tx.run_bind_eq_ok h
  split at h
  · cases h
    exact le_rfl
  obtain ⟨meaningful, s₃, -, h⟩ := Tx.run_bind_eq_ok h
  split at h <;> cases h
  · exact le_rfl
  · exact hq

theorem run_cappedDelta_nonneg {v d : Int × Option String} (hv : 0 ≤ v.1)
    (h : (cappedDelta q eventType now v).run s = (.ok d, s')) : 0 ≤ d.1 := by
  unfold cappedDelta at h
  split at h
  · cases h
    exact hv
  split at h
  swap
  · cases h
    exact hv
  obtain ⟨points, s₁, -, h⟩ := Tx.run_bind_eq_ok h
  dsimp only at h
  split at h
  · cases h
    exact le_rfl
  split at h <;> cases h
  · exact le_max_right _ _
  · exact hv

theorem run_recordContributionEvent_nonneg {startedAt : Int} {id : Uuid}
    {o : ContributionEventOutcome} (hq : 0 ≤ q.requestedDelta)
    (h : (recordContributionEvent env q now startedAt id).run s = (.ok o, s')) :
    0 ≤ o.appliedDelta := by
  rcases (run_recordContributionEvent_ok h).effect with
    ⟨-, hzero, -⟩ | ⟨-, -, -, -, e, -, -, -, -, hdelta, hrows⟩
  · exact hzero.ge
  rcases run_recordContributionEvent_recorded h with hnone | ⟨e', hrows', hrec⟩
  · rw [hnone] at hrows
    simp at hrows
  · obtain rfl : e = e' := by simpa using hrows.symm.trans hrows'
    obtain ⟨policy, s₁, s₂, vote, why, -, -, hvote, hcap⟩ := hrec.checked
    rw [← hdelta]
    exact run_cappedDelta_nonneg (run_voteDelta_nonneg hq hvote) hcap

/-- A reward does not lower the score, if the total is an `i32`. -/
theorem GuildOp.score_le {op : GuildOp} (hop : op.rewards = true)
    (hfits : op.scores u → TotalFits env op s) :
    scoreOf s u ≤ scoreOf (op.apply env s) u := by
  rcases hout : op.outcome env s with _ | o
  · exact (GuildOp.score_of_outcome_none hout u).ge
  obtain ⟨q, now, startedAt, id, rfl, hrun⟩ := GuildOp.outcome_eq_some hout
  have heff := run_recordContributionEvent_ok hrun
  by_cases hu : u = q.userId
  swap
  · exact (heff.score_other hu).ge
  subst hu
  have hbounds := hfits rfl o hout
  have hnonneg := run_recordContributionEvent_nonneg (of_decide_eq_true hop) hrun
  rw [heff.score, applyOutcome]
  split
  · exact le_rfl
  · rw [i32_of_range hbounds.1 hbounds.2]
    omega

/-- An active day is never taken back. -/
theorem GuildOp.days_le (env : Env) (op : GuildOp) (h₀ : IsCount (activeDaysOf s u)) :
    activeDaysOf s u ≤ activeDaysOf (op.apply env s) u ∧
      IsCount (activeDaysOf (op.apply env s) u) := by
  have hstep := op.opStep env s u
  by_cases hop : ∀ h, op ≠ .human h
  · have hdays : activeDaysOf (op.apply env s) u = activeDaysOf s u := by
      have hsame := congrArg Prod.fst (hstep.dayRecord hop)
      unfold activeDaysOf
      generalize statsOf s u = a, statsOf (op.apply env s) u = b at hsame
      cases a <;> cases b <;> exact hsame
    rw [hdays]
    exact ⟨le_rfl, h₀⟩
  push Not at hop
  obtain ⟨op, rfl⟩ := hop
  unfold activeDaysOf at *
  generalize statsOf s u = a, statsOf ((GuildOp.human op).apply env s) u = b at *
  cases hstep with
  | same => exact ⟨le_rfl, h₀⟩
  | active _ _ user hc hv =>
    have hdays := currentStats_activeDays (policyOf env s) u a
    rw [← hdays] at h₀ ⊢
    rw [Option.map_some, Option.getD_some]
    rcases activity_days (policyOf env s) (currentStats (policyOf env s) u a) op.today op.now with
      ⟨-, ha⟩ | ⟨-, -, ha⟩
    · rw [ha]
      exact ⟨le_rfl, h₀⟩
    · obtain ⟨hsucc, hle⟩ := i32_succ h₀ (ha ▸ hv.1)
      have := h₀.1
      rw [ha, hsucc]
      exact ⟨by omega, by omega, hle⟩

theorem progress_le {ops : List GuildOp} (hops : ∀ op ∈ ops, op.rewards = true)
    (hfits : Stepwise env (fun op s => op.scores u → TotalFits env op s) ops s)
    (h₀ : IsCount (activeDaysOf s u)) :
    activeDaysOf s u ≤ activeDaysOf (runOps env ops s) u ∧
      IsCount (activeDaysOf (runOps env ops s) u) ∧
      scoreOf s u ≤ scoreOf (runOps env ops s) u := by
  induction ops generalizing s with
  | nil => exact ⟨le_rfl, h₀, le_rfl⟩
  | cons op ops ih =>
    obtain ⟨hdays, hcount⟩ := op.days_le env h₀
    have hscore := GuildOp.score_le (hops op List.mem_cons_self) hfits.1
    obtain ⟨hdays', hcount', hscore'⟩ :=
      ih (fun o ho => hops o (List.mem_cons_of_mem _ ho)) hfits.2 hcount
    exact ⟨hdays.trans hdays', hcount', hscore.trans hscore'⟩

variable (env s) in
theorem policyOf_runOps {ops : List GuildOp} (hops : ∀ op ∈ ops, op.rewards = true) :
    policyOf env (runOps env ops s) = policyOf env s := by
  induction ops generalizing s with
  | nil => rfl
  | cons op ops ih =>
    rw [runOps_cons, ih _ (fun o ho => hops o (List.mem_cons_of_mem _ ho)), policyOf, policyOf,
      GuildOp.adminSettings (GuildOp.keepsPolicy_of_rewards (hops op List.mem_cons_self))]

theorem snapshotOf_limit {t : Int} {S : GuildSnapshot} (hS : snapshotOf env u t s = some S)
    (key : ActionKey) :
    S.limit key =
      dailyLimit (policyOf env s) (currentStats (policyOf env s) u (statsOf s u)) key := by
  rw [snapshotOf] at hS
  rcases run_getGuildSnapshot_cases env u (dateNaive t) s with
    ⟨e, s', hrun, -⟩ | ⟨s', c₁, c₂, c₃, hrun, -⟩
  · rw [hrun] at hS
    cases hS
  · rw [hrun] at hS
    cases hS
    cases key <;> rfl

theorem currentStats_days (p : Policy) (s : Db) (u : Uuid) :
    (currentStats p u (statsOf s u)).activeDays = activeDaysOf s u :=
  currentStats_activeDays p u (statsOf s u)

theorem currentStats_scoreOf (p : Policy) (s : Db) (u : Uuid) :
    (currentStats p u (statsOf s u)).contributionScore = scoreOf s u :=
  currentStats_score p u (statsOf s u)

/-- Under the built-in policy any two snapshots of a user in a run of rewards whose totals are `i32`
show no lower limit the second time, unless between them the user went from rank D to rank C at
levels that limit some action alike; and so it is with any two rows of which the second has no
fewer days and points. -/
theorem promotion_keeps_limits_iff (env : Env) (u : Uuid) (s₀ : Db)
    (hpolicy : policyOf env s₀ = defaultGuildPolicy)
    (hrow : ∀ r ∈ statsOf s₀ u, IsCount r.activeDays ∧ IsCount r.contributionScore)
    (before between : List GuildOp) (hops : ∀ op ∈ before ++ between, op.rewards = true)
    (hfits : Stepwise env (fun op s => op.scores u → TotalFits env op s) (before ++ between) s₀)
    (t t' : Int) (S S' : GuildSnapshot) (hS : snapshotOf env u t (runOps env before s₀) = some S)
    (hS' : snapshotOf env u t' (runOps env (before ++ between) s₀) = some S') :
    ((∀ key, allowance (S.limit key) ≤ allowance (S'.limit key)) ↔
      ¬ PerkLost defaultGuildPolicy (activeDaysOf (runOps env before s₀) u)
        (scoreOf (runOps env before s₀) u) (activeDaysOf (runOps env (before ++ between) s₀) u)
        (scoreOf (runOps env (before ++ between) s₀) u)) ∧
    ∀ r r' : UserGuildStats, 0 ≤ r.activeDays → 0 ≤ r.contributionScore →
      r.activeDays ≤ r'.activeDays → r.contributionScore ≤ r'.contributionScore →
      ((∀ key, allowance (dailyLimit defaultGuildPolicy r key) ≤
          allowance (dailyLimit defaultGuildPolicy r' key)) ↔
        ¬ PerkLost defaultGuildPolicy r.activeDays r.contributionScore r'.activeDays
          r'.contributionScore) := by
  refine ⟨?_, fun r r' h₁ h₂ h₃ h₄ => default_dailyLimit_mono_iff h₁ h₂ h₃ h₄⟩
  obtain ⟨hops₁, hops₂⟩ := List.forall_mem_append.mp hops
  obtain ⟨hfits₁, hfits₂⟩ := stepwise_append.mp hfits
  obtain ⟨hdays₀, hscore₀⟩ : IsCount (activeDaysOf s₀ u) ∧ 0 ≤ scoreOf s₀ u := by
    unfold activeDaysOf scoreOf
    rcases h : statsOf s₀ u with _ | r
    · exact ⟨⟨le_rfl, by decide⟩, le_rfl⟩
    · exact ⟨(hrow r h).1, (hrow r h).2.1⟩
  obtain ⟨-, hdays₁, hscore₁⟩ := progress_le hops₁ hfits₁ hdays₀
  obtain ⟨hdays₂, -, hscore₂⟩ := progress_le hops₂ hfits₂ hdays₁
  rw [← runOps_append] at hdays₂ hscore₂
  have hpolicy₁ := (policyOf_runOps env s₀ hops₁).trans hpolicy
  have hpolicy₂ := (policyOf_runOps env s₀ hops).trans hpolicy
  have hscore₀ := hscore₀.trans hscore₁
  simp only [← currentStats_days defaultGuildPolicy, ← currentStats_scoreOf defaultGuildPolicy]
    at hdays₁ hdays₂ hscore₀ hscore₂ ⊢
  simp only [snapshotOf_limit hS, snapshotOf_limit hS', hpolicy₁, hpolicy₂]
  exact default_dailyLimit_mono_iff hdays₁.1 hscore₀ hdays₂ hscore₂

/-- An award of 50 points to the account. -/
def moderationAward (eventId : Uuid) : GuildOp :=
  .recordContributionEvent (awardValidatedModerationAction 1 "validated_action" none (.object []))
    (Duration.seconds 9) (Duration.seconds 9) eventId

theorem promotion_keeps_limits_iff_one_award :
    allowance (((snapshotOf asciiEnv 1 0 oneAccount).get (by decide)).limit .outboundMessage) ≤
      allowance (((snapshotOf asciiEnv 1 0 (runOps asciiEnv [moderationAward 7] oneAccount)).get
        (by decide)).limit .outboundMessage) :=
  (promotion_keeps_limits_iff asciiEnv 1 oneAccount rfl (by decide) [] [moderationAward 7]
    (by decide) ⟨fun _ => by unfold TotalFits moderationAward; decide, trivial⟩ 0 0 _ _
    (Option.some_get _).symm (Option.some_get _).symm).1.mpr
      (fun h => absurd h.1 (by decide)) .outboundMessage

/-- The twentieth award leads from rank D to rank C, and to ten messages less a day. -/
theorem promotion_costs_quota :
    ∃ (env : Env) (u : Uuid) (s₀ : Db) (before between : List GuildOp) (t t' : Int)
      (S S' : GuildSnapshot),
      policyOf env s₀ = defaultGuildPolicy ∧ statsOf s₀ u = none ∧
      (∀ op ∈ before ++ between, op.rewards = true) ∧
      snapshotOf env u t (runOps env before s₀) = some S ∧
      snapshotOf env u t' (runOps env (before ++ between) s₀) = some S' ∧
      S.rank = "D" ∧ S'.rank = "C" ∧ S.dailyOutboundMessagesLimit = some 60 ∧
      S'.dailyOutboundMessagesLimit = some 50 ∧
      ¬ ∀ key, allowance (S.limit key) ≤ allowance (S'.limit key) := by
  refine ⟨asciiEnv, 1, oneAccount, (List.range 19).map moderationAward, [moderationAward 19], 0, 0,
    (snapshotOf asciiEnv 1 0 (runOps asciiEnv ((List.range 19).map moderationAward)
      oneAccount)).get (by decide +kernel),
    (snapshotOf asciiEnv 1 0 (runOps asciiEnv ((List.range 19).map moderationAward ++
      [moderationAward 19]) oneAccount)).get (by decide +kernel), rfl, by decide, by decide,
    (Option.some_get _).symm, (Option.some_get _).symm, by decide +kernel, by decide +kernel,
    by decide +kernel, by decide +kernel, fun h => absurd (h .outboundMessage) (by decide +kernel)⟩

end SyncServer.Guild
