import SyncServer.Guild.Suspicion

/-! # Milestone notifications

A snapshot compares the stored level and rank with the recomputed ones. Every
operation that makes progress stores the new level and rank itself, so under a
fixed policy the two never differ and no snapshot carries a notification.
-/

namespace SyncServer.Guild
open Transaction

/-- The operations other than a change of the policy. -/
def GuildOp.keepsPolicy : GuildOp → Bool
  | saveGuildPolicy _ => false
  | _ => true

variable {env : Env} {p : Policy} {u : Uuid} {s : Db}

theorem GuildOp.adminSettings {op : GuildOp} (h : op.keepsPolicy = true) (s : Db) :
    (op.apply env s).adminSettings = s.adminSettings := by
  cases op with
  | human op =>
    rcases op.apply_cases env s with ⟨-, hs⟩ | ⟨-, -, hrow⟩
    · rw [hs]
    · exact hrow.settings
  | getGuildSnapshot u t =>
    rw [apply]
    rcases run_getGuildSnapshot_cases env u (dateNaive t) s with
      ⟨e, s', hrun, hframe, -⟩ | ⟨s', c₁, c₂, c₃, hrun, -, hframe⟩ <;>
    · rw [hrun]
      exact hframe.adminSettings
  | recordContributionEvent q now startedAt id =>
    rw [apply]
    rcases Tx.atomically_snd_cases (Guild.recordContributionEvent env q now startedAt id) s with
      ⟨o, hrun⟩ | hs
    · exact (run_recordContributionEvent_ok hrun).settings
    · rw [hs]
  | freezeGuildProgression admin target reason audit =>
    cases admin with
    | none =>
      exact (run_update_audit target target frozenStats (fun _ => rfl)
        (keeps_insertAuditLog (fun _ _ => rfl) _) s).1
    | some a =>
      exact (run_update_audit target target frozenStats (fun _ => rfl)
        (keeps_insertAuditLog (fun _ _ => rfl) _) s).1
  | unfreezeGuildProgression admin target reason audit =>
    exact (run_update_audit target target clearedStats (fun _ => rfl)
      (keeps_insertAuditLog (fun _ _ => rfl) _) s).1
  | saveGuildPolicy policy => cases h
  | pruneGuildHistory now =>
    exact (Prod.mk.inj ((keeps_pruneGuildHistory env now).run s)).2

/-- The derived columns of a row are those that the policy computes. -/
def InSync (p : Policy) (r : UserGuildStats) : Prop := synced p r = r

theorem synced_inSync (r : UserGuildStats) : InSync p (synced p r) := rfl

theorem freshStats_inSync (p : Policy) (u : Uuid) : InSync p (freshStats p u) := rfl

theorem getD_inSync {o : Option UserGuildStats} (h : ∀ r ∈ o, InSync p r) :
    InSync p (o.getD (freshStats p u)) := by
  cases o with
  | none => exact freshStats_inSync p u
  | some r => exact h r rfl

theorem activity_inSync {r : UserGuildStats} (h : InSync p r) (today now : Int) :
    InSync p (activity p r today now) := by
  unfold InSync synced at h
  have hlevel := congrArg UserGuildStats.derivedLevel h
  have hrank := congrArg UserGuildStats.derivedRank h
  apply synced_eq_self
  · unfold activity
    dsimp only
    split
    · rfl
    · exact hlevel.symm
  · unfold activity
    dsimp only
    split
    · rfl
    · exact hrank.symm

/-- Every operation that touches a row leaves its derived columns up to date. -/
theorem RowStep.inSync {o o' : Option UserGuildStats} (hstep : RowStep p u o o')
    (h : ∀ r ∈ o, InSync p r) : ∀ r ∈ o', InSync p r := by
  cases hstep with
  | same => exact h
  | ensured =>
    rintro r ⟨⟩
    exact getD_inSync h
  | synced =>
    rintro r ⟨⟩
    exact synced_inSync _
  | active _ today now hv =>
    rintro r ⟨⟩
    exact activity_inSync (synced_inSync _) today now
  | scored _ score hs =>
    rintro r ⟨⟩
    exact synced_eq_self rfl rfl
  | frozen r =>
    rintro r' ⟨⟩
    have hr : InSync p r := h r rfl
    exact synced_eq_self (congrArg UserGuildStats.derivedLevel hr).symm
      (congrArg UserGuildStats.derivedRank hr).symm
  | cleared r =>
    rintro r' ⟨⟩
    have hr : InSync p r := h r rfl
    exact synced_eq_self (congrArg UserGuildStats.derivedLevel hr).symm
      (congrArg UserGuildStats.derivedRank hr).symm

/-- Policy `p` is in force and the row of `u` is up to date with it. -/
def UpToDate (env : Env) (p : Policy) (u : Uuid) (s : Db) : Prop :=
  policyOf env s = p ∧ ∀ r ∈ statsOf s u, InSync p r

theorem UpToDate.apply {op : GuildOp} (h : UpToDate env p u s) (hop : op.keepsPolicy = true) :
    UpToDate env p u (op.apply env s) := by
  obtain ⟨rfl, hrow⟩ := h
  refine ⟨?_, (op.rowStep env s u).inSync hrow⟩
  rw [policyOf, policyOf, GuildOp.adminSettings hop]

theorem UpToDate.runOps {ops : List GuildOp} (h : UpToDate env p u s)
    (hops : ∀ op ∈ ops, op.keepsPolicy = true) : UpToDate env p u (runOps env ops s) := by
  induction ops generalizing s with
  | nil => exact h
  | cons op ops ih =>
    exact ih (h.apply (hops op List.mem_cons_self)) (fun o ho => hops o (List.mem_cons_of_mem _ ho))

/-! ## Snapshots -/

/-- The snapshot that `get_guild_snapshot` answers. -/
def snapshotOf (env : Env) (u : Uuid) (t : Int) (s : Db) : Option GuildSnapshot :=
  ((getGuildSnapshot env u (dateNaive t)).run s).1.toOption

/-- The level and the rank that the columns of a user amount to under a policy. -/
def earnedLevel (p : Policy) (u : Uuid) (s : Db) : Nat :=
  (p.levelPolicyForActiveDays (((statsOf s u).map UserGuildStats.activeDays).getD 0)).level

def earnedRank (p : Policy) (u : Uuid) (s : Db) : String :=
  (p.rankPolicyForScore (((statsOf s u).map UserGuildStats.contributionScore).getD 0)).rank

theorem clientLevel_eq {r : UserGuildStats} (h : InSync p r) :
    clientLevel r = (p.levelPolicyForActiveDays r.activeDays).level := by
  have hlevel : ((p.levelPolicyForActiveDays r.activeDays).level : Int) = r.derivedLevel :=
    congrArg UserGuildStats.derivedLevel h
  have hrange := p.level_range r.activeDays
  rw [clientLevel, ← hlevel, clamp_of_range (by omega) (by omega)]
  rfl

theorem milestoneNotification_self (unicode : Unicode) (level : Nat) (rank : String) :
    milestoneNotification unicode level rank level rank = none := by
  unfold milestoneNotification
  rw [if_neg (Nat.lt_irrefl level), if_neg]
  cases rankOrder rank <;> simp [milestoneNotification.optionLt]

/-- A snapshot of an up-to-date row shows the earned level and rank, and no milestone. -/
theorem UpToDate.snapshot {t : Int} {S : GuildSnapshot} (h : UpToDate env p u s)
    (hS : snapshotOf env u t s = some S) :
    S.level = earnedLevel p u s ∧ S.rank = earnedRank p u s ∧
      S.pendingMilestoneNotification = none ∧
      earnedLevel p u ((GuildOp.getGuildSnapshot u t).apply env s) = earnedLevel p u s ∧
      earnedRank p u ((GuildOp.getGuildSnapshot u t).apply env s) = earnedRank p u s := by
  obtain ⟨rfl, hrow⟩ := h
  have hsync : InSync (policyOf env s) ((statsOf s u).getD (freshStats (policyOf env s) u)) :=
    getD_inSync hrow
  have hcur : currentStats (policyOf env s) u (statsOf s u) =
      (statsOf s u).getD (freshStats (policyOf env s) u) := hsync
  have hlevel : ((statsOf s u).getD (freshStats (policyOf env s) u)).activeDays =
      ((statsOf s u).map UserGuildStats.activeDays).getD 0 := by
    cases statsOf s u <;> rfl
  have hscore : ((statsOf s u).getD (freshStats (policyOf env s) u)).contributionScore =
      ((statsOf s u).map UserGuildStats.contributionScore).getD 0 := by
    cases statsOf s u <;> rfl
  rw [snapshotOf] at hS
  rw [GuildOp.apply]
  rcases run_getGuildSnapshot_cases env u (dateNaive t) s with
    ⟨e, s', hrun, -⟩ | ⟨s', c₁, c₂, c₃, hrun, hget, -⟩
  · rw [hrun] at hS
    cases hS
  rw [hrun] at hS ⊢
  rw [hcur] at hS hget
  cases hS
  have hrank : ((statsOf s u).getD (freshStats (policyOf env s) u)).derivedRank =
      earnedRank (policyOf env s) u s := by
    rw [earnedRank, ← hscore]
    exact (congrArg UserGuildStats.derivedRank hsync).symm
  refine ⟨?_, hrank, milestoneNotification_self _ _ _, ?_, ?_⟩
  · change clientLevel _ = _
    rw [clientLevel_eq hsync, hlevel, earnedLevel]
  · rw [earnedLevel, earnedLevel, hget, Option.map_some, Option.getD_some, hlevel]
  · rw [earnedRank, earnedRank, hget, Option.map_some, Option.getD_some, hscore]

/-- What the documentation of `pending_milestone_notification` says about two snapshots. -/
structure MilestoneReported (S S' : GuildSnapshot) : Prop where
  levelUp : S.level < S'.level → ∃ n, S'.pendingMilestoneNotification = some n ∧
    n.kind = .levelUp ∧ n.newValue = toString S'.level
  rankUp : S.level = S'.level → milestoneNotification.optionLt (rankOrder S.rank)
      (rankOrder S'.rank) = true →
    ∃ n, S'.pendingMilestoneNotification = some n ∧ n.kind = .rankUp ∧ n.newValue = S'.rank
  neither : ¬ S.level < S'.level →
    ¬ milestoneNotification.optionLt (rankOrder S.rank) (rankOrder S'.rank) = true →
    S'.pendingMilestoneNotification = none

/-- From `s` to `s'` the user has passed the threshold of a level, or of a rank. -/
def passedThreshold (p : Policy) (u : Uuid) (s s' : Db) : Bool :=
  decide (earnedLevel p u s < earnedLevel p u s') ||
    (decide (earnedLevel p u s = earnedLevel p u s') &&
      milestoneNotification.optionLt (rankOrder (earnedRank p u s)) (rankOrder (earnedRank p u s')))

/-- Under a fixed policy the milestones between two snapshots of a user are reported
if and only if there are none. -/
theorem milestones_reported_iff (env : Env) (u : Uuid) (s₀ : Db) (h₀ : statsOf s₀ u = none)
    (before between : List GuildOp) (hbefore : ∀ op ∈ before, op.keepsPolicy = true)
    (hbetween : ∀ op ∈ between, op.keepsPolicy = true) (t t' : Int) (S S' : GuildSnapshot)
    (hS : snapshotOf env u t (runOps env before s₀) = some S)
    (hS' : snapshotOf env u t' (runOps env (before ++ .getGuildSnapshot u t :: between) s₀) =
      some S') :
    MilestoneReported S S' ↔ passedThreshold (policyOf env s₀) u (runOps env before s₀)
      (runOps env (before ++ .getGuildSnapshot u t :: between) s₀) = false := by
  have hstart : UpToDate env (policyOf env s₀) u s₀ := ⟨rfl, by simp [h₀]⟩
  have h₁ := hstart.runOps hbefore
  have h₂ : UpToDate env (policyOf env s₀) u
      (runOps env (before ++ .getGuildSnapshot u t :: between) s₀) := by
    rw [runOps_append, runOps_cons]
    exact (h₁.apply rfl).runOps hbetween
  obtain ⟨hlevel, hrank, -⟩ := h₁.snapshot hS
  obtain ⟨hlevel', hrank', hnone, -⟩ := h₂.snapshot hS'
  rw [passedThreshold, ← hlevel, ← hlevel', ← hrank, ← hrank', Bool.or_eq_false_iff,
    decide_eq_false_iff_not, Bool.and_eq_false_iff, decide_eq_false_iff_not,
    ← Bool.not_eq_true (milestoneNotification.optionLt _ _)]
  constructor
  · intro h
    refine ⟨fun hl => ?_, or_iff_not_imp_left.mpr (fun he hr => ?_)⟩
    · obtain ⟨n, hn, -⟩ := h.levelUp hl
      rw [hnone] at hn
      cases hn
    · obtain ⟨n, hn, -⟩ := h.rankUp (not_not.mp he) hr
      rw [hnone] at hn
      cases hn
  · rintro ⟨hl, hr⟩
    exact ⟨fun h => absurd h hl, fun he h => absurd h (hr.resolve_left (not_not.mpr he)),
      fun _ _ => hnone⟩

/-- An award to the account for an action of moderation. -/
def awardAlice (second : Int) (reference : String) (eventId : Uuid) : GuildOp :=
  .recordContributionEvent (awardValidatedModerationAction 1 "validated_action" (some reference)
    (Json.ofFields [])) (Duration.seconds second) (Duration.seconds second) eventId

/-- One award is not enough for the next rank: nothing is to report, and nothing is reported. -/
theorem milestones_reported_iff_one_award :
    MilestoneReported
      ((snapshotOf asciiEnv 1 0 oneAccount).get (by decide))
      ((snapshotOf asciiEnv 1 0 (runOps asciiEnv [.getGuildSnapshot 1 0, awardAlice 9 "a" 1]
        oneAccount)).get (by decide)) :=
  (milestones_reported_iff asciiEnv 1 oneAccount (by decide) [] [awardAlice 9 "a" 1] (by simp)
    (by decide) 0 0 _ _ (Option.some_get _).symm (Option.some_get _).symm).mpr (by decide)

/-- Two awards between two snapshots raise the rank, and the second snapshot reports nothing. -/
theorem milestone_not_reported :
    ∃ (env : Env) (s : Db) (u : Uuid) (between : List GuildOp) (t t' : Int)
      (S S' : GuildSnapshot),
      (∀ op ∈ between, op.keepsPolicy = true) ∧ statsOf s u = none ∧
      snapshotOf env u t s = some S ∧
      snapshotOf env u t' (runOps env (.getGuildSnapshot u t :: between) s) = some S' ∧
      S.level = S'.level ∧ S.rank = "F" ∧ S'.rank = "E" ∧
      S'.pendingMilestoneNotification = none ∧ ¬ MilestoneReported S S' := by
  refine ⟨asciiEnv, oneAccount, 1, [awardAlice 9 "a" 1, awardAlice 10 "b" 2], 0, 0,
    (snapshotOf asciiEnv 1 0 oneAccount).get (by decide),
    (snapshotOf asciiEnv 1 0 (runOps asciiEnv [.getGuildSnapshot 1 0, awardAlice 9 "a" 1,
      awardAlice 10 "b" 2] oneAccount)).get (by decide), by decide, by decide,
    (Option.some_get _).symm, (Option.some_get _).symm, by decide, by decide, by decide,
    by decide, fun h => ?_⟩
  obtain ⟨n, hn, -⟩ := h.rankUp (by decide) (by decide)
  exact Option.some_ne_none n (hn.symm.trans (by decide))

end SyncServer.Guild
