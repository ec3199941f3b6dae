import SyncServer.Guild.Rows

/-! # The effect of a contribution event

What a committed `record_contribution_event` leaves behind: the score and the
rank of the user, and one more event unless the reference was seen before.
-/

namespace SyncServer.Guild
open Transaction

variable {env : Env} {policy : Policy} {s s' : Db}

def GranterFrame (policy : Policy) (u : Uuid) (granter : Option Uuid) (s s' : Db) : Prop :=
  s' = s ∨ ∃ g, granter = some g ∧ g ≠ u ∧ StatsFrame g s s' ∧
    statsOf s' g = some (currentStats policy g (statsOf s g))

theorem run_granterIsMeaningful_ok {u : Uuid} {granter : Option Uuid} (hu : granter ≠ some u)
    {b : Bool} (h : (granterIsMeaningful policy granter).run s = (.ok b, s')) :
    GranterFrame policy u granter s s' := by
  cases granter with
  | none =>
    cases h
    exact .inl rfl
  | some g =>
    simp only [granterIsMeaningful] at h
    rw [Tx.run_bind_ok (Tx.run_query _ _)] at h
    split at h
    · cases h
      exact .inl rfl
    split at h
    · cases h
      exact .inl rfl
    rcases run_ensureUserGuildStats_cases policy g s with ⟨e, he⟩ | ⟨r, s₁, hrun, rfl, hget, hf⟩
    · rw [Tx.run_bind_error he] at h
      cases h
    rw [Tx.run_bind_ok hrun] at h
    rcases run_syncDerivedState_cases policy hget with ⟨e, he⟩ | ⟨s₂, hrun₂, hget₂, hf₂⟩
    · rw [Tx.run_bind_error he] at h
      cases h
    rw [Tx.run_bind_ok hrun₂] at h
    cases h
    exact .inr ⟨g, rfl, fun hg => hu (hg ▸ rfl), hf.trans hf₂, hget₂⟩

theorem run_isReciprocalVote_ok {u : Uuid} {granter : Option Uuid} {eventType : String}
    {now : Int} {b : Bool} (h : (isReciprocalVote u granter eventType now).run s = (.ok b, s')) :
    s' = s := by
  cases granter with
  | none =>
    cases h
    rfl
  | some g =>
    obtain ⟨w, s₁, h₁, h₂⟩ := Tx.run_bind_eq_ok h
    cases h₂
    exact (Tx.run_okOr_ok.mp h₁).2

theorem run_voteDelta_ok {q : ContributionRequest} {eventType : String} {now : Int}
    {v : Int × Option String} (h : (voteDelta policy q eventType now).run s = (.ok v, s')) :
    GranterFrame policy q.userId q.granterUserId s s' := by
  unfold voteDelta at h
  split at h
  swap
  · cases h
    exact .inl rfl
  split at h
  · cases h
    exact .inl rfl
  rename_i hself
  obtain ⟨b, s₁, h₁, h⟩ := Tx.run_bind_eq_ok h
  cases run_isReciprocalVote_ok h₁
  split at h
  · cases h
    exact .inl rfl
  obtain ⟨b, s₁, h₁, h⟩ := Tx.run_bind_eq_ok h
  cases h₁
  split at h
  · cases h
    exact .inl rfl
  obtain ⟨b, s₁, h₁, h⟩ := Tx.run_bind_eq_ok h
  have hframe := run_granterIsMeaningful_ok hself h₁
  split at h <;> cases h <;> exact hframe

theorem run_cappedDelta_ok {q : ContributionRequest} {eventType : String} {now : Int}
    {v d : Int × Option String} (h : (cappedDelta q eventType now v).run s = (.ok d, s')) :
    s' = s := by
  unfold cappedDelta at h
  split at h
  · cases h
    rfl
  · split at h
    · obtain ⟨points, s₁, h₁, h⟩ := Tx.run_bind_eq_ok h
      cases h₁
      dsimp only at h
      split at h
      · cases h
        rfl
      · split at h <;> cases h <;> rfl
    · cases h
      rfl

/-- What a committed contribution event of `q` did. -/
structure ContributionEffect (env : Env) (q : ContributionRequest) (s s' : Db)
    (o : ContributionEventOutcome) : Prop where
  settings : s'.adminSettings = s.adminSettings
  other : ∀ v, v ≠ q.userId → statsOf s' v = statsOf s v ∨
    statsOf s' v = some (currentStats (policyOf env s) v (statsOf s v))
  shown : ∃ r, statsOf s' q.userId = some r ∧ o.contributionScore = r.contributionScore ∧
    o.derivedRank = r.derivedRank
  effect :
    (o.duplicate = true ∧ o.appliedDelta = 0 ∧
      (∃ ref, q.normalizedReferenceId = some ref ∧
        hasReference q.userId (trim q.eventType) ref s = true) ∧
      statsOf s' q.userId =
        some (currentStats (policyOf env s) q.userId (statsOf s q.userId)) ∧
      s'.guildScoreEvents = s.guildScoreEvents) ∨
    (o.duplicate = false ∧
      (∀ ref, q.normalizedReferenceId = some ref →
        hasReference q.userId (trim q.eventType) ref s = false) ∧
      o.contributionScore = max (i32
        ((currentStats (policyOf env s) q.userId (statsOf s q.userId)).contributionScore +
          o.appliedDelta)) 0 ∧
      statsOf s' q.userId =
        some { currentStats (policyOf env s) q.userId (statsOf s q.userId) with
          contributionScore := o.contributionScore
          derivedRank := ((policyOf env s).rankPolicyForScore o.contributionScore).rank } ∧
      ∃ e, o.event = some e ∧ e.userId = q.userId ∧ e.eventType = trim q.eventType ∧
        e.referenceId = q.normalizedReferenceId ∧ e.delta = o.appliedDelta ∧
        s'.guildScoreEvents.rows = s.guildScoreEvents.rows ++ [e])

theorem run_insertScoreEvent_ok {e e' : GuildScoreEvent}
    (h : (insertScoreEvent e).run s = (.ok e', s')) :
    e' = e ∧ ∃ t, s' = { s with guildScoreEvents := t } ∧
      t.rows = s.guildScoreEvents.rows ++ [e] := by
  have hf := Query.run_exec_ok.mp h
  split at hf
  · cases hf
  · rename_i t ht
    split at hf <;> cases hf
    exact ⟨rfl, t, rfl, Table.rows_of_insert ht⟩

theorem StatsFrame.events {u : Uuid} (h : StatsFrame u s s') :
    s'.guildScoreEvents = s.guildScoreEvents := by
  obtain ⟨t, a, rfl, -⟩ := h
  rfl

theorem hasReference_congr (u : Uuid) (t ref : String)
    (h : s'.guildScoreEvents = s.guildScoreEvents) :
    hasReference u t ref s' = hasReference u t ref s := by
  rw [hasReference, hasReference, h]

theorem run_findDuplicate_ok {q : ContributionRequest} {eventType : String} {b : Bool}
    (h : (findDuplicate q eventType).run s = (.ok b, s')) :
    s' = s ∧ b = q.normalizedReferenceId.any (fun ref => hasReference q.userId eventType ref s) := by
  unfold findDuplicate at h
  split at h <;> cases h <;> simp_all

theorem run_recordContributionEvent_ok {q : ContributionRequest} {now startedAt : Int}
    {id : Uuid} {o : ContributionEventOutcome}
    (h : (recordContributionEvent env q now startedAt id).run s = (.ok o, s')) :
    ContributionEffect env q s s' o := by
  unfold recordContributionEvent at h
  dsimp only at h
  split at h
  · cases h
  replace h := Tx.run_bind_eq_ok h
  obtain ⟨⟨p, r⟩, s₁, hload, h⟩ := h
  rcases run_loadStats_cases env q.userId s with ⟨e, s₀, he, -⟩ | ⟨s₀, hrun, hget, hframe⟩
  · rw [he] at hload
    cases hload
  rw [hrun] at hload
  cases hload
  replace h := Tx.run_bind_eq_ok h
  obtain ⟨dup, s₂, hfind, h⟩ := h
  obtain ⟨hs, hdup⟩ := run_findDuplicate_ok hfind
  subst hs
  have hrefs : ∀ ref, hasReference q.userId (trim q.eventType) ref s₂ =
      hasReference q.userId (trim q.eventType) ref s :=
    fun ref => hasReference_congr _ _ _ hframe.events
  simp only [hrefs] at hdup
  split at h
  · -- a duplicate: nothing but the row's derived columns was touched
    rename_i htrue
    cases h
    refine ⟨hframe.adminSettings, fun v hv => .inl (hframe.other hv), ⟨_, hget, rfl, rfl⟩,
      .inl ⟨rfl, rfl, ?_, hget, hframe.events⟩⟩
    rw [htrue] at hdup
    obtain ⟨ref, href, hyes⟩ := (Option.any_eq_true _ _).mp hdup.symm
    exact ⟨ref, href, hyes⟩
  · rename_i hfalse
    obtain ⟨vote, s₃, hvote, h⟩ := Tx.run_bind_eq_ok h
    have hgranter := run_voteDelta_ok hvote
    obtain ⟨⟨delta, why⟩, s₄, hcap, h⟩ := Tx.run_bind_eq_ok h
    cases run_cappedDelta_ok hcap
    obtain ⟨e, s₅, hins, h⟩ := Tx.run_bind_eq_ok h
    obtain ⟨rfl, t, rfl, ht⟩ := run_insertScoreEvent_ok hins
    obtain ⟨x, s₆, hupd, h⟩ := Tx.run_bind_eq_ok h
    cases h
    have hself : statsOf s₃ q.userId =
        some (currentStats (policyOf env s) q.userId (statsOf s q.userId)) := by
      rcases hgranter with rfl | ⟨g, -, hg, hf, -⟩
      · exact hget
      · rw [hf.other hg.symm, hget]
    have hother : ∀ v, v ≠ q.userId → statsOf s₃ v = statsOf s v ∨
        statsOf s₃ v = some (currentStats (policyOf env s) v (statsOf s v)) := by
      intro v hv
      rcases hgranter with rfl | ⟨g, -, hg, hf, hrow⟩
      · exact .inl (hframe.other hv)
      · by_cases hvg : v = g
        · subst hvg
          rw [hframe.other hv] at hrow
          exact .inr hrow
        · exact .inl ((hf.other hvg).trans (hframe.other hv))
    have hevents : s₃.guildScoreEvents = s.guildScoreEvents := by
      rcases hgranter with rfl | ⟨g, -, -, hf, -⟩
      · exact hframe.events
      · exact hf.events.trans hframe.events
    have hsettings : s₃.adminSettings = s.adminSettings := by
      rcases hgranter with rfl | ⟨g, -, -, hf, -⟩
      · exact hframe.adminSettings
      · exact hf.adminSettings.trans hframe.adminSettings
    rcases run_executeUpdateStats_cases q.userId _ _ { s₃ with guildScoreEvents := t } with
      ⟨e, he⟩ | ⟨s₇, hrun', hrow, -, hf⟩
    · rw [he] at hupd
      cases hupd
    rw [hrun'] at hupd
    cases hupd
    replace hrow := hrow.trans (congrArg (Option.map _) hself)
    refine ⟨hf.adminSettings.trans hsettings, fun v hv => ?_, ⟨_, hrow, rfl, rfl⟩,
      .inr ⟨rfl, ?_, rfl, hrow, _, rfl, rfl, rfl, rfl, rfl, ?_⟩⟩
    · rw [hf.other hv]
      exact hother v hv
    · intro ref href
      rw [href] at hdup
      simp only [Option.any_some] at hdup
      rw [← hdup]
      simpa using hfalse
    · rw [hf.events]
      change t.rows = _
      rw [ht, hevents]

end SyncServer.Guild
