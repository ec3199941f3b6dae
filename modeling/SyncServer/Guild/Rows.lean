import SyncServer.Guild.Service

/-! # Rows of `user_guild_stats`

What the programs of the guild service do to the row of a user: one lemma per
program, from which the invariants of rows follow without the programs.
-/

namespace SyncServer.Guild
open Transaction

/-- The row of a user. -/
abbrev statsOf (s : Db) (u : Uuid) : Option UserGuildStats := s.userGuildStats.get u

/-- `s'` differs from `s` in the row of `u` and in the audit log only. -/
def StatsFrame (u : Uuid) (s s' : Db) : Prop :=
  ∃ t a, s' = { s with userGuildStats := t, adminAuditLogs := a } ∧
    ∀ v, v ≠ u → t.get v = statsOf s v

namespace StatsFrame
variable {u : Uuid} {s s' s'' : Db}

theorem refl (u : Uuid) (s : Db) : StatsFrame u s s := ⟨_, _, rfl, fun _ _ => rfl⟩

theorem trans (h : StatsFrame u s s') (h' : StatsFrame u s' s'') : StatsFrame u s s'' := by
  obtain ⟨t, a, rfl, ht⟩ := h
  obtain ⟨t', a', rfl, ht'⟩ := h'
  exact ⟨t', a', rfl, fun v hv => (ht' v hv).trans (ht v hv)⟩

theorem other (h : StatsFrame u s s') {v : Uuid} (hv : v ≠ u) : statsOf s' v = statsOf s v := by
  obtain ⟨t, a, rfl, ht⟩ := h
  exact ht v hv

theorem adminSettings (h : StatsFrame u s s') : s'.adminSettings = s.adminSettings := by
  obtain ⟨t, a, rfl, ht⟩ := h
  rfl

theorem policyOf (h : StatsFrame u s s') (env : Env) : policyOf env s' = policyOf env s := by
  rw [Guild.policyOf, Guild.policyOf, h.adminSettings]

end StatsFrame

/-! ## Statements -/

variable {env : Env} {policy : Policy} {u : Uuid} {s s' : Db} {r r' : UserGuildStats}

theorem run_updateStats_cases (u : Uuid) (f : UserGuildStats → UserGuildStats)
    (hf : ∀ r, (f r).userId = r.userId) (s : Db) :
    (∃ e, (updateStats u f hf).run s = (.error e, s)) ∨
      ∃ r s', statsOf s u = some r ∧ (f r).Valid ∧ (updateStats u f hf).run s = (.ok (f r), s') ∧
        statsOf s' u = some (f r) ∧ StatsFrame u s s' := by
  unfold updateStats
  rcases Query.run_exec_cases _ _ s with he | ⟨a, s', hs, hrun⟩
  · exact .inl he
  refine .inr ?_
  rcases hr : s.userGuildStats.get u with _ | r
  · simp [hr] at hs
  · simp only [hr] at hs
    split at hs
    · rename_i hv
      cases hs
      refine ⟨r, _, hr, hv, hrun, ?_, ⟨_, _, rfl, fun v hv => ?_⟩⟩
      · simp [statsOf, hr]
      · exact Table.get_update_of_ne _ f hf hv
    · cases hs

theorem run_updateStats_ok {f : UserGuildStats → UserGuildStats} {hf : ∀ r, (f r).userId = r.userId}
    (h : (updateStats u f hf).run s = (.ok r', s')) :
    ∃ r, statsOf s u = some r ∧ r' = f r ∧ r'.Valid ∧ statsOf s' u = some r' ∧
      StatsFrame u s s' := by
  rcases run_updateStats_cases u f hf s with ⟨e, he⟩ | ⟨r, s₁, hr, hv, hrun, hget, hframe⟩
  · rw [he] at h
    cases h
  · rw [hrun] at h
    cases h
    exact ⟨r, hr, rfl, hv, hget, hframe⟩

theorem run_executeUpdateStats_cases (u : Uuid) (f : UserGuildStats → UserGuildStats)
    (hf : ∀ r, (f r).userId = r.userId) (s : Db) :
    (∃ e, (executeUpdateStats u f hf).run s = (.error e, s)) ∨
      ∃ s', (executeUpdateStats u f hf).run s = (.ok (), s') ∧
        statsOf s' u = (statsOf s u).map f ∧ (∀ r ∈ statsOf s u, (f r).Valid) ∧
        StatsFrame u s s' := by
  unfold executeUpdateStats
  rcases Query.run_exec_cases _ _ s with he | ⟨a, s', hs, hrun⟩
  · exact .inl he
  refine .inr ⟨s', hrun, ?_⟩
  rcases hr : s.userGuildStats.get u with _ | r
  · simp only [hr, Except.ok.injEq, Prod.mk.injEq] at hs
    rw [← hs.2, statsOf, hr]
    exact ⟨rfl, by simp, .refl u s⟩
  · simp only [hr] at hs
    split at hs
    · rename_i hv
      cases hs
      refine ⟨by simp [statsOf, hr], by simpa [statsOf, hr] using hv, ⟨_, _, rfl, fun v hv => ?_⟩⟩
      exact Table.get_update_of_ne _ f hf hv
    · cases hs

theorem run_insertStats_cases (row : UserGuildStats) (s : Db) :
    (∃ e, (insertStats row).run s = (.error e, s)) ∨
      ∃ s', (insertStats row).run s = (.ok (), s') ∧
        statsOf s' row.userId = some ((statsOf s row.userId).getD row) ∧
        StatsFrame row.userId s s' := by
  unfold insertStats
  rcases Query.run_exec_cases _ _ s with he | ⟨a, s', hs, hrun⟩
  · exact .inl he
  refine .inr ⟨s', hrun, ?_⟩
  rcases ht : s.userGuildStats.insert row with _ | t
  · rw [ht] at hs
    cases hs
    obtain ⟨r, hr⟩ := Option.isSome_iff_exists.mp (Table.insert_eq_none.mp ht)
    exact ⟨by simp [statsOf, hr], .refl _ s⟩
  · simp only [ht] at hs
    split at hs
    · cases hs
    split at hs
    · cases hs
    cases hs
    have hget := Table.get_of_insert ht
    refine ⟨?_, ⟨_, _, rfl, fun v hv => ?_⟩⟩
    · have hnone : statsOf s row.userId = none := Table.get_eq_none_of_insert ht
      simp [statsOf, hget, hnone]
    · rw [hget, if_neg (Ne.symm hv)]

theorem run_insertAuditLog_cases (row : AdminAuditLog) (s : Db) :
    (∃ e, (insertAuditLog row).run s = (.error e, s)) ∨
      ∃ a, (insertAuditLog row).run s = (.ok (), { s with adminAuditLogs := a }) := by
  unfold insertAuditLog
  rcases Query.run_exec_cases _ _ s with he | ⟨x, s', hs, hrun⟩
  · exact .inl he
  refine .inr ?_
  split at hs
  · cases hs
  · split at hs
    · cases hs
      exact ⟨_, hrun⟩
    · cases hs

theorem StatsFrame.auditLogs (u : Uuid) (s : Db) (a : Table Uuid AdminAuditLog AdminAuditLog.id) :
    StatsFrame u s { s with adminAuditLogs := a } := ⟨_, _, rfl, fun _ _ => rfl⟩

/-! ## Shared steps -/

theorem run_ensureUserGuildStats_cases (policy : Policy) (u : Uuid) (s : Db) :
    (∃ e, (ensureUserGuildStats policy u).run s = (.error e, s)) ∨
      ∃ r s', (ensureUserGuildStats policy u).run s = (.ok r, s') ∧
        r = (statsOf s u).getD (freshStats policy u) ∧ statsOf s' u = some r ∧
        StatsFrame u s s' := by
  unfold ensureUserGuildStats
  rcases run_insertStats_cases (freshStats policy u) s with ⟨e, he⟩ | ⟨s', hrun, hget, hframe⟩
  · exact .inl ⟨e, Tx.run_bind_error he _⟩
  · refine .inr ⟨_, s', ?_, rfl, hget, hframe⟩
    rw [Tx.run_bind_ok hrun, Tx.run_bind_ok (Tx.run_query _ _), Tx.run_okOr]
    change s'.userGuildStats.get u = _ at hget
    rw [hget]
    rfl

theorem synced_eq_self (h₁ : r.derivedLevel = (policy.levelPolicyForActiveDays r.activeDays).level)
    (h₂ : r.derivedRank = (policy.rankPolicyForScore r.contributionScore).rank) :
    synced policy r = r := by
  rw [synced, ← h₁, ← h₂]

@[simp] theorem synced_freshStats (policy : Policy) (u : Uuid) :
    synced policy (freshStats policy u) = freshStats policy u := rfl

theorem run_syncDerivedState_cases (policy : Policy) (h : statsOf s u = some r) :
    (∃ e, (syncDerivedState policy r).run s = (.error e, s)) ∨
      ∃ s', (syncDerivedState policy r).run s = (.ok (synced policy r), s') ∧
        statsOf s' u = some (synced policy r) ∧ StatsFrame u s s' := by
  have hu : r.userId = u := Table.key_of_get h
  dsimp only [syncDerivedState]
  split
  · rename_i hsame
    rw [synced_eq_self hsame.1 hsame.2]
    exact .inr ⟨s, rfl, h, .refl u s⟩
  · rw [hu]
    refine (run_updateStats_cases u _ _ s).imp id ?_
    rintro ⟨r₀, s', hr₀, -, hrun, hget, hframe⟩
    cases h.symm.trans hr₀
    exact ⟨s', hrun, hget, hframe⟩

/-! ## Rows that the constraints admit -/

theorem freshStats_valid (policy : Policy) (u : Uuid) : (freshStats policy u).Valid := by
  obtain ⟨hone, hten⟩ := policy.level_range 0
  exact ⟨le_rfl, le_rfl, Int.ofNat_le.mpr hone, Int.ofNat_le.mpr hten, policy.rank_valid 0, le_rfl⟩

theorem synced_valid (policy : Policy) (h : r.Valid) : (synced policy r).Valid := by
  obtain ⟨hdays, hscore, -, -, -, hstreak⟩ := h
  obtain ⟨hone, hten⟩ := policy.level_range r.activeDays
  exact ⟨hdays, hscore, Int.ofNat_le.mpr hone, Int.ofNat_le.mpr hten,
    policy.rank_valid r.contributionScore, hstreak⟩

theorem run_insertStats_ok (row : UserGuildStats) (hu : s.userExists row.userId) (hv : row.Valid) :
    ∃ s', (insertStats row).run s = (.ok (), s') := by
  rcases ht : s.userGuildStats.insert row with _ | t
  · exact ⟨s, Query.run_exec_ok.mpr (by simp only [ht])⟩
  · refine ⟨{ s with userGuildStats := t }, Query.run_exec_ok.mpr ?_⟩
    simp only [ht, hv, hu, not_true_eq_false, if_false]

theorem run_ensureUserGuildStats_ok (policy : Policy) (hu : s.userExists u) :
    ∃ s', (ensureUserGuildStats policy u).run s =
        (.ok ((statsOf s u).getD (freshStats policy u)), s') ∧
      statsOf s' u = some ((statsOf s u).getD (freshStats policy u)) ∧ StatsFrame u s s' := by
  obtain ⟨s₁, h₁⟩ := run_insertStats_ok (freshStats policy u) hu (freshStats_valid policy u)
  rcases run_ensureUserGuildStats_cases policy u s with ⟨e, he⟩ | ⟨r, s', hrun, rfl, hrest⟩
  · rcases run_insertStats_cases (freshStats policy u) s with ⟨e', he'⟩ | ⟨s₂, h₂, hget, -⟩
    · rw [h₁] at he'
      cases he'
    · unfold ensureUserGuildStats at he
      rw [Tx.run_bind_ok h₂, Tx.run_bind_ok (Tx.run_query _ _), Tx.run_okOr] at he
      change s₂.userGuildStats.get u = _ at hget
      rw [hget] at he
      cases he
  · exact ⟨s', hrun, hrest⟩

theorem run_syncDerivedState_ok (policy : Policy) (h : statsOf s u = some r) (hv : r.Valid) :
    ∃ s', (syncDerivedState policy r).run s = (.ok (synced policy r), s') ∧
      statsOf s' u = some (synced policy r) ∧ StatsFrame u s s' := by
  refine (run_syncDerivedState_cases policy h).resolve_left ?_
  rintro ⟨e, he⟩
  have hu : r.userId = u := Table.key_of_get h
  dsimp only [syncDerivedState] at he
  split at he
  · cases he
  · rw [hu, updateStats, Query.run_exec_ok.mpr (by
      simp only [show s.userGuildStats.get u = some r from h]
      exact if_pos (synced_valid policy hv))] at he
    cases he

def currentStats (policy : Policy) (u : Uuid) (o : Option UserGuildStats) : UserGuildStats :=
  synced policy (o.getD (freshStats policy u))

theorem currentStats_activeDays (p : Policy) (u : Uuid) (r : Option UserGuildStats) :
    (currentStats p u r).activeDays = (r.map UserGuildStats.activeDays).getD 0 := by
  cases r <;> rfl

theorem currentStats_score (p : Policy) (u : Uuid) (r : Option UserGuildStats) :
    (currentStats p u r).contributionScore = (r.map UserGuildStats.contributionScore).getD 0 := by
  cases r <;> rfl

theorem run_loadStats_cases (env : Env) (u : Uuid) (s : Db) :
    (∃ e s', (loadStats env u).run s = (.error e, s') ∧ StatsFrame u s s' ∧
        (statsOf s' u = statsOf s u ∨
          statsOf s' u = some ((statsOf s u).getD (freshStats (policyOf env s) u)))) ∨
      ∃ s', (loadStats env u).run s =
          (.ok (policyOf env s, currentStats (policyOf env s) u (statsOf s u)), s') ∧
        statsOf s' u = some (currentStats (policyOf env s) u (statsOf s u)) ∧
        StatsFrame u s s' := by
  unfold loadStats loadGuildPolicyConn
  rw [Tx.run_bind_ok (Tx.run_query _ _)]
  rcases run_ensureUserGuildStats_cases (policyOf env s) u s with
    ⟨e, he⟩ | ⟨r, s₁, hrun, rfl, hget, hframe⟩
  · exact .inl ⟨e, s, Tx.run_bind_error he _, .refl u s, .inl rfl⟩
  rw [Tx.run_bind_ok hrun]
  rcases run_syncDerivedState_cases (policyOf env s) hget with ⟨e, he⟩ | ⟨s₂, hrun₂, hget₂, hframe₂⟩
  · exact .inl ⟨e, s₁, Tx.run_bind_error he _, hframe, .inr hget⟩
  · rw [Tx.run_bind_ok hrun₂]
    exact .inr ⟨s₂, rfl, hget₂, hframe.trans hframe₂⟩

/-- The row after the activity update of a human operation. -/
def activity (policy : Policy) (r : UserGuildStats) (today now : Int) : UserGuildStats :=
  let assessment := assessHumanActivity r today now
  let r₁ := { r with
    lastHumanActivityAt := some now
    suspiciousActivityStreak := assessment.suspiciousActivityStreak
    automationReviewState := assessment.automationReviewState }
  if assessment.shouldAdvanceActiveDay then { r₁ with
    activeDays := i32 (r.activeDays + 1)
    derivedLevel := (policy.levelPolicyForActiveDays (i32 (r.activeDays + 1))).level
    derivedRank := (policy.rankPolicyForScore r.contributionScore).rank
    lastActiveDay := some today }
  else r₁

theorem lastActiveDay_ne_of_shouldAdvance {today now : Int}
    (h : (assessHumanActivity r today now).shouldAdvanceActiveDay = true) :
    r.lastActiveDay ≠ some today := by
  unfold assessHumanActivity at h
  split at h
  · split at h
    · rename_i hrec
      simp only [canRecoverFromFrozen, Bool.and_eq_true, decide_eq_true_eq] at hrec
      exact hrec.2
    · cases h
  · simp only [Bool.and_eq_true, decide_eq_true_eq] at h
    exact h.1

theorem run_auditReviewState_ok {audit : Uuid} {x : Unit}
    (h : (auditReviewState r r' audit).run s = (.ok x, s')) (u : Uuid) :
    s'.userGuildStats = s.userGuildStats ∧ StatsFrame u s s' := by
  unfold auditReviewState at h
  split at h
  · cases h
    exact ⟨rfl, .refl u s⟩
  · rcases run_insertAuditLog_cases _ s with ⟨e, he⟩ | ⟨t, ht⟩
    · rw [insertSystemAuditLog, he] at h
      cases h
    · rw [insertSystemAuditLog, ht] at h
      cases h
      exact ⟨rfl, .auditLogs u s t⟩

theorem run_updateHumanActivityState_ok {today now : Int} {audit : Uuid}
    {a : HumanActivityAssessment} (hu : r.userId = u)
    (h : (updateHumanActivityState r today now audit).run s = (.ok (r', a), s')) :
    a = assessHumanActivity r today now ∧ ∃ r₀, statsOf s u = some r₀ ∧
      r' = { r₀ with
        lastHumanActivityAt := some now
        suspiciousActivityStreak := a.suspiciousActivityStreak
        automationReviewState := a.automationReviewState } ∧
      r'.Valid ∧ statsOf s' u = some r' ∧ StatsFrame u s s' := by
  unfold updateHumanActivityState at h
  rw [hu] at h
  replace h := Tx.run_bind_eq_ok h
  obtain ⟨r₁, s₁, hup, h⟩ := h
  obtain ⟨x, s₂, hlog, hpure⟩ := Tx.run_bind_eq_ok h
  cases hpure
  obtain ⟨r₀, hr₀, hr', hv, hget, hframe⟩ := run_updateStats_ok hup
  obtain ⟨hrows, hframe'⟩ := run_auditReviewState_ok hlog u
  refine ⟨rfl, r₀, hr₀, hr', hv, ?_, hframe.trans hframe'⟩
  rw [statsOf, hrows]
  exact hget

theorem run_recordActivity_ok {today now : Int} {audit : Uuid} (h : statsOf s u = some r)
    (hrun : (recordActivity policy r today now audit).run s = (.ok r', s')) :
    r' = activity policy r today now ∧ r'.Valid ∧ statsOf s' u = some r' ∧ StatsFrame u s s' := by
  unfold recordActivity at hrun
  obtain ⟨⟨r₁, a⟩, s₁, hrun₁, hrun₂⟩ := Tx.run_bind_eq_ok hrun
  have hu : r.userId = u := Table.key_of_get h
  obtain ⟨rfl, r₀, hr₀, hr₁, hv₁, hget₁, hframe₁⟩ := run_updateHumanActivityState_ok hu hrun₁
  cases h.symm.trans hr₀
  unfold activity
  by_cases hadv : (assessHumanActivity r today now).shouldAdvanceActiveDay = true
  · have hne := lastActiveDay_ne_of_shouldAdvance hadv
    simp only [hadv, if_true, advanceActiveDayIfNeeded] at hrun₂ ⊢
    rw [if_neg (by rw [hr₁]; exact hne)] at hrun₂
    rw [show r₁.userId = u by rw [hr₁]; exact hu] at hrun₂
    rcases run_updateStats_cases u _ _ s₁ with ⟨e, he⟩ | ⟨r₀, s₂, hr₀, hv, hrun', hget, hframe⟩
    · rw [he] at hrun₂
      cases hrun₂
    · rw [hrun'] at hrun₂
      cases hget₁.symm.trans hr₀
      cases hrun₂
      refine ⟨?_, hv, hget, hframe₁.trans hframe⟩
      rw [hr₁]
  · simp only [hadv, Bool.false_eq_true, if_false] at hrun₂ ⊢
    cases hrun₂
    exact ⟨hr₁, hv₁, hget₁, hframe₁⟩

/-! ## Human operations -/

def guildRows (s : Db) :
    Table Uuid UserGuildStats UserGuildStats.userId × Table String AdminSetting AdminSetting.key :=
  (s.userGuildStats, s.adminSettings)

/-- `s'` has the rows and settings of `s`, but `row` for `u`. -/
structure RowUpdate (u : Uuid) (row : UserGuildStats) (s s' : Db) : Prop where
  self : statsOf s' u = some row
  other : ∀ v, v ≠ u → statsOf s' v = statsOf s v
  settings : s'.adminSettings = s.adminSettings

theorem run_humanOperation_parts {α : Type} {today now : Int} {audit : Uuid}
    {rest : Policy → UserGuildStats → Query α} {a : α}
    (h : (humanOperation env u today now audit rest).run s = (.ok a, s')) :
    let r := activity (policyOf env s) (currentStats (policyOf env s) u (statsOf s u)) today now
    r.Valid ∧ ∃ s₁, statsOf s₁ u = some r ∧ StatsFrame u s s₁ ∧
      (rest (policyOf env s) r).run s₁ = (.ok a, s') := by
  unfold humanOperation at h
  obtain ⟨⟨p, r⟩, s₁, hload, h⟩ := Tx.run_bind_eq_ok h
  obtain ⟨r₂, s₂, hact, h⟩ := Tx.run_bind_eq_ok h
  rcases run_loadStats_cases env u s with ⟨e, s₀, he, -⟩ | ⟨s₀, hrun, hget, hframe⟩
  · rw [he] at hload
    cases hload
  rw [hrun] at hload
  cases hload
  obtain ⟨rfl, hv, hget₂, hframe₂⟩ := run_recordActivity_ok hget hact
  exact ⟨hv, s₂, hget₂, hframe.trans hframe₂, h⟩

theorem run_humanOperation_ok {α : Type} {today now : Int} {audit : Uuid}
    {rest : Policy → UserGuildStats → Query α} (hrest : ∀ p r, (rest p r).Keeps guildRows)
    {a : α} (h : (humanOperation env u today now audit rest).run s = (.ok a, s')) :
    (activity (policyOf env s) (currentStats (policyOf env s) u (statsOf s u)) today now).Valid ∧
      RowUpdate u
        (activity (policyOf env s) (currentStats (policyOf env s) u (statsOf s u)) today now)
        s s' := by
  obtain ⟨hv, s₁, hget, hframe, hrun⟩ := run_humanOperation_parts h
  have hkeep := (hrest _ _).of_run hrun
  simp only [guildRows, Prod.mk.injEq] at hkeep
  refine ⟨hv, ?_, fun v hv => ?_, ?_⟩
  · rw [statsOf, hkeep.1]
    exact hget
  · rw [statsOf, hkeep.1]
    exact hframe.other hv
  · rw [hkeep.2, hframe.adminSettings]

theorem keeps_dailyActionCount {τ : Type} (π : Db → τ) (u : Uuid) (k : ActionKey) (d : Int) :
    (dailyActionCount u k d).Keeps π := Tx.keeps_query π _

/-! A statement changes nothing but its own table. -/

section
variable {τ : Type} {π : Db → τ}

theorem keeps_updateStats (hπ : ∀ s t, π { s with userGuildStats := t } = π s) (u : Uuid)
    (f : UserGuildStats → UserGuildStats) (hf : ∀ r, (f r).userId = r.userId) :
    (updateStats u f hf).Keeps π := by
  refine Query.keeps_exec (fun s a s' h => ?_)
  split at h
  · cases h
  · split at h <;> cases h
    exact hπ s _

theorem keeps_executeUpdateStats (hπ : ∀ s t, π { s with userGuildStats := t } = π s) (u : Uuid)
    (f : UserGuildStats → UserGuildStats) (hf : ∀ r, (f r).userId = r.userId) :
    (executeUpdateStats u f hf).Keeps π := by
  refine Query.keeps_exec (fun s a s' h => ?_)
  split at h
  · cases h
    rfl
  · split at h <;> cases h
    exact hπ s _

theorem keeps_insertStats (hπ : ∀ s t, π { s with userGuildStats := t } = π s)
    (row : UserGuildStats) : (insertStats row).Keeps π := by
  refine Query.keeps_exec (fun s a s' h => ?_)
  split at h
  · cases h
    rfl
  split at h
  · cases h
  split at h <;> cases h
  exact hπ s _

theorem keeps_insertAuditLog (hπ : ∀ s t, π { s with adminAuditLogs := t } = π s)
    (row : AdminAuditLog) : (insertAuditLog row).Keeps π := by
  refine Query.keeps_exec (fun s a s' h => ?_)
  split at h
  · cases h
  · split at h <;> cases h
    exact hπ s _

theorem keeps_incrementDailyCounter (hπ : ∀ s t, π { s with dailyActionCounters := t } = π s)
    (u : Uuid) (k : ActionKey) (d : Int) : (incrementDailyCounter u k d).Keeps π := by
  refine Query.keeps_exec (fun s a s' h => ?_)
  split at h
  · split at h <;> cases h
    exact hπ s _
  · dsimp only at h
    split at h <;> cases h
    exact hπ s _

theorem keeps_insertMessageConn (hπ : ∀ s t, π { s with messages := t } = π s) (m : NewMessage) :
    (insertMessageConn m).Keeps π := by
  refine Query.keeps_exec (fun s a s' h => ?_)
  split at h
  · cases h
  · split at h <;> cases h
    exact hπ s _

end

theorem keeps_auditReviewState {τ : Type} {π : Db → τ}
    (haudit : ∀ s t, π { s with adminAuditLogs := t } = π s) (before after : UserGuildStats)
    (audit : Uuid) : (auditReviewState before after audit).Keeps π := by
  unfold auditReviewState
  split
  · trivial
  · exact keeps_insertAuditLog haudit _

theorem keeps_recordActivity {τ : Type} {π : Db → τ}
    (hstats : ∀ s t, π { s with userGuildStats := t } = π s)
    (haudit : ∀ s t, π { s with adminAuditLogs := t } = π s) (p : Policy) (r : UserGuildStats)
    (today now : Int) (audit : Uuid) : (recordActivity p r today now audit).Keeps π := by
  refine Tx.keeps_bind ?_ (fun x => ?_)
  · refine Tx.keeps_bind (keeps_updateStats hstats _ _ _) (fun r' => ?_)
    exact Tx.keeps_bind (keeps_auditReviewState haudit _ _ _) (fun _ => Tx.keeps_pure _ _)
  · dsimp only
    split
    · unfold advanceActiveDayIfNeeded
      split
      · trivial
      · exact keeps_updateStats hstats _ _ _
    · trivial

theorem keeps_ensureUserGuildStats {τ : Type} {π : Db → τ}
    (hstats : ∀ s t, π { s with userGuildStats := t } = π s) (p : Policy) (u : Uuid) :
    (ensureUserGuildStats p u).Keeps π := by
  refine Tx.keeps_bind (keeps_insertStats hstats _) (fun _ => ?_)
  exact Tx.keeps_bind (Tx.keeps_query _ _) (fun found => Tx.keeps_okOr _ _ found)

theorem keeps_syncDerivedState {τ : Type} {π : Db → τ}
    (hstats : ∀ s t, π { s with userGuildStats := t } = π s) (p : Policy) (r : UserGuildStats) :
    (syncDerivedState p r).Keeps π := by
  dsimp only [syncDerivedState]
  split
  · trivial
  · exact keeps_updateStats hstats _ _ _

theorem keeps_loadStats {τ : Type} {π : Db → τ}
    (hstats : ∀ s t, π { s with userGuildStats := t } = π s) (env : Env) (u : Uuid) :
    (loadStats env u).Keeps π := by
  refine Tx.keeps_bind (Tx.keeps_query _ _) (fun p => ?_)
  refine Tx.keeps_bind (keeps_ensureUserGuildStats hstats p u) (fun r => ?_)
  exact Tx.keeps_bind (keeps_syncDerivedState hstats p r) (fun _ => Tx.keeps_pure _ _)

theorem keeps_humanOperation {τ α : Type} {π : Db → τ}
    (hstats : ∀ s t, π { s with userGuildStats := t } = π s)
    (haudit : ∀ s t, π { s with adminAuditLogs := t } = π s) (env : Env) (u : Uuid)
    (today now : Int) (audit : Uuid) {rest : Policy → UserGuildStats → Query α}
    (hrest : ∀ p r, (rest p r).Keeps π) : (humanOperation env u today now audit rest).Keeps π := by
  apply Tx.keeps_bind (keeps_loadStats hstats _ _)
  intro loaded
  apply Tx.keeps_bind (keeps_recordActivity hstats haudit _ _ _ _ _)
  exact fun r => hrest loaded.1 r

theorem keeps_recordHumanActivity {τ : Type} {π : Db → τ}
    (hstats : ∀ s t, π { s with userGuildStats := t } = π s)
    (haudit : ∀ s t, π { s with adminAuditLogs := t } = π s) (env : Env) (u : Uuid)
    (today now : Int) (audit : Uuid) : (recordHumanActivity env u today now audit).Keeps π :=
  keeps_humanOperation hstats haudit env u today now audit (fun _ _ => Tx.keeps_pure _ _)

/-! What comes after the activity update touches no row of the guild. -/

section
variable {τ : Type} {π : Db → τ} (hcounters : ∀ s t, π { s with dailyActionCounters := t } = π s)
include hcounters

theorem keeps_sendMessageChecked (hmessages : ∀ s t, π { s with messages := t } = π s)
    (env : Env) (p : Policy) (r : UserGuildStats) (m : NewMessage) (now : Int) :
    (sendMessageChecked env p r m now).Keeps π := by
  refine Tx.keeps_bind (keeps_dailyActionCount _ _ _ _) (fun _ => ?_)
  refine Tx.keeps_bind (keeps_dailyActionCount _ _ _ _) (fun _ => ?_)
  refine Tx.keeps_bind (keeps_dailyActionCount _ _ _ _) (fun _ => ?_)
  dsimp only
  split
  · trivial
  · refine Tx.keeps_bind (keeps_insertMessageConn hmessages m) (fun _ => ?_)
    exact Tx.keeps_bind (keeps_incrementDailyCounter hcounters _ _ _) (fun _ => trivial)

theorem keeps_attachmentActionChecked {T : Type} {operation : Query T} (h : operation.Keeps π)
    (env : Env) (p : Policy) (r : UserGuildStats) (u : Uuid) (mimeType : String) (now : Int) :
    (attachmentActionChecked env p r u mimeType operation now).Keeps π := by
  refine Tx.keeps_bind (keeps_dailyActionCount _ _ _ _) (fun _ => ?_)
  refine Tx.keeps_bind (keeps_dailyActionCount _ _ _ _) (fun _ => ?_)
  refine Tx.keeps_bind (keeps_dailyActionCount _ _ _ _) (fun _ => ?_)
  dsimp only
  split
  · trivial
  · split
    · trivial
    · refine Tx.keeps_bind h (fun _ => ?_)
      exact Tx.keeps_bind (keeps_incrementDailyCounter hcounters _ _ _) (fun _ => trivial)

theorem keeps_resolveContactChecked (env : Env) (p : Policy) (r : UserGuildStats) (u : Uuid)
    (now : Int) : (resolveContactChecked env p r u now).Keeps π := by
  refine Tx.keeps_bind (Tx.keeps_query _ _) (fun _ => ?_)
  refine Tx.keeps_bind (Tx.keeps_okOr _ _ _) (fun _ => ?_)
  split
  · trivial
  · refine Tx.keeps_bind (keeps_dailyActionCount _ _ _ _) (fun _ => ?_)
    refine Tx.keeps_bind (keeps_dailyActionCount _ _ _ _) (fun _ => ?_)
    refine Tx.keeps_bind (keeps_dailyActionCount _ _ _ _) (fun _ => ?_)
    dsimp only
    split
    · trivial
    · exact Tx.keeps_bind (keeps_incrementDailyCounter hcounters _ _ _) (fun _ => trivial)

end

/-! ## Messages -/

theorem insertMessageConn_ok {m : NewMessage} {saved : Message}
    (h : (insertMessageConn m).run s = (.ok saved, s')) :
    saved = m.row ∧ ∃ t, s.messages.insert m.row = some t ∧ s' = { s with messages := t } := by
  have hadd := Query.run_exec_ok.mp h
  rcases ht : s.messages.insert m.row with _ | t
  · simp [ht] at hadd
  · simp only [ht] at hadd
    split at hadd <;> cases hadd
    exact ⟨rfl, t, rfl, rfl⟩

theorem sendMessageWithGuild_sent {m : NewMessage} {now : Int} {audit : Uuid} {saved : Message}
    (h : (sendMessageWithGuild env m now audit).run s = (.ok (.sent saved), s')) :
    saved = m.row := by
  unfold sendMessageWithGuild humanOperation at h
  obtain ⟨⟨p, r⟩, s₁, -, h⟩ := Tx.run_bind_eq_ok h
  obtain ⟨r₂, s₂, -, h⟩ := Tx.run_bind_eq_ok h
  unfold sendMessageChecked at h
  simp only [dailyActionCount, Tx.run_bind_ok (Tx.run_query _ _)] at h
  split at h
  · cases h
  obtain ⟨saved', s₃, hsaved, h⟩ := Tx.run_bind_eq_ok h
  obtain ⟨x, s₄, -, h⟩ := Tx.run_bind_eq_ok h
  cases h
  exact (insertMessageConn_ok hsaved).1

/-- The writes of `send_message_with_guild` satisfy what those of its statements satisfy. -/
theorem writes_sendMessageWithGuild (env : Env) {τ : Type} {π : Db → τ} {W : (Db → Db) → Prop}
    (hstats : ∀ s t, π { s with userGuildStats := t } = π s)
    (haudit : ∀ s t, π { s with adminAuditLogs := t } = π s)
    (hcounters : ∀ s t, π { s with dailyActionCounters := t } = π s)
    (hW : ∀ w : Db → Db, (∀ s, π (w s) = π s) → W w) {m : NewMessage}
    (hm : (insertMessageConn m).Writes W) (now : Int) (audit : Uuid) :
    (sendMessageWithGuild env m now audit).Writes W := by
  have hkeeps : ∀ {α : Type} {q : Query α}, q.Keeps π → q.Writes W := fun h => Tx.writes_mono hW h
  have hcount : ∀ key day, (dailyActionCount m.senderId key day).Writes W :=
    fun _ _ => hkeeps (keeps_dailyActionCount _ _ _ _)
  refine Tx.writes_bind (hkeeps (keeps_loadStats hstats _ _)) (fun x => ?_)
  refine Tx.writes_bind (hkeeps (keeps_recordActivity hstats haudit _ _ _ _ _)) (fun r => ?_)
  unfold sendMessageChecked
  refine Tx.writes_bind (hcount _ _) (fun _ => Tx.writes_bind (hcount _ _) (fun _ => ?_))
  refine Tx.writes_bind (hcount _ _) (fun _ => ?_)
  dsimp only
  split
  · trivial
  · refine Tx.writes_bind hm (fun _ => ?_)
    exact Tx.writes_bind (hkeeps (keeps_incrementDailyCounter hcounters _ _ _)) (fun _ => trivial)

end SyncServer.Guild
