import SyncServer.Guild.Quota

/-! # What lets an operation through

A human operation fails if its activity update is not admitted by the constraints. If it is, the
rest of the operation finds the new row of the user. So for a message and for a contact there is
an exact condition on the database for the action to be counted.
-/

namespace SyncServer.Guild
open Transaction

/-! ## The activity update -/

def activeStats (env : Env) (user : Uuid) (today now : Int) (s : Db) : UserGuildStats :=
  activity (policyOf env s) (currentStats (policyOf env s) user (statsOf s user)) today now

/-- The constraints admit the activity update and its audit entry. -/
structure ActivityPasses (env : Env) (user : Uuid) (today now : Int) (audit : Uuid) (s : Db) :
    Prop where
  row : (activeStats env user today now s).Valid
  audit : (activeStats env user today now s).automationReviewState =
      (currentStats (policyOf env s) user (statsOf s user)).automationReviewState ∨
    s.adminAuditLogs.get audit = none

section
variable {env : Env} {policy : Policy} {u : Uuid} {s s' : Db} {r : UserGuildStats}
  {today now : Int} {audit : Uuid}

theorem run_updateStats_valid (f : UserGuildStats → UserGuildStats)
    (hf : ∀ r, (f r).userId = r.userId) (h : statsOf s u = some r) (hv : (f r).Valid) :
    ∃ s', (updateStats u f hf).run s = (.ok (f r), s') ∧ statsOf s' u = some (f r) ∧
      StatsFrame u s s' ∧ s'.adminAuditLogs = s.adminAuditLogs := by
  have hrun : (updateStats u f hf).run s = (.ok (f r), { s with
      userGuildStats := s.userGuildStats.update u f hf }) := by
    refine Query.run_exec_ok.mpr ?_
    simp only [show s.userGuildStats.get u = some r from h]
    exact if_pos hv
  obtain ⟨r₀, hr₀, -, -, hget, hframe⟩ := run_updateStats_ok hrun
  exact ⟨_, hrun, hget, hframe, rfl⟩

def assessed (r : UserGuildStats) (today now : Int) : UserGuildStats :=
  { r with
    lastHumanActivityAt := some now
    suspiciousActivityStreak := (assessHumanActivity r today now).suspiciousActivityStreak
    automationReviewState := (assessHumanActivity r today now).automationReviewState }

theorem activity_eq (policy : Policy) (r : UserGuildStats) (today now : Int) :
    activity policy r today now =
      if (assessHumanActivity r today now).shouldAdvanceActiveDay then
        { assessed r today now with
          activeDays := i32 (r.activeDays + 1)
          derivedLevel := (policy.levelPolicyForActiveDays (i32 (r.activeDays + 1))).level
          derivedRank := (policy.rankPolicyForScore r.contributionScore).rank
          lastActiveDay := some today }
      else assessed r today now := rfl

theorem activity_state (policy : Policy) (r : UserGuildStats) (today now : Int) :
    (activity policy r today now).automationReviewState =
      (assessed r today now).automationReviewState := by
  rw [activity_eq]
  split <;> rfl

theorem assessed_valid (hr : r.Valid) (h : (activity policy r today now).Valid) :
    (assessed r today now).Valid := by
  rw [activity_eq] at h
  split at h
  · obtain ⟨-, -, -, -, -, hstreak⟩ := h
    obtain ⟨hdays, hscore, hone, hten, hrank, -⟩ := hr
    exact ⟨hdays, hscore, hone, hten, hrank, hstreak⟩
  · exact h

theorem run_insertAuditLog_ok {row : AdminAuditLog} {x : Unit}
    (h : (insertAuditLog row).run s = (.ok x, s')) : s.adminAuditLogs.get row.id = none := by
  have h := Query.run_exec_ok.mp h
  split at h
  · cases h
  · rename_i t ht
    exact Table.get_eq_none_of_insert ht

theorem run_insertSystemAuditLog {id : Uuid} (h : s.adminAuditLogs.get id = none) (action : String)
    (target : Option String) (details : Json) :
    ∃ a, (insertSystemAuditLog id action target details).run s =
      (.ok (), { s with adminAuditLogs := a }) := by
  rcases ht : s.adminAuditLogs.insert ⟨id, none, action, target, details⟩ with _ | t
  · have htaken := Table.insert_eq_none.mp ht
    rw [h] at htaken
    cases htaken
  · refine ⟨t, Query.run_exec_ok.mpr ?_⟩
    simp only [ht]
    rfl

theorem run_auditReviewState {after : UserGuildStats}
    (h : after.automationReviewState = r.automationReviewState ∨
      s.adminAuditLogs.get audit = none) :
    ∃ a, (auditReviewState r after audit).run s = (.ok (), { s with adminAuditLogs := a }) := by
  unfold auditReviewState
  split
  · exact ⟨_, rfl⟩
  · rename_i hne
    exact run_insertSystemAuditLog (h.resolve_left (Ne.symm hne)) _ _ _

theorem run_updateHumanActivityState_passes (hr : statsOf s u = some r)
    (hv : (assessed r today now).Valid)
    (haudit : (assessed r today now).automationReviewState = r.automationReviewState ∨
      s.adminAuditLogs.get audit = none) :
    ∃ s', (updateHumanActivityState r today now audit).run s =
        (.ok (assessed r today now, assessHumanActivity r today now), s') ∧
      statsOf s' u = some (assessed r today now) ∧ StatsFrame u s s' := by
  have hu : r.userId = u := Table.key_of_get hr
  unfold updateHumanActivityState
  rw [hu]
  obtain ⟨s₁, hrun₁, hget₁, hframe₁, hlogs₁⟩ := run_updateStats_valid
    (fun r' => { r' with
      lastHumanActivityAt := some now
      suspiciousActivityStreak := (assessHumanActivity r today now).suspiciousActivityStreak
      automationReviewState := (assessHumanActivity r today now).automationReviewState })
    (fun _ => rfl) hr hv
  rw [← hlogs₁] at haudit
  obtain ⟨a, hrun₂⟩ := run_auditReviewState haudit
  refine ⟨{ s₁ with adminAuditLogs := a }, ?_, hget₁, hframe₁.trans (.auditLogs u s₁ a)⟩
  dsimp only
  rw [Tx.run_bind_ok hrun₁]
  exact Tx.run_bind_ok hrun₂ _

theorem run_recordActivity_passes (hr : statsOf s u = some r) (hv : r.Valid)
    (hrow : (activity policy r today now).Valid)
    (haudit : (activity policy r today now).automationReviewState = r.automationReviewState ∨
      s.adminAuditLogs.get audit = none) :
    ∃ s', (recordActivity policy r today now audit).run s =
        (.ok (activity policy r today now), s') ∧
      statsOf s' u = some (activity policy r today now) ∧ StatsFrame u s s' := by
  obtain rfl : r.userId = u := Table.key_of_get hr
  rw [activity_state] at haudit
  obtain ⟨s₁, hrun₁, hget₁, hframe₁⟩ :=
    run_updateHumanActivityState_passes hr (assessed_valid hv hrow) haudit
  unfold recordActivity
  rw [Tx.run_bind_ok hrun₁]
  rw [activity_eq] at hrow ⊢
  dsimp only
  by_cases hadvance : (assessHumanActivity r today now).shouldAdvanceActiveDay = true
  · have hne : r.lastActiveDay ≠ some today := lastActiveDay_ne_of_shouldAdvance hadvance
    rw [if_pos hadvance] at hrow ⊢
    rw [if_pos hadvance, advanceActiveDayIfNeeded,
      if_neg (show (assessed r today now).lastActiveDay ≠ some today from hne)]
    obtain ⟨s₂, hrun₂, hget₂, hframe₂, -⟩ := run_updateStats_valid
      (fun r' => { r' with
        activeDays := i32 (r.activeDays + 1)
        derivedLevel := (policy.levelPolicyForActiveDays (i32 (r.activeDays + 1))).level
        derivedRank := (policy.rankPolicyForScore r.contributionScore).rank
        lastActiveDay := some today })
      (fun _ => rfl) hget₁ hrow
    exact ⟨s₂, hrun₂, hget₂, hframe₁.trans hframe₂⟩
  · rw [if_neg hadvance] at hrow ⊢
    rw [if_neg hadvance]
    exact ⟨s₁, rfl, hget₁, hframe₁⟩

theorem run_loadStats_ok (env : Env) (hu : s.userExists u) (hv : ∀ r ∈ statsOf s u, r.Valid) :
    ∃ s', (loadStats env u).run s =
        (.ok (policyOf env s, currentStats (policyOf env s) u (statsOf s u)), s') ∧
      statsOf s' u = some (currentStats (policyOf env s) u (statsOf s u)) ∧ StatsFrame u s s' ∧
      s'.adminAuditLogs = s.adminAuditLogs := by
  have hvalid : ((statsOf s u).getD (freshStats (policyOf env s) u)).Valid := by
    rcases h : statsOf s u with _ | r
    · exact freshStats_valid _ u
    · exact hv r h
  obtain ⟨s₁, hrun₁, hget₁, hframe₁⟩ := run_ensureUserGuildStats_ok (policyOf env s) hu
  obtain ⟨s₂, hrun₂, hget₂, hframe₂⟩ := run_syncDerivedState_ok (policyOf env s) hget₁ hvalid
  have hrun : (loadStats env u).run s =
      (.ok (policyOf env s, currentStats (policyOf env s) u (statsOf s u)), s₂) := by
    unfold loadStats loadGuildPolicyConn
    rw [Tx.run_bind_ok (Tx.run_query _ _), Tx.run_bind_ok hrun₁, Tx.run_bind_ok hrun₂]
    rfl
  exact ⟨s₂, hrun, hget₂, hframe₁.trans hframe₂,
    (keeps_loadStats (fun _ _ => rfl) env u).of_run hrun⟩

theorem run_humanOperation_passes (hu : s.userExists u) (hv : ∀ r ∈ statsOf s u, r.Valid)
    (h : ActivityPasses env u today now audit s) :
    ∃ s₁, statsOf s₁ u = some (activeStats env u today now s) ∧ StatsFrame u s s₁ ∧
      ∀ {α : Type} (rest : Policy → UserGuildStats → Query α),
        (humanOperation env u today now audit rest).run s =
          (rest (policyOf env s) (activeStats env u today now s)).run s₁ := by
  obtain ⟨s₁, hrun₁, hget₁, hframe₁, hlogs₁⟩ := run_loadStats_ok env hu hv
  have hvalid : (currentStats (policyOf env s) u (statsOf s u)).Valid := by
    rcases hr : statsOf s u with _ | r
    · exact synced_valid _ (freshStats_valid _ u)
    · exact synced_valid _ (hv r hr)
  have haudit := h.audit
  rw [← hlogs₁] at haudit
  obtain ⟨s₂, hrun₂, hget₂, hframe₂⟩ := run_recordActivity_passes hget₁ hvalid h.row haudit
  refine ⟨s₂, hget₂, hframe₁.trans hframe₂, fun rest => ?_⟩
  unfold humanOperation
  rw [Tx.run_bind_ok hrun₁, Tx.run_bind_ok hrun₂]
  rfl

/-- An operation that succeeds has an activity that is admitted. -/
theorem activityPasses_of_ok {α : Type} {rest : Policy → UserGuildStats → Query α} {a : α}
    (h : (humanOperation env u today now audit rest).run s = (.ok a, s')) :
    ActivityPasses env u today now audit s := by
  refine ⟨(run_humanOperation_parts h).1, ?_⟩
  obtain ⟨⟨p, r⟩, s₁, hload, h⟩ := Tx.run_bind_eq_ok h
  obtain ⟨r₂, s₂, hact, -⟩ := Tx.run_bind_eq_ok h
  have hlogs := (keeps_loadStats (π := Db.adminAuditLogs) (fun _ _ => rfl) env u).of_run hload
  rcases run_loadStats_cases env u s with ⟨e, s₀, he, -⟩ | ⟨s₀, hrun, hget, -⟩
  · rw [he] at hload
    cases hload
  rw [hrun] at hload
  cases hload
  obtain ⟨⟨r₁, a⟩, s₃, hassess, -⟩ := Tx.run_bind_eq_ok hact
  obtain ⟨r₁, s₄, hupdate, hassess⟩ := Tx.run_bind_eq_ok hassess
  obtain ⟨⟨⟩, s₅, haudit, hassess⟩ := Tx.run_bind_eq_ok hassess
  cases hassess
  obtain ⟨r₀, hr₀, rfl, -⟩ := run_updateStats_ok hupdate
  rw [show (currentStats (policyOf env s) u (statsOf s u)).userId = u from Table.key_of_get hget] at hr₀
  cases hget.symm.trans hr₀
  rw [activeStats, activity_state, ← hlogs]
  unfold auditReviewState at haudit
  split at haudit
  · rename_i hsame
    exact .inl hsame.symm
  · have hlogs' := (keeps_updateStats (π := Db.adminAuditLogs) (fun _ _ => rfl) _ _ _).of_run hupdate
    rw [← hlogs']
    exact .inr (run_insertAuditLog_ok haudit)

end

/-! ## Counters -/

section
variable {u : Uuid} {key : ActionKey} {day : Int} {s s' : Db}

theorem run_incrementDailyCounter (hu : s.userExists u) (h : bucket s u key day < i32Max) :
    ∃ t, (incrementDailyCounter u key day).run s =
      (.ok (), { s with dailyActionCounters := t }) := by
  rcases ht : s.dailyActionCounters.insert ⟨u, key, day, 1⟩ with _ | t
  · refine ⟨s.dailyActionCounters.update (u, key, day) incremented incremented_key,
      Query.run_exec_ok.mpr ?_⟩
    obtain ⟨r, hr⟩ := Option.isSome_iff_exists.mp (Table.insert_eq_none.mp ht)
    change s.dailyActionCounters.get (u, key, day) = some r at hr
    simp only [bucket, hr, Option.map_some, Option.getD_some] at h
    simp only [ht]
    refine if_pos ?_
    rw [Table.get_update_self, hr]
    simpa [incremented] using Int.add_one_le_of_lt h
  · refine ⟨t, Query.run_exec_ok.mpr ?_⟩
    simp only [ht]
    exact if_pos hu

theorem bucket_lt_of_increment {x : Unit}
    (h : (incrementDailyCounter u key day).run s = (.ok x, s')) : bucket s u key day < i32Max := by
  have h := Query.run_exec_ok.mp h
  rcases ht : s.dailyActionCounters.insert ⟨u, key, day, 1⟩ with _ | t
  · simp only [ht] at h
    split at h
    · rename_i hall
      obtain ⟨r, hr⟩ := Option.isSome_iff_exists.mp (Table.insert_eq_none.mp ht)
      change s.dailyActionCounters.get (u, key, day) = some r at hr
      rw [Table.get_update_self, hr] at hall
      simp only [Option.map_some, Option.all_some, incremented, decide_eq_true_eq] at hall
      rw [bucket, hr]
      exact Int.lt_of_add_one_le hall
    · cases h
  · rw [bucket, show s.dailyActionCounters.get (u, key, day) = none from
      Table.get_eq_none_of_insert ht]
    decide

end

/-! ## Contacts -/

/-- A contact is counted for a user. -/
structure FriendAddPasses (env : Env) (user : Uuid) (now : Int) (audit : Uuid) (s : Db) : Prop where
  account : ∃ account, s.users.get user = some account ∧
    account.yellowCardExpiresAt.any (fun t => decide (now < t)) = false
  activity : ActivityPasses env user (dateNaive now) now audit s
  below : limitReached (limitEnforced (policyOf env s) .friendAdd)
    (dailyLimit (policyOf env s) (activeStats env user (dateNaive now) now s) .friendAdd)
    (bucket s user .friendAdd (dateNaive now)) = false
  countable : bucket s user .friendAdd (dateNaive now) < i32Max

section
variable {env : Env} {u : Uuid} {s s' : Db} {now : Int} {audit : Uuid}

theorem StatsFrame.users (h : StatsFrame u s s') : s'.users = s.users := by
  obtain ⟨t, a, rfl, -⟩ := h
  rfl

theorem run_resolveContactWithGuild_passes (hv : ∀ r ∈ statsOf s u, r.Valid)
    (h : FriendAddPasses env u now audit s) :
    ∃ s₁ t, (resolveContactWithGuild env u now audit).run s =
        (.ok .allowed, { s₁ with dailyActionCounters := t }) ∧ StatsFrame u s s₁ ∧
      (incrementDailyCounter u .friendAdd (dateNaive now)).run s₁ =
        (.ok (), { s₁ with dailyActionCounters := t }) := by
  obtain ⟨account, haccount, hcard⟩ := h.account
  have hu : s.userExists u := by
    rw [Db.userExists, haccount]
    rfl
  obtain ⟨s₁, hget, hframe, hrest⟩ := run_humanOperation_passes hu hv h.activity
  have hcount := h.countable
  rw [← hframe.bucket] at hcount
  obtain ⟨t, hincrement⟩ := run_incrementDailyCounter (by
    rw [Db.userExists, hframe.users]
    exact hu) hcount
  refine ⟨s₁, t, ?_, hframe, hincrement⟩
  have hbelow := h.below
  rw [← hframe.bucket] at hbelow
  rw [← hframe.users] at haccount
  rw [resolveContactWithGuild, hrest, run_resolveContactChecked haccount hcard, gate,
    if_neg (Bool.eq_false_iff.mp hbelow)]
  exact Tx.run_bind_ok hincrement _

theorem friendAddPasses_of_allowed
    (h : (resolveContactWithGuild env u now audit).run s = (.ok .allowed, s')) :
    FriendAddPasses env u now audit s := by
  have hactivity := activityPasses_of_ok h
  obtain ⟨-, s₁, -, hframe, h⟩ := run_humanOperation_parts h
  rcases run_resolveContactChecked_ok h with ⟨hres, -⟩ | ⟨hcard, hbelow, -, hincrement⟩
  · cases hres
  rw [hframe.users] at hcard
  refine ⟨hcard, hactivity, ?_, ?_⟩
  · rw [← hframe.bucket]
    exact hbelow
  · rw [← hframe.bucket]
    exact bucket_lt_of_increment hincrement

end

/-! ## Messages -/

/-- A message is stored and counted for its sender. -/
structure MessagePasses (env : Env) (m : NewMessage) (now : Int) (audit : Uuid) (s : Db) :
    Prop where
  sender : s.userExists m.senderId
  recipient : s.userExists m.recipientId
  free : s.messages.get m.row.id = none
  activity : ActivityPasses env m.senderId (dateNaive now) now audit s
  below : limitReached (limitEnforced (policyOf env s) .outboundMessage)
    (dailyLimit (policyOf env s) (activeStats env m.senderId (dateNaive now) now s)
      .outboundMessage) (bucket s m.senderId .outboundMessage (dateNaive now)) = false
  countable : bucket s m.senderId .outboundMessage (dateNaive now) < i32Max

section
variable {env : Env} {m : NewMessage} {s s' : Db} {now : Int} {audit : Uuid} {saved : Message}

theorem StatsFrame.messages {u : Uuid} (h : StatsFrame u s s') : s'.messages = s.messages := by
  obtain ⟨t, a, rfl, -⟩ := h
  rfl

theorem run_insertMessageConn (hfree : s.messages.get m.row.id = none)
    (hs : s.userExists m.senderId) (hr : s.userExists m.recipientId) :
    ∃ t, s.messages.insert m.row = some t ∧
      (insertMessageConn m).run s = (.ok m.row, { s with messages := t }) := by
  rcases ht : s.messages.insert m.row with _ | t
  · have htaken := Table.insert_eq_none.mp ht
    rw [hfree] at htaken
    cases htaken
  · refine ⟨t, rfl, Query.run_exec_ok.mpr ?_⟩
    simp only [ht]
    exact if_pos ⟨hs, hr⟩

theorem insertMessageConn_requires (h : (insertMessageConn m).run s = (.ok saved, s')) :
    s.messages.get m.row.id = none ∧ s.userExists m.senderId ∧ s.userExists m.recipientId := by
  have hadd := Query.run_exec_ok.mp h
  rcases ht : s.messages.insert m.row with _ | t
  · simp only [ht] at hadd
    cases hadd
  · simp only [ht] at hadd
    split at hadd
    · rename_i hboth
      exact ⟨Table.get_eq_none_of_insert ht, hboth⟩
    · cases hadd

/-- A message that passes is stored, and the counter of the sender is increased. -/
theorem run_sendMessageWithGuild_passes (hv : ∀ r ∈ statsOf s m.senderId, r.Valid)
    (h : MessagePasses env m now audit s) :
    ∃ s₁ messages t, (sendMessageWithGuild env m now audit).run s =
        (.ok (.sent m.row), { s₁ with messages := messages, dailyActionCounters := t }) ∧
      StatsFrame m.senderId s s₁ ∧ s.messages.insert m.row = some messages ∧
      (incrementDailyCounter m.senderId .outboundMessage (dateNaive now)).run
          { s₁ with messages := messages } =
        (.ok (), { s₁ with messages := messages, dailyActionCounters := t }) := by
  obtain ⟨s₁, -, hframe, hrest⟩ := run_humanOperation_passes h.sender hv h.activity
  have hfree := h.free
  have hsender := h.sender
  have hrecipient := h.recipient
  rw [← hframe.messages] at hfree
  rw [Db.userExists, ← hframe.users] at hsender hrecipient
  obtain ⟨messages, hmessages, hinsert⟩ := run_insertMessageConn hfree hsender hrecipient
  have hcount := h.countable
  rw [← hframe.bucket] at hcount
  obtain ⟨t, hincrement⟩ : ∃ t, (incrementDailyCounter m.senderId .outboundMessage
      (dateNaive now)).run { s₁ with messages := messages } =
        (.ok (), { s₁ with messages := messages, dailyActionCounters := t }) :=
    run_incrementDailyCounter hsender hcount
  refine ⟨s₁, messages, t, ?_, hframe, ?_, hincrement⟩
  · have hbelow := h.below
    rw [← hframe.bucket] at hbelow
    rw [sendMessageWithGuild, hrest, run_sendMessageChecked, gate,
      if_neg (Bool.eq_false_iff.mp hbelow), thenCounted]
    refine (Tx.run_bind_ok (Tx.run_bind_ok hinsert _) _).trans ?_
    exact Tx.run_bind_ok hincrement _
  · rw [← hframe.messages]
    exact hmessages

theorem messagePasses_of_sent
    (h : (sendMessageWithGuild env m now audit).run s = (.ok (.sent saved), s')) :
    MessagePasses env m now audit s := by
  have hactivity := activityPasses_of_ok h
  obtain ⟨-, s₁, -, hframe, h⟩ := run_humanOperation_parts h
  rcases run_sendMessageChecked_ok h with ⟨hres, -⟩ | ⟨hbelow, row, s₂, -, hinsert, hincrement⟩
  · cases hres
  have hkeeps := (keeps_insertMessageConn (π := Db.dailyActionCounters) (fun _ _ => rfl) m).of_run
    hinsert
  have hlt := bucket_lt_of_increment hincrement
  rw [bucket_of_counters hkeeps, hframe.bucket] at hlt
  obtain ⟨hfree, hsender, hrecipient⟩ := insertMessageConn_requires hinsert
  rw [hframe.messages] at hfree
  rw [Db.userExists, hframe.users] at hsender hrecipient
  refine ⟨hsender, hrecipient, hfree, hactivity, ?_, hlt⟩
  rw [← hframe.bucket]
  exact hbelow

end

end SyncServer.Guild
