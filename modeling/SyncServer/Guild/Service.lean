import Mathlib.Algebra.Ring.Int.Defs
import SyncServer.Guild.Snapshot

/-! # The guild service

The operations of `guild_service` as database programs. Clock readings and the
identifiers of new rows are inputs of an operation; `startedAt` is the value of
`NOW()` in its transaction.
-/

namespace SyncServer.Guild
open Transaction

/-- The library functions behind the service. -/
structure Env where
  unicode : Unicode
  codec : PolicyCodec

/-! ## Statements -/

/-- `UPDATE user_guild_stats .. WHERE user_id = user RETURNING ..`. -/
def updateStats (user : Uuid) (f : UserGuildStats → UserGuildStats)
    (hf : ∀ r, (f r).userId = r.userId := by intro r; rfl) : Query UserGuildStats :=
  Query.exec
    (fun s => if (s.userGuildStats.get user).isSome then [.userGuildStats user] else [])
    (fun s =>
      match s.userGuildStats.get user with
      | none => .error .notFound
      | some r =>
        if (f r).Valid then
          .ok (f r, { s with userGuildStats := s.userGuildStats.update user f hf })
        else .error .checkViolation)

/-- The same without `RETURNING`: an update of no row is not an error. -/
def executeUpdateStats (user : Uuid) (f : UserGuildStats → UserGuildStats)
    (hf : ∀ r, (f r).userId = r.userId := by intro r; rfl) : Query Unit :=
  Query.exec
    (fun s => if (s.userGuildStats.get user).isSome then [.userGuildStats user] else [])
    (fun s =>
      match s.userGuildStats.get user with
      | none => .ok ((), s)
      | some r =>
        if (f r).Valid then
          .ok ((), { s with userGuildStats := s.userGuildStats.update user f hf })
        else .error .checkViolation)

/-- The row of a user who has done nothing yet. -/
def freshStats (policy : Policy) (user : Uuid) : UserGuildStats where
  userId := user
  activeDays := 0
  contributionScore := 0
  derivedLevel := (policy.levelPolicyForActiveDays 0).level
  derivedRank := (policy.rankPolicyForScore 0).rank
  lastActiveDay := none
  lastHumanActivityAt := none
  suspiciousActivityStreak := 0
  automationReviewState := .clear

/-- `INSERT INTO user_guild_stats .. ON CONFLICT DO NOTHING`. -/
def insertStats (row : UserGuildStats) : Query Unit :=
  Query.exec
    (fun s => if (s.userGuildStats.get row.userId).isSome then [] else [.userGuildStats row.userId])
    (fun s =>
      match s.userGuildStats.insert row with
      | none => .ok ((), s)
      | some t =>
        if ¬ row.Valid then .error .checkViolation
        else if ¬ s.userExists row.userId then .error .foreignKeyViolation
        else .ok ((), { s with userGuildStats := t }))

/-- An insertion into `admin_audit_logs`. -/
def insertAuditLog (row : AdminAuditLog) : Query Unit :=
  Query.exec (fun _ => []) (fun s =>
    match s.adminAuditLogs.insert row with
    | none => .error .uniqueViolation
    | some t =>
      if row.actorUserId.all (fun id => decide (s.userExists id)) then
        .ok ((), { s with adminAuditLogs := t })
      else .error .foreignKeyViolation)

/-- `insert_system_audit_log`. -/
def insertSystemAuditLog (id : Uuid) (action : String) (target : Option String) (details : Json) :
    Query Unit :=
  insertAuditLog ⟨id, none, action, target, details⟩

/-- `insert_message_conn`. -/
def insertMessageConn (message : NewMessage) : Query Message :=
  Query.exec (fun _ => []) (fun s =>
    match s.messages.insert message.row with
    | none => .error .uniqueViolation
    | some t =>
      if s.userExists message.senderId ∧ s.userExists message.recipientId then
        .ok (message.row, { s with messages := t })
      else .error .foreignKeyViolation)

/-- `daily_action_count`. -/
def dailyActionCount (user : Uuid) (key : ActionKey) (today : Int) : Query Int :=
  Tx.query (fun s =>
    ((s.dailyActionCounters.get (user, key, today)).map DailyActionCounter.count).getD 0)

def incremented (r : DailyActionCounter) : DailyActionCounter := { r with count := r.count + 1 }

theorem incremented_key (r : DailyActionCounter) : (incremented r).key = r.key := rfl

/-- `increment_daily_counter`: an insertion that adds one to the count on conflict. -/
def incrementDailyCounter (user : Uuid) (key : ActionKey) (today : Int) : Query Unit :=
  Query.exec (fun _ => [.dailyActionCounter (user, key, today)]) (fun s =>
    match s.dailyActionCounters.insert ⟨user, key, today, 1⟩ with
    | some t =>
      if s.userExists user then .ok ((), { s with dailyActionCounters := t })
      else .error .foreignKeyViolation
    | none =>
      let t := s.dailyActionCounters.update (user, key, today) incremented incremented_key
      if (t.get (user, key, today)).all (fun r => decide (r.count ≤ i32Max)) then
        .ok ((), { s with dailyActionCounters := t })
      else .error .numericOutOfRange)

def guildPolicyKey : String := "guild_policy"

/-- The policy that is in force in a database. -/
def policyOf (env : Env) (s : Db) : Policy :=
  policyOfSetting env.unicode env.codec ((s.adminSettings.get guildPolicyKey).map AdminSetting.value)

/-- `load_guild_policy_conn`. -/
def loadGuildPolicyConn (env : Env) : Query Policy := Tx.query (policyOf env)

/-! ## Shared steps -/

/-- `ensure_user_guild_stats`. -/
def ensureUserGuildStats (policy : Policy) (user : Uuid) : Query UserGuildStats := do
  insertStats (freshStats policy user)
  let found ← Tx.query (fun s => s.userGuildStats.get user)
  Tx.okOr (.database .notFound) found

/-- The row with its derived columns recomputed. -/
def synced (policy : Policy) (r : UserGuildStats) : UserGuildStats :=
  { r with
    derivedLevel := (policy.levelPolicyForActiveDays r.activeDays).level
    derivedRank := (policy.rankPolicyForScore r.contributionScore).rank }

/-- `sync_derived_state`: the columns written are computed from the row that was read. -/
def syncDerivedState (policy : Policy) (stats : UserGuildStats) : Query UserGuildStats :=
  let level : Int := (policy.levelPolicyForActiveDays stats.activeDays).level
  let rank := (policy.rankPolicyForScore stats.contributionScore).rank
  if stats.derivedLevel = level ∧ stats.derivedRank = rank then pure stats
  else updateStats stats.userId (fun r => { r with derivedLevel := level, derivedRank := rank })

structure HumanActivityAssessment where
  shouldAdvanceActiveDay : Bool
  suspiciousActivityStreak : Int
  automationReviewState : ReviewState
deriving DecidableEq, Repr

def suspiciousNewDayActivityWindow : Int := Duration.minutes 10

def suspiciousActivityFreezeThreshold : Int := 3

def frozenRecoveryWindow : Int := Duration.hours 24

/-- The condition under which activity ends a freeze. -/
def canRecoverFromFrozen (stats : UserGuildStats) (today now : Int) : Bool :=
  (match stats.lastHumanActivityAt with
    | some last => decide (frozenRecoveryWindow ≤ now - last)
    | none => true) &&
  decide (stats.lastActiveDay ≠ some today)

def suspiciousNewDayAttempt (stats : UserGuildStats) (today now : Int) : Bool :=
  decide (stats.lastActiveDay ≠ some today) &&
  (match stats.lastHumanActivityAt with
    | some last => decide (now - last < suspiciousNewDayActivityWindow)
    | none => false)

def stateForStreak (streak : Int) : ReviewState :=
  if suspiciousActivityFreezeThreshold ≤ streak then .frozen
  else if 0 < streak then .challenged
  else .clear

/-- `assess_human_activity`. -/
def assessHumanActivity (stats : UserGuildStats) (today now : Int) : HumanActivityAssessment :=
  if stats.automationReviewState = .frozen then
    if canRecoverFromFrozen stats today now then ⟨true, 0, .clear⟩
    else ⟨false, stats.suspiciousActivityStreak, .frozen⟩
  else
    let attemptingNewDay := decide (stats.lastActiveDay ≠ some today)
    let suspicious := suspiciousNewDayAttempt stats today now
    let streak :=
      if suspicious then saturatingAdd stats.suspiciousActivityStreak 1
      else if attemptingNewDay then max (saturatingSub stats.suspiciousActivityStreak 1) 0
      else stats.suspiciousActivityStreak
    ⟨attemptingNewDay && !suspicious, streak, stateForStreak streak⟩

def auditReviewState (before after : UserGuildStats) (audit : Uuid) : Query Unit :=
  if before.automationReviewState = after.automationReviewState then pure ()
  else insertSystemAuditLog audit "guild.review_state.changed" (some (uuidString before.userId))
    (Json.ofFields [
      ("previous_state", .string before.automationReviewState.text),
      ("new_state", .string after.automationReviewState.text),
      ("suspicious_activity_streak", Json.ofInt after.suspiciousActivityStreak),
      ("active_days", Json.ofInt after.activeDays)])

/-- `update_human_activity_state`: the new values come from the row that was read. -/
def updateHumanActivityState (stats : UserGuildStats) (today now : Int) (audit : Uuid) :
    Query (UserGuildStats × HumanActivityAssessment) := do
  let assessment := assessHumanActivity stats today now
  let updated ← updateStats stats.userId (fun r => { r with
    lastHumanActivityAt := some now
    suspiciousActivityStreak := assessment.suspiciousActivityStreak
    automationReviewState := assessment.automationReviewState })
  auditReviewState stats updated audit
  pure (updated, assessment)

/-- `advance_active_day_if_needed`. -/
def advanceActiveDayIfNeeded (policy : Policy) (stats : UserGuildStats) (today : Int) :
    Query UserGuildStats :=
  if stats.lastActiveDay = some today then pure stats
  else
    let nextActiveDays := i32 (stats.activeDays + 1)
    let level : Int := (policy.levelPolicyForActiveDays nextActiveDays).level
    let rank := (policy.rankPolicyForScore stats.contributionScore).rank
    updateStats stats.userId (fun r => { r with
      activeDays := nextActiveDays
      derivedLevel := level
      derivedRank := rank
      lastActiveDay := some today })

def recordActivity (policy : Policy) (stats : UserGuildStats) (today now : Int) (audit : Uuid) :
    Query UserGuildStats := do
  let (stats, assessment) ← updateHumanActivityState stats today now audit
  if assessment.shouldAdvanceActiveDay then advanceActiveDayIfNeeded policy stats today
  else pure stats

def loadStats (env : Env) (user : Uuid) : Query (Policy × UserGuildStats) := do
  let policy ← loadGuildPolicyConn env
  let stats ← ensureUserGuildStats policy user
  let stats ← syncDerivedState policy stats
  pure (policy, stats)

/-- The transaction of a human operation, up to what it does after the activity update. -/
def humanOperation {α : Type} (env : Env) (user : Uuid) (today now : Int) (audit : Uuid)
    (rest : Policy → UserGuildStats → Query α) : Query α := do
  let (policy, stats) ← loadStats env user
  let stats ← recordActivity policy stats today now audit
  rest policy stats

/-! ## Human activity -/

/-- `record_human_activity`, which reads the clock twice. -/
def recordHumanActivity (env : Env) (user : Uuid) (today now : Int) (audit : Uuid) :
    Query Unit :=
  humanOperation env user today now audit (fun _ _ => pure ())

inductive SendMessageWithTrustResult where
  | sent (message : Message)
  | limited (guild : GuildSnapshot) (retryAfterSeconds : Int)
deriving DecidableEq, Repr

inductive AttachmentActionWithTrustResult (T : Type) where
  | completed (value : T)
  | limited (guild : GuildSnapshot) (retryAfterSeconds : Int)
  | unsupportedMime (guild : GuildSnapshot)
deriving DecidableEq, Repr

inductive ResolveContactWithTrustResult where
  | allowed
  | limited (guild : GuildSnapshot) (retryAfterSeconds : Int)
deriving DecidableEq, Repr

def limitReached (enforced : Bool) (limit : Option Int) (count : Int) : Bool :=
  enforced && limit.any (fun l => decide (l ≤ count))

/-- What `send_message_with_guild` does after its activity update. -/
def sendMessageChecked (env : Env) (policy : Policy) (stats : UserGuildStats)
    (message : NewMessage) (now : Int) : Query SendMessageWithTrustResult := do
  let sender := message.senderId
  let today := dateNaive now
  let sentToday ← dailyActionCount sender .outboundMessage today
  let attachmentsSentToday ← dailyActionCount sender .attachmentSend today
  let friendAddsToday ← dailyActionCount sender .friendAdd today
  let level := policy.levelPolicyForActiveDays stats.activeDays
  let rank := policy.rankPolicyForLimits stats.contributionScore
  let limit := effectiveDailyOutboundMessagesLimit level rank
  if limitReached policy.outboundMessageLimitEnforced limit sentToday then
    pure (.limited
      (buildSnapshot env.unicode policy stats sentToday attachmentsSentToday friendAddsToday
        (clientLevel stats) stats.derivedRank)
      (secondsUntilNextUtcDay now))
  else do
    let saved ← insertMessageConn message
    incrementDailyCounter sender .outboundMessage today
    pure (.sent saved)

/-- `send_message_with_guild`. -/
def sendMessageWithGuild (env : Env) (message : NewMessage) (now : Int) (audit : Uuid) :
    Query SendMessageWithTrustResult :=
  humanOperation env message.senderId (dateNaive now) now audit (fun policy stats =>
    sendMessageChecked env policy stats message now)

/-- What `run_attachment_action_with_guild` does after its activity update. -/
def attachmentActionChecked {T : Type} (env : Env) (policy : Policy) (stats : UserGuildStats)
    (user : Uuid) (mimeType : String) (operation : Query T) (now : Int) :
    Query (AttachmentActionWithTrustResult T) := do
  let today := dateNaive now
  let normalizedMimeType := env.unicode.toLowercase (trim mimeType)
  let messagesSent ← dailyActionCount user .outboundMessage today
  let attachmentsSentToday ← dailyActionCount user .attachmentSend today
  let friendAddsToday ← dailyActionCount user .friendAdd today
  let snapshot := buildSnapshot env.unicode policy stats messagesSent attachmentsSentToday
    friendAddsToday (clientLevel stats) stats.derivedRank
  if policy.attachmentSendLimitEnforced && !policy.attachmentTypeAllowed normalizedMimeType then
    pure (.unsupportedMime snapshot)
  else do
    let level := policy.levelPolicyForActiveDays stats.activeDays
    let rank := policy.rankPolicyForLimits stats.contributionScore
    let limit := effectiveDailyAttachmentSendLimit level rank
    if limitReached policy.attachmentSendLimitEnforced limit attachmentsSentToday then
      pure (.limited snapshot (secondsUntilNextUtcDay now))
    else do
      let value ← operation
      incrementDailyCounter user .attachmentSend today
      pure (.completed value)

/-- `run_attachment_action_with_guild`. -/
def runAttachmentActionWithGuild {T : Type} (env : Env) (user : Uuid) (mimeType : String)
    (operation : Query T) (now : Int) (audit : Uuid) :
    Query (AttachmentActionWithTrustResult T) :=
  humanOperation env user (dateNaive now) now audit (fun policy stats =>
    attachmentActionChecked env policy stats user mimeType operation now)

/-- What `resolve_contact_with_guild` does after its activity update. -/
def resolveContactChecked (env : Env) (policy : Policy) (stats : UserGuildStats) (user : Uuid)
    (now : Int) : Query ResolveContactWithTrustResult := do
  let today := dateNaive now
  let found ← Tx.query (fun s => s.users.get user)
  let account ← Tx.okOr .notFound found
  if account.yellowCardExpiresAt.any (fun t => decide (now < t)) then
    throw (.badRequest
      "Your account has a temporary restriction and cannot add contacts at this time.")
  else do
    let friendAddsToday ← dailyActionCount user .friendAdd today
    let messagesSent ← dailyActionCount user .outboundMessage today
    let attachmentsSentToday ← dailyActionCount user .attachmentSend today
    let level := policy.levelPolicyForActiveDays stats.activeDays
    let rank := policy.rankPolicyForLimits stats.contributionScore
    let limit := effectiveDailyFriendAddLimit level rank
    if limitReached policy.friendAddLimitEnforced limit friendAddsToday then
      pure (.limited
        (buildSnapshot env.unicode policy stats messagesSent attachmentsSentToday friendAddsToday
          (clientLevel stats) stats.derivedRank)
        (secondsUntilNextUtcDay now))
    else do
      incrementDailyCounter user .friendAdd today
      pure .allowed

/-- `resolve_contact_with_guild`. -/
def resolveContactWithGuild (env : Env) (user : Uuid) (now : Int) (audit : Uuid) :
    Query ResolveContactWithTrustResult :=
  humanOperation env user (dateNaive now) now audit (fun policy stats =>
    resolveContactChecked env policy stats user now)

/-! ## Snapshots -/

/-- `get_guild_snapshot`; its statements are not in a transaction. -/
def getGuildSnapshot (env : Env) (user : Uuid) (today : Int) : Query GuildSnapshot := do
  let policy ← loadGuildPolicyConn env
  let stats ← ensureUserGuildStats policy user
  let prevLevel := clientLevel stats
  let prevRank := stats.derivedRank
  let stats ← syncDerivedState policy stats
  let sentToday ← dailyActionCount user .outboundMessage today
  let attachmentsSentToday ← dailyActionCount user .attachmentSend today
  let friendAddsToday ← dailyActionCount user .friendAdd today
  pure (buildSnapshot env.unicode policy stats sentToday attachmentsSentToday friendAddsToday
    prevLevel prevRank)

/-! ## Contribution events -/

structure ContributionEventOptions where
  requiresMeaningfulGranter : Bool
  dailyPositiveCap : Option Int
deriving DecidableEq, Repr

def ContributionEventOptions.default : ContributionEventOptions := ⟨false, none⟩

structure ContributionEventOutcome where
  event : Option GuildScoreEvent
  contributionScore : Int
  derivedRank : String
  appliedDelta : Int
  duplicate : Bool
  suppressedReason : Option String

/-- The arguments of `record_contribution_event`. -/
structure ContributionRequest where
  userId : Uuid
  granterUserId : Option Uuid
  eventType : String
  requestedDelta : Int
  referenceId : Option String
  metadata : Json
  options : ContributionEventOptions

def ContributionRequest.normalizedReferenceId (q : ContributionRequest) : Option String :=
  (q.referenceId.map trim).filter (· ≠ "")

/-- `is_reciprocal_vote`. -/
def isReciprocalVote (user : Uuid) (granter : Option Uuid) (eventType : String) (now : Int) :
    Query Bool :=
  match granter with
  | none => pure false
  | some granterId => do
    let windowStart ← Tx.okOr .panicked (timeSub now (Duration.days 30))
    Tx.query (fun s => s.guildScoreEvents.rows.any (fun e =>
      decide (e.userId = granterId ∧ e.granterUserId = some user ∧ e.eventType = eventType ∧
        0 < e.delta ∧ windowStart ≤ e.createdAt)))

/-- `is_clustered_vote`: ten or more different granters on the current day. -/
def isClusteredVote (user : Uuid) (eventType : String) (now : Int) : Query Bool :=
  Tx.query (fun s =>
    let votes := s.guildScoreEvents.rows.filter (fun e =>
      decide (e.userId = user ∧ e.eventType = eventType ∧ midnight (dateNaive now) ≤ e.createdAt ∧
        0 < e.delta))
    decide (10 ≤ (votes.filterMap GuildScoreEvent.granterUserId).dedup.length))

/-- `positive_points_earned_today`. -/
def positivePointsEarnedToday (user : Uuid) (eventType : String) (now : Int) : Query Int :=
  Tx.query (fun s =>
    let events := s.guildScoreEvents.rows.filter (fun e =>
      decide (e.userId = user ∧ e.eventType = eventType ∧ midnight (dateNaive now) ≤ e.createdAt ∧
        0 < e.delta))
    clamp (events.map GuildScoreEvent.delta).sum 0 i32Max)

/-- `granter_is_meaningful`. -/
def granterIsMeaningful (policy : Policy) (granter : Option Uuid) : Query Bool :=
  match granter with
  | none => pure false
  | some granterId => do
    let role ← Tx.query (fun s => (s.users.get granterId).map User.role)
    match role with
    | none => pure false
    | some role =>
      if role ≠ "user" then pure true
      else do
        let stats ← ensureUserGuildStats policy granterId
        let stats ← syncDerivedState policy stats
        pure (decide (4 ≤ stats.derivedLevel) || rankAtLeast stats.derivedRank "E")

def voteDelta (policy : Policy) (q : ContributionRequest) (eventType : String) (now : Int) :
    Query (Int × Option String) := do
  if 0 < q.requestedDelta ∧ q.options.requiresMeaningfulGranter then
    if q.granterUserId = some q.userId then pure (0, some "self_vote")
    else do
      let reciprocal ← isReciprocalVote q.userId q.granterUserId eventType now
      if reciprocal then pure (0, some "reciprocal_vote")
      else do
        let clustered ← isClusteredVote q.userId eventType now
        if clustered then pure (0, some "clustered_vote")
        else do
          let meaningful ← granterIsMeaningful policy q.granterUserId
          if !meaningful then pure (0, some "granter_not_eligible")
          else pure (q.requestedDelta, none)
  else pure (q.requestedDelta, none)

def cappedDelta (q : ContributionRequest) (eventType : String) (now : Int)
    (vote : Int × Option String) : Query (Int × Option String) := do
  match q.options.dailyPositiveCap with
  | none => pure vote
  | some cap =>
    if 0 < q.requestedDelta then do
      let points ← positivePointsEarnedToday q.userId eventType now
      let remaining := max (i32 (cap - points)) 0
      if remaining = 0 then pure (0, some "daily_cap_reached")
      else if remaining < vote.1 then pure (remaining, some "daily_cap_truncated")
      else pure vote
    else pure vote

/-- `enrich_contribution_event_metadata`. -/
def enrichContributionEventMetadata (metadata : Json) (requestedDelta appliedDelta : Int)
    (suppressedReason : Option String) : Json :=
  let object := match metadata with
    | .object fields => fields
    | other => Json.insertField "input" other []
  let object := Json.insertField "requested_delta" (Json.ofInt requestedDelta) object
  let object := Json.insertField "applied_delta" (Json.ofInt appliedDelta) object
  match suppressedReason with
  | some reason => .object (Json.insertField "suppressed_reason" (.string reason) object)
  | none => .object object

/-- An insertion into `guild_score_events`. -/
def insertScoreEvent (event : GuildScoreEvent) : Query GuildScoreEvent :=
  Query.exec (fun _ => [.guildScoreEvent event.id]) (fun s =>
    match s.guildScoreEvents.insert event with
    | none => .error .uniqueViolation
    | some t =>
      if s.userExists event.userId ∧
          event.granterUserId.all (fun id => decide (s.userExists id)) then
        .ok (event, { s with guildScoreEvents := t })
      else .error .foreignKeyViolation)

def hasReference (user : Uuid) (eventType reference : String) (s : Db) : Bool :=
  s.guildScoreEvents.rows.any (fun e =>
    decide (e.userId = user ∧ e.eventType = eventType ∧ e.referenceId = some reference))

def findDuplicate (q : ContributionRequest) (eventType : String) : Query Bool :=
  match q.normalizedReferenceId with
  | some reference => Tx.query (hasReference q.userId eventType reference)
  | none => pure false

/-- The transaction of `record_contribution_event`. -/
def recordContributionEvent (env : Env) (q : ContributionRequest) (now startedAt : Int)
    (eventId : Uuid) : Query ContributionEventOutcome := do
  let eventType := trim q.eventType
  if eventType = "" then throw (.badRequest "event_type cannot be empty")
  else do
    let (policy, stats) ← loadStats env q.userId
    let duplicate ← findDuplicate q eventType
    if duplicate then
      pure ⟨none, stats.contributionScore, stats.derivedRank, 0, true, some "duplicate_reference"⟩
    else do
      let vote ← voteDelta policy q eventType now
      let (appliedDelta, suppressedReason) ← cappedDelta q eventType now vote
      let nextContributionScore := max (i32 (stats.contributionScore + appliedDelta)) 0
      let nextRank := (policy.rankPolicyForScore nextContributionScore).rank
      let event ← insertScoreEvent {
        id := eventId
        userId := q.userId
        granterUserId := q.granterUserId
        eventType := eventType
        delta := appliedDelta
        referenceId := q.normalizedReferenceId
        metadata := enrichContributionEventMetadata q.metadata q.requestedDelta appliedDelta
          suppressedReason
        createdAt := startedAt }
      executeUpdateStats q.userId (fun r => { r with
        contributionScore := nextContributionScore
        derivedRank := nextRank })
      pure ⟨some event, nextContributionScore, nextRank, appliedDelta, false, suppressedReason⟩

def awardValidatedModerationAction (actor : Uuid) (eventType : String)
    (reference : Option String) (metadata : Json) : ContributionRequest :=
  ⟨actor, none, eventType, 50, reference, metadata, .default⟩

def awardVerifiedAbuseReport (user : Uuid) (reference : Option String) (metadata : Json) :
    ContributionRequest :=
  ⟨user, none, "verified_abuse_report", 25, reference, metadata, .default⟩

def penalizeFalseReport (user : Uuid) (reference : Option String) (metadata : Json) :
    ContributionRequest :=
  ⟨user, none, "false_report_penalty", -10, reference, metadata, .default⟩

def awardCommunityUpvote (user : Uuid) (granter : Option Uuid) (reference : Option String)
    (metadata : Json) (dailyCap : Int) : ContributionRequest :=
  ⟨user, granter, "helpful_answer_vote", 5, reference, metadata, ⟨true, some dailyCap⟩⟩

def clawbackContributionScore (user : Uuid) (delta : Int) (reference : Option String)
    (metadata : Json) : ContributionRequest :=
  ⟨user, none, "admin.score_clawback", min delta 0, reference, metadata, .default⟩

/-! ## Administration -/

def frozenStats (r : UserGuildStats) : UserGuildStats := { r with automationReviewState := .frozen }

def clearedStats (r : UserGuildStats) : UserGuildStats :=
  { r with automationReviewState := .clear, suspiciousActivityStreak := 0 }

/-- `freeze_guild_progression`; its statements are not in a transaction. -/
def freezeGuildProgression (admin : Option Uuid) (target : Uuid) (reason : String)
    (audit : Uuid) : Query Unit := do
  executeUpdateStats target frozenStats
  match admin with
  | some adminId =>
    insertAuditLog ⟨audit, some adminId, "guild.admin.freeze_guild_progression",
      some (uuidString target), Json.ofFields [
        ("reason", .string reason),
        ("target_user_id", .string (uuidString target)),
        ("admin_user_id", .string (uuidString adminId))]⟩
  | none =>
    insertSystemAuditLog audit "guild.system.freeze_guild_progression" (some (uuidString target))
      (Json.ofFields [("reason", .string reason)])

/-- `unfreeze_guild_progression`; its statements are not in a transaction. -/
def unfreezeGuildProgression (admin target : Uuid) (reason : String) (audit : Uuid) :
    Query Unit := do
  executeUpdateStats target clearedStats
  insertAuditLog ⟨audit, some admin, "guild.admin.unfreeze_guild_progression",
    some (uuidString target), Json.ofFields [("reason", .string reason)]⟩

/-- `admin_service::set_setting`. -/
def setSetting (key value : String) : Query Unit :=
  Query.exec (fun _ => []) (fun s =>
    if ¬ isText value then .error .characterNotInRepertoire
    else match s.adminSettings.insert ⟨key, value⟩ with
    | some t => .ok ((), { s with adminSettings := t })
    | none => .ok ((), { s with
        adminSettings := s.adminSettings.update key (fun r => { r with value := value })
          (fun _ => rfl) }))

/-- `save_guild_policy`. -/
def saveGuildPolicy (env : Env) (policy : GuildPolicyConfig) : Query GuildPolicyConfig :=
  match normalizeGuildPolicy env.unicode policy with
  | .error e => throw e
  | .ok normalized => do
    setSetting guildPolicyKey (env.codec.encode normalized)
    pure normalized

structure GuildHistoryPruneResult where
  dailyCounterRetentionDays : Int
  scoreEventRetentionDays : Int
  prunedBeforeDay : Int
  prunedBeforeTimestamp : Int
  dailyActionCountersDeleted : Nat
  guildScoreEventsDeleted : Nat
deriving DecidableEq, Repr

/-- `DELETE FROM daily_action_counters WHERE day_bucket < day`. -/
def deleteCountersBefore (day : Int) : Query Nat :=
  Query.exec
    (fun s => (s.dailyActionCounters.rows.filter (fun r => decide (r.dayBucket < day))).map
      (fun r => .dailyActionCounter r.key))
    (fun s => .ok
      ((s.dailyActionCounters.rows.filter (fun r => decide (r.dayBucket < day))).length,
        { s with dailyActionCounters :=
            s.dailyActionCounters.filter (fun r => !decide (r.dayBucket < day)) }))

/-- `DELETE FROM guild_score_events WHERE created_at < time`. -/
def deleteEventsBefore (time : Int) : Query Nat :=
  Query.exec
    (fun s => (s.guildScoreEvents.rows.filter (fun e => decide (e.createdAt < time))).map
      (fun e => .guildScoreEvent e.id))
    (fun s => .ok
      ((s.guildScoreEvents.rows.filter (fun e => decide (e.createdAt < time))).length,
        { s with guildScoreEvents :=
            s.guildScoreEvents.filter (fun e => !decide (e.createdAt < time)) }))

/-- `prune_guild_history`; its statements are not in a transaction. -/
def pruneGuildHistory (env : Env) (now : Int) : Query GuildHistoryPruneResult := do
  let policy ← loadGuildPolicyConn env
  let day ← Tx.okOr .panicked (dateSubDays (dateNaive now) policy.dailyCounterRetentionDays)
  let time ← Tx.okOr .panicked (timeSub now (Duration.days policy.scoreEventRetentionDays))
  let counters ← deleteCountersBefore day
  let events ← deleteEventsBefore time
  pure ⟨policy.dailyCounterRetentionDays, policy.scoreEventRetentionDays, day, time, counters,
    events⟩

end SyncServer.Guild
