import SyncServer.Guild.Policy
import SyncServer.Schema

/-! # Guild snapshots

What a client sees of its progress, and the notification of a milestone that
the server derives from the level and the rank before and after a request.
-/

namespace SyncServer.Guild

inductive MilestoneKind where
  | levelUp
  | rankUp
  | unlockAttachmentType
deriving DecidableEq, Repr

structure GuildMilestoneNotification where
  kind : MilestoneKind
  badgeLabel : String
  headlineKey : String
  detailKey : String
  unlockedValue : Option String
  newValue : String
deriving DecidableEq, Repr

structure GuildSnapshot where
  activeDays : Int
  level : Nat
  contributionScore : Int
  rank : String
  nextLevelActiveDays : Option Int
  levelProgressPercent : Nat
  dailyOutboundMessagesEnforced : Bool
  dailyOutboundMessagesLimit : Option Int
  dailyOutboundMessagesSent : Int
  dailyOutboundMessagesRemaining : Option Int
  dailyAttachmentSendsEnforced : Bool
  dailyAttachmentSendLimit : Option Int
  dailyAttachmentSendsSent : Int
  dailyAttachmentSendsRemaining : Option Int
  allowedAttachmentTypes : List String
  dailyFriendAddsEnforced : Bool
  dailyFriendAddLimit : Option Int
  dailyFriendAddsSent : Int
  dailyFriendAddsRemaining : Option Int
  challengeState : String
  pendingMilestoneNotification : Option GuildMilestoneNotification
deriving DecidableEq, Repr

/-- `challenge_state_for_client`. -/
def challengeStateForClient : ReviewState → String
  | .frozen => "frozen"
  | .challenged => "challenged"
  | .clear => "none"

/-- The level column as the client sees it. -/
def clientLevel (stats : UserGuildStats) : Nat := (clamp stats.derivedLevel 1 10).toNat

/-- The notification for going from `prevLevel` and `prevRank` to the given ones. -/
def milestoneNotification (unicode : Unicode) (prevLevel : Nat) (prevRank : String) (level : Nat)
    (rank : String) : Option GuildMilestoneNotification :=
  if prevLevel < level then some {
    kind := .levelUp
    badgeLabel := "Level " ++ toString level
    headlineKey := "guild.milestone.level_up"
    detailKey := "guild.milestone.level_" ++ toString level ++ "_detail"
    unlockedValue := none
    newValue := toString level }
  else if optionLt (rankOrder prevRank) (rankOrder rank) then some {
    kind := .rankUp
    badgeLabel := "Rank " ++ rank
    headlineKey := "guild.milestone.rank_up"
    detailKey := "guild.milestone.rank_" ++ unicode.toLowercase rank ++ "_detail"
    unlockedValue := none
    newValue := rank }
  else none
where
  /-- `Option::lt`, in which `None` is least. -/
  optionLt : Option Nat → Option Nat → Bool
    | _, none => false
    | none, some _ => true
    | some a, some b => decide (a < b)

/-- `build_snapshot`. -/
def buildSnapshot (unicode : Unicode) (policy : Policy) (stats : UserGuildStats)
    (messagesSent attachmentsSent friendAddsSent : Int) (prevLevel : Nat) (prevRank : String) :
    GuildSnapshot :=
  let level := policy.levelPolicyForActiveDays stats.activeDays
  let rank := policy.rankPolicyForLimits stats.contributionScore
  let messageLimit := effectiveDailyOutboundMessagesLimit level rank
  let attachmentLimit := effectiveDailyAttachmentSendLimit level rank
  let friendAddLimit := effectiveDailyFriendAddLimit level rank
  let next := policy.nextLevelActiveDays level.level
  { activeDays := stats.activeDays
    level := clientLevel stats
    contributionScore := stats.contributionScore
    rank := stats.derivedRank
    nextLevelActiveDays := next
    levelProgressPercent := levelProgressPercent stats.activeDays level.minActiveDays next
    dailyOutboundMessagesEnforced := policy.outboundMessageLimitEnforced
    dailyOutboundMessagesLimit := messageLimit
    dailyOutboundMessagesSent := messagesSent
    dailyOutboundMessagesRemaining := messageLimit.map (fun l => max (i32 (l - messagesSent)) 0)
    dailyAttachmentSendsEnforced := policy.attachmentSendLimitEnforced
    dailyAttachmentSendLimit := attachmentLimit
    dailyAttachmentSendsSent := attachmentsSent
    dailyAttachmentSendsRemaining :=
      attachmentLimit.map (fun l => max (i32 (l - attachmentsSent)) 0)
    allowedAttachmentTypes := policy.safeAttachmentTypes
    dailyFriendAddsEnforced := policy.friendAddLimitEnforced
    dailyFriendAddLimit := friendAddLimit
    dailyFriendAddsSent := friendAddsSent
    dailyFriendAddsRemaining := friendAddLimit.map (fun l => max (i32 (l - friendAddsSent)) 0)
    challengeState := challengeStateForClient stats.automationReviewState
    pendingMilestoneNotification :=
      milestoneNotification unicode prevLevel prevRank (clientLevel stats) stats.derivedRank }

end SyncServer.Guild
