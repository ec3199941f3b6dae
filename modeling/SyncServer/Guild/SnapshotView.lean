import SyncServer.Guild.Quota

/-! # What a snapshot shows of an action

The columns of a snapshot for messages, attachments and friends are the same four, each for its
action.
-/

namespace SyncServer.Guild

def levelLimit (e : LevelPolicy) : ActionKey → Option Int
  | .outboundMessage => e.dailyOutboundMessagesLimit
  | .attachmentSend => e.dailyAttachmentSendLimit
  | .friendAdd => e.dailyFriendAddLimit

def rankPercent (e : RankPolicy) : ActionKey → Option Int
  | .outboundMessage => e.dailyOutboundMessagesLimitMultiplierPercent
  | .attachmentSend => e.dailyAttachmentSendLimitMultiplierPercent
  | .friendAdd => e.dailyFriendAddLimitMultiplierPercent

theorem dailyLimit_eq (p : Policy) (r : UserGuildStats) (key : ActionKey) :
    dailyLimit p r key = effectiveDailyLimit
      (levelLimit (p.levelPolicyForActiveDays r.activeDays) key)
      (rankPercent (p.rankPolicyForLimits r.contributionScore) key)
      (p.rankPolicyForLimits r.contributionScore).overridesLevelLimits := by
  cases key <;> rfl

namespace GuildSnapshot

def enforced (S : GuildSnapshot) : ActionKey → Bool
  | .outboundMessage => S.dailyOutboundMessagesEnforced
  | .attachmentSend => S.dailyAttachmentSendsEnforced
  | .friendAdd => S.dailyFriendAddsEnforced

def limit (S : GuildSnapshot) : ActionKey → Option Int
  | .outboundMessage => S.dailyOutboundMessagesLimit
  | .attachmentSend => S.dailyAttachmentSendLimit
  | .friendAdd => S.dailyFriendAddLimit

def sent (S : GuildSnapshot) : ActionKey → Int
  | .outboundMessage => S.dailyOutboundMessagesSent
  | .attachmentSend => S.dailyAttachmentSendsSent
  | .friendAdd => S.dailyFriendAddsSent

def remaining (S : GuildSnapshot) : ActionKey → Option Int
  | .outboundMessage => S.dailyOutboundMessagesRemaining
  | .attachmentSend => S.dailyAttachmentSendsRemaining
  | .friendAdd => S.dailyFriendAddsRemaining

end GuildSnapshot

/-- The columns of an action come from the policy, the row and the counter. -/
structure ShowsAction (p : Policy) (r : UserGuildStats) (count : Int) (key : ActionKey)
    (S : GuildSnapshot) : Prop where
  enforced : S.enforced key = limitEnforced p key
  limit : S.limit key = dailyLimit p r key
  sent : S.sent key = count
  remaining : S.remaining key = (dailyLimit p r key).map (fun l => max (i32 (l - count)) 0)

theorem buildSnapshot_showsAction (unicode : Unicode) (p : Policy) (r : UserGuildStats)
    (counts : ActionKey → Int) (prevLevel : Nat) (prevRank : String) (key : ActionKey) :
    ShowsAction p r (counts key) key (buildSnapshot unicode p r (counts .outboundMessage)
      (counts .attachmentSend) (counts .friendAdd) prevLevel prevRank) := by
  cases key <;> exact ⟨rfl, rfl, rfl, rfl⟩

end SyncServer.Guild
