import SyncServer.Schema

/-! # The deletion of an account

`user_service::delete_user`: one `DELETE`, and what the foreign keys of the schema do with the rows
that refer to the account.
-/

namespace SyncServer.Accounts
open Transaction

def createdRoom (s : Db) (userId roomId : Uuid) : Bool :=
  (s.rooms.get roomId).any (fun r => decide (r.createdBy = userId))

def hasUsername (s : Db) (userId : Uuid) (name : String) : Bool :=
  (s.users.get userId).any (fun u => decide (u.username = name))

/-- The database without a user: references are deleted with her, or set to `NULL`. -/
def withoutUser (userId : Uuid) (s : Db) : Db where
  users := s.users.filter (fun r => decide (r.id ≠ userId))
  userGuildStats := s.userGuildStats.filter (fun r => decide (r.userId ≠ userId))
  dailyActionCounters := s.dailyActionCounters.filter (fun r => decide (r.userId ≠ userId))
  guildScoreEvents := (s.guildScoreEvents.filter (fun r => decide (r.userId ≠ userId))).map
    (fun r => { r with granterUserId := r.granterUserId.filter (· ≠ userId) }) (fun _ => rfl)
  adminSettings := s.adminSettings
  adminAuditLogs := s.adminAuditLogs.map
    (fun r => { r with actorUserId := r.actorUserId.filter (· ≠ userId) }) (fun _ => rfl)
  messages := s.messages.filter (fun r => decide (r.senderId ≠ userId ∧ r.recipientId ≠ userId))
  stickers := s.stickers.filter (fun r => decide (r.uploaderId ≠ userId))
  refreshTokens := s.refreshTokens.filter (fun r => decide (r.userId ≠ userId))
  userBlocks := s.userBlocks.filter
    (fun r => decide (r.blockerUserId ≠ userId ∧ r.blockedUserId ≠ userId))
  moderationReports := (s.moderationReports.filter
    (fun r => decide (r.reporterUserId ≠ userId ∧ r.reportedUserId ≠ userId))).map
    (fun r => { r with reviewedByUserId := r.reviewedByUserId.filter (· ≠ userId) }) (fun _ => rfl)
  rooms := s.rooms.filter (fun r => decide (r.createdBy ≠ userId))
  roomMembers := s.roomMembers.filter
    (fun r => decide (r.userId ≠ userId) && !createdRoom s userId r.roomId)
  roomMessages := s.roomMessages.filter
    (fun r => decide (r.senderId ≠ userId) && !createdRoom s userId r.roomId)
  callRecords := s.callRecords.filter
    (fun r => decide (r.callerId ≠ userId ∧ r.calleeId ≠ userId))
  federationInboxActivities := s.federationInboxActivities.filter
    (fun r => !hasUsername s userId r.recipientUsername)
  federationRemoteMessages := s.federationRemoteMessages.filter (fun r =>
    !hasUsername s userId r.recipientUsername &&
      !s.federationInboxActivities.rows.any (fun a => decide (a.activityId = r.activityId) &&
        hasUsername s userId a.recipientUsername))
  federationActorKeys := s.federationActorKeys.filter
    (fun r => !hasUsername s userId r.actorUsername)
  federationDeliveries := s.federationDeliveries.filter
    (fun r => !hasUsername s userId r.senderUsername)
  agentTokens := s.agentTokens.filter (fun r => decide (r.createdBy ≠ userId))

/-- `DELETE FROM users WHERE id = user`, which answers how many rows there were. -/
def deleteUserRow (userId : Uuid) : Query Nat :=
  Query.exec (fun _ => [.user userId]) (fun s =>
    if s.userExists userId then .ok (1, withoutUser userId s) else .ok (0, s))

/-- `delete_user`. -/
def deleteUser (userId : Uuid) : Query Unit := do
  let affected ← deleteUserRow userId
  if affected = 0 then throw .notFound else pure ()

theorem run_deleteUser (userId : Uuid) (s : Db) :
    (deleteUser userId).run s =
      if s.userExists userId then (.ok (), withoutUser userId s) else (.error .notFound, s) := by
  by_cases h : s.userExists userId
  · have hrow : (deleteUserRow userId).run s = (.ok 1, withoutUser userId s) :=
      Query.run_exec_ok.mpr (if_pos h)
    rw [deleteUser, Tx.run_bind_ok hrow, if_pos h]
    rfl
  · have hrow : (deleteUserRow userId).run s = (.ok 0, s) := Query.run_exec_ok.mpr (if_neg h)
    rw [deleteUser, Tx.run_bind_ok hrow, if_neg h]
    rfl

end SyncServer.Accounts
