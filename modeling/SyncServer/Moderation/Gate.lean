import SyncServer.Accounts.Users
import SyncServer.Base.Clock

/-! # Who may write to whom

The checks of `moderation_service` before a direct message. They only read, so they give one
answer for a database and an instant.
-/

namespace SyncServer.Moderation
open Transaction

/-- A block between two users, in either direction. -/
def blockBetween (s : Db) (userA userB : Uuid) : Bool :=
  s.userBlocks.rows.any (fun b =>
    (b.blockerUserId = userA && b.blockedUserId = userB) ||
      (b.blockerUserId = userB && b.blockedUserId = userA))

/-- `is_block_active_between`. -/
def isBlockActiveBetween (userA userB : Uuid) : Query Bool :=
  Tx.query (fun s => blockBetween s userA userB)

/-- `ensure_no_block_between`. -/
def ensureNoBlockBetween (userA userB : Uuid) : Query Unit := do
  let active ← isBlockActiveBetween userA userB
  if active then throw .forbidden else pure ()

/-- A yellow card that has not expired. -/
def hasYellowCard (user : User) (now : Int) : Bool :=
  user.yellowCardExpiresAt.any (fun t => decide (now < t))

/-- `ensure_no_yellow_card`. -/
def ensureNoYellowCard (userId : Uuid) (now : Int) : Query Unit := do
  let found ← Accounts.findById userId
  let user ← Tx.okOr .notFound found
  if hasYellowCard user now then
    throw (.badRequest
      "Your account has a temporary restriction and cannot send messages at this time.")
  else pure ()

def newDmRestrictionOpenReportThreshold : Nat := 2

def newDmRestrictionLookbackDays : Int := 7

def openReportCount (s : Db) (user : Uuid) (lookback : Int) : Nat :=
  (s.moderationReports.rows.filter (fun r =>
    decide (r.reportedUserId = user ∧ r.status = "open" ∧ lookback ≤ r.createdAt))).length

def priorContact (s : Db) (userA userB : Uuid) : Bool :=
  s.messages.rows.any (fun m => m.deletedAt.isNone &&
    ((m.senderId = userA && m.recipientId = userB) ||
      (m.senderId = userB && m.recipientId = userA)))

/-- `is_new_dm_contact_restricted`. -/
def isNewDmContactRestricted (senderUserId recipientUserId : Uuid) (now : Int) : Query Bool := do
  let found ← Accounts.findById senderUserId
  let sender ← Tx.okOr .notFound found
  let hasExplicitRestriction := sender.dmRestrictedUntil.any (fun t => decide (now < t))
  let lookback := now - Duration.days newDmRestrictionLookbackDays
  let openReports ← Tx.query (fun s => openReportCount s senderUserId lookback)
  if !hasExplicitRestriction && decide (openReports < newDmRestrictionOpenReportThreshold) then
    pure false
  else do
    let hasPriorContact ← Tx.query (fun s => priorContact s senderUserId recipientUserId)
    pure !hasPriorContact

/-- `ensure_direct_message_allowed`. -/
def ensureDirectMessageAllowed (senderUserId recipientUserId : Uuid) (now : Int) : Query Unit := do
  ensureNoYellowCard senderUserId now
  ensureNoBlockBetween senderUserId recipientUserId
  let restricted ← isNewDmContactRestricted senderUserId recipientUserId now
  if restricted then
    throw (.badRequest ("Private messages are temporarily limited to existing contacts while " ++
      "your account is under safety review"))
  else pure ()

/-! ## The answer of the checks -/

theorem blockBetween_comm (s : Db) (userA userB : Uuid) :
    blockBetween s userA userB = blockBetween s userB userA := by
  unfold blockBetween
  congr 1
  funext b
  rw [Bool.or_comm]

def contactsLimited (s : Db) (sender : User) (now : Int) : Bool :=
  sender.dmRestrictedUntil.any (fun t => decide (now < t)) ||
    decide (newDmRestrictionOpenReportThreshold ≤
      openReportCount s sender.id (now - Duration.days newDmRestrictionLookbackDays))

/-- What keeps a sender from writing to a recipient. -/
inductive Refused (s : Db) (sender : User) (recipient : Uuid) (now : Int) : Prop
  | yellowCard (card : hasYellowCard sender now = true)
  | blocked (block : blockBetween s sender.id recipient = true)
  | limited (limit : contactsLimited s sender now = true)
    (noContact : priorContact s sender.id recipient = false)

theorem Refused.congr {s s' : Db} {sender : User} {recipient : Uuid} {now : Int}
    (hblocks : s'.userBlocks = s.userBlocks) (hreports : s'.moderationReports = s.moderationReports)
    (hmessages : s'.messages = s.messages) (h : Refused s sender recipient now) :
    Refused s' sender recipient now := by
  cases h with
  | yellowCard card => exact .yellowCard card
  | blocked block =>
    rw [blockBetween, ← hblocks] at block
    exact .blocked block
  | limited limit noContact =>
    rw [contactsLimited, openReportCount, ← hreports] at limit
    rw [priorContact, ← hmessages] at noContact
    exact .limited limit noContact

section
variable {s : Db} {sender : User}

theorem run_ensureNoYellowCard (h : s.users.get sender.id = some sender) (now : Int) :
    (ensureNoYellowCard sender.id now).run s =
      (if hasYellowCard sender now then .error (.badRequest
        "Your account has a temporary restriction and cannot send messages at this time.")
      else .ok (), s) := by
  rw [ensureNoYellowCard, Accounts.findById, Tx.run_bind, Tx.run_query, h]
  change (if hasYellowCard sender now then _ else _ : Query Unit).run s = _
  split <;> rfl

theorem run_ensureNoBlockBetween (userA userB : Uuid) :
    (ensureNoBlockBetween userA userB).run s =
      (if blockBetween s userA userB then .error .forbidden else .ok (), s) := by
  rw [ensureNoBlockBetween, isBlockActiveBetween, Tx.run_bind, Tx.run_query]
  dsimp only
  split <;> rfl

theorem run_isNewDmContactRestricted (h : s.users.get sender.id = some sender) (recipient : Uuid)
    (now : Int) : (isNewDmContactRestricted sender.id recipient now).run s =
      (.ok (contactsLimited s sender now && !priorContact s sender.id recipient), s) := by
  rw [isNewDmContactRestricted, Accounts.findById, Tx.run_bind, Tx.run_query, h]
  change (if (!sender.dmRestrictedUntil.any (fun t => decide (now < t)) && decide
    (openReportCount s sender.id (now - Duration.days newDmRestrictionLookbackDays) <
      newDmRestrictionOpenReportThreshold)) = true then _ else _ : Query Bool).run s = _
  by_cases hl : contactsLimited s sender now
  · rw [if_neg, hl, Bool.true_and]
    · rfl
    · simp only [contactsLimited, Bool.or_eq_true, decide_eq_true_eq] at hl
      simp only [Bool.and_eq_true, Bool.not_eq_true', decide_eq_true_eq, not_and, Nat.not_lt]
      intro hno
      exact hl.resolve_left (by simp [hno])
  · rw [if_pos]
    · simp [hl]
    · simp only [contactsLimited, Bool.or_eq_true, decide_eq_true_eq, not_or, Nat.not_le] at hl
      simpa using hl

/-- The checks only read, and they pass if and only if the sender is not refused. -/
theorem run_ensureDirectMessageAllowed (h : s.users.get sender.id = some sender) (recipient : Uuid)
    (now : Int) :
    ((¬ Refused s sender recipient now) ∧
      (ensureDirectMessageAllowed sender.id recipient now).run s = (.ok (), s)) ∨
    (Refused s sender recipient now ∧ ∃ e,
      (ensureDirectMessageAllowed sender.id recipient now).run s = (.error e, s)) := by
  unfold ensureDirectMessageAllowed
  rw [Tx.run_bind, run_ensureNoYellowCard h]
  by_cases hcard : hasYellowCard sender now
  · rw [if_pos hcard]
    exact .inr ⟨.yellowCard hcard, _, rfl⟩
  rw [if_neg hcard]
  dsimp only
  rw [Tx.run_bind, run_ensureNoBlockBetween]
  by_cases hblock : blockBetween s sender.id recipient
  · rw [if_pos hblock]
    exact .inr ⟨.blocked hblock, _, rfl⟩
  rw [if_neg hblock]
  dsimp only
  rw [Tx.run_bind_ok (run_isNewDmContactRestricted h recipient now)]
  by_cases hlimit : contactsLimited s sender now && !priorContact s sender.id recipient
  · rw [if_pos hlimit]
    rw [Bool.and_eq_true, Bool.not_eq_true'] at hlimit
    exact .inr ⟨.limited hlimit.1 hlimit.2, _, rfl⟩
  · rw [if_neg hlimit]
    refine .inl ⟨?_, rfl⟩
    rintro (h | h | ⟨h, h'⟩)
    · exact hcard h
    · exact hblock h
    · simp [h, h'] at hlimit

end

theorem run_ensureDirectMessageAllowed_missing {s : Db} {sender : Uuid}
    (h : s.users.get sender = none) (recipient : Uuid) (now : Int) :
    (ensureDirectMessageAllowed sender recipient now).run s = (.error .notFound, s) := by
  rw [ensureDirectMessageAllowed, ensureNoYellowCard, Accounts.findById]
  simp only [Tx.run_bind, Tx.run_query, h]
  rfl

theorem succeeds_ensureDirectMessageAllowed {s : Db} {sender recipient : Uuid} {now : Int} :
    (ensureDirectMessageAllowed sender recipient now).Succeeds s ↔
      ∃ account, s.users.get sender = some account ∧ ¬ Refused s account recipient now := by
  rcases hu : s.users.get sender with _ | account
  · unfold Tx.Succeeds
    rw [run_ensureDirectMessageAllowed_missing hu]
    simp
  · obtain rfl : account.id = sender := Table.key_of_get hu
    unfold Tx.Succeeds
    obtain ⟨hno, hrun⟩ | ⟨hrefused, e, hrun⟩ := run_ensureDirectMessageAllowed hu recipient now
    · exact iff_of_true ⟨(), s, hrun⟩ ⟨account, rfl, hno⟩
    · rw [hrun]
      simp [hrefused]

theorem run_ensureDirectMessageAllowed_blocked {s : Db} {sender recipient : Uuid}
    (h : blockBetween s sender recipient = true) (now : Int) :
    ∃ e, (ensureDirectMessageAllowed sender recipient now).run s = (.error e, s) := by
  rcases hu : s.users.get sender with _ | user
  · exact ⟨_, run_ensureDirectMessageAllowed_missing hu recipient now⟩
  · obtain rfl : user.id = sender := Table.key_of_get hu
    obtain ⟨hno, -⟩ | ⟨-, herror⟩ := run_ensureDirectMessageAllowed hu recipient now
    · exact absurd (.blocked h) hno
    · exact herror

theorem keeps_ensureDirectMessageAllowed {τ : Type} {π : Db → τ} (sender recipient : Uuid)
    (now : Int) : (ensureDirectMessageAllowed sender recipient now).Keeps π := by
  apply Tx.keeps_bind
  · apply Tx.keeps_bind (Tx.keeps_query _ _)
    intro found
    apply Tx.keeps_bind (Tx.keeps_okOr _ _ found)
    intro user
    split <;> trivial
  intro _
  apply Tx.keeps_bind
  · apply Tx.keeps_bind (Tx.keeps_query _ _)
    intro active
    split <;> trivial
  intro _
  apply Tx.keeps_bind
  · apply Tx.keeps_bind (Tx.keeps_query _ _)
    intro found
    apply Tx.keeps_bind (Tx.keeps_okOr _ _ found)
    intro user
    apply Tx.keeps_bind (Tx.keeps_query _ _)
    intro openReports
    split
    · trivial
    · exact Tx.keeps_bind (Tx.keeps_query _ _) (fun _ => Tx.keeps_pure _ _)
  intro restricted
  split <;> trivial

end SyncServer.Moderation
