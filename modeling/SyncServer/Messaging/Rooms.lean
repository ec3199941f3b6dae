import SyncServer.Guild.Rows
import SyncServer.Moderation.Gate
import SyncServer.Moderation.Text
import SyncServer.Server

/-! # Room messages

`POST /api/rooms/{id}/messages`: the message is stored for the room, and sent to the members who
are not cut off from the sender by a block.
-/

namespace SyncServer.Messaging
open Transaction Moderation

/-! ## The service -/

/-- `ensure_room_member_conn`. -/
def ensureRoomMember (roomId viewerId : Uuid) : Query Room := do
  let room ← Tx.query (fun s => s.rooms.get roomId)
  let room ← Tx.okOr .notFound room
  let membership ← Tx.query (fun s => s.roomMembers.get (roomId, viewerId))
  if membership.isNone then throw .forbidden else pure room

/-- An insertion into `room_messages`. -/
def insertRoomMessage (message : RoomMessage) : Query RoomMessage :=
  Query.exec (fun _ => []) (fun s =>
    match s.roomMessages.insert message with
    | none => .error .uniqueViolation
    | some t =>
      if (s.rooms.get message.roomId).isSome ∧ s.userExists message.senderId then
        .ok (message, { s with roomMessages := t })
      else .error .foreignKeyViolation)

def readAt (now : Int) (r : RoomMember) : RoomMember := { r with lastReadAt := some now }

theorem readAt_key (now : Int) (r : RoomMember) : (readAt now r).key = r.key := rfl

def updateLastReadAt (roomId userId : Uuid) (now : Int) : Query Unit :=
  Query.exec (fun _ => []) (fun s => .ok ((), { s with
    roomMembers := s.roomMembers.update (roomId, userId) (readAt now) (readAt_key now) }))

/-- A message to a room, with the id and the time that it gets, and the time after it. -/
structure NewRoomMessage where
  id : Uuid
  roomId : Uuid
  senderId : Uuid
  content : String
  createdAt : Int
  now : Int
deriving DecidableEq, Repr

def NewRoomMessage.row (new : NewRoomMessage) : RoomMessage :=
  ⟨new.id, new.roomId, new.senderId, trim new.content, none, new.createdAt⟩

/-- The transaction of `room_service::send_room_message`. -/
def storeRoomMessage (unicode : Unicode) (new : NewRoomMessage) : Query RoomMessage := do
  let _ ← ensureRoomMember new.roomId new.senderId
  Tx.done (require (trim new.content ≠ "") "Message content cannot be empty")
  Tx.done (ensureTextIsAllowed unicode "room message" (trim new.content))
  let message ← insertRoomMessage new.row
  updateLastReadAt new.roomId new.senderId new.now
  pure message

/-- `list_room_member_ids`. -/
def listRoomMemberIds (roomId viewerId : Uuid) : Query (List Uuid) := do
  let _ ← ensureRoomMember roomId viewerId
  Tx.query (fun s =>
    (s.roomMembers.rows.filter (fun r => r.roomId = roomId)).map RoomMember.userId)

/-! ## The handler -/

structure SendRoomMessageCall where
  message : NewRoomMessage
  todayAt : Int
  activityAt : Int
  audit : Uuid
deriving DecidableEq, Repr

/-- The members whom no block separates from the sender. -/
def visibleMembers (senderId : Uuid) : List Uuid → Query (List Uuid)
  | [] => pure []
  | memberId :: rest => do
    let blocked ← isBlockActiveBetween senderId memberId
    let visible ← visibleMembers senderId rest
    pure (if blocked then visible else memberId :: visible)

/-- `publish_new_room_message_event`. -/
def publishNewRoomMessageEvent (roomId : Uuid) (message : RoomMessage) : List Uuid → Handler Unit
  | [] => pure ()
  | memberId :: rest => do
    send (.publish memberId (.newRoomMessage roomId message))
    publishNewRoomMessageEvent roomId message rest

/-- `dispatch_push_for_room_message`. -/
def dispatchPushForRoomMessage (senderId messageId : Uuid) (content : String) :
    List Uuid → Handler Unit
  | [] => pure ()
  | memberId :: rest => do
    if memberId = senderId then pure ()
    else send (.push memberId (.newMessage senderId messageId content))
    dispatchPushForRoomMessage senderId messageId content rest

/-- `POST /api/rooms/{id}/messages`. -/
def sendRoomMessage (env : Guild.Env) (call : SendRoomMessageCall) : Handler RoomMessage := do
  Tx.done (require (trim call.message.content ≠ "") "Message content cannot be empty")
  let message ← onDb (storeRoomMessage env.unicode call.message).asStatement
  let memberIds ← onDb (listRoomMemberIds call.message.roomId call.message.senderId)
  let visible ← onDb (visibleMembers call.message.senderId memberIds)
  publishNewRoomMessageEvent call.message.roomId message visible
  dispatchPushForRoomMessage call.message.senderId message.id (trim call.message.content) visible
  onDb (Guild.recordHumanActivity env call.message.senderId (dateNaive call.todayAt)
    call.activityAt call.audit).asStatement
  pure message

/-! ## Parts of the handler -/

theorem run_visibleMembers (senderId : Uuid) (memberIds : List Uuid) (s : Db) :
    (visibleMembers senderId memberIds).run s =
      (.ok (memberIds.filter (fun m => !blockBetween s senderId m)), s) := by
  induction memberIds with
  | nil => rfl
  | cons memberId rest ih =>
    rw [visibleMembers, isBlockActiveBetween, Tx.run_bind_ok (Tx.run_query _ _),
      Tx.run_bind_ok ih, List.filter_cons]
    cases blockBetween s senderId memberId <;> rfl

theorem keeps_visibleMembers {τ : Type} {π : Db → τ} (senderId : Uuid) (memberIds : List Uuid) :
    (visibleMembers senderId memberIds).Keeps π := by
  induction memberIds with
  | nil => exact Tx.keeps_pure _ _
  | cons memberId rest ih =>
    apply Tx.keeps_bind (Tx.keeps_query _ _)
    intro blocked
    exact Tx.keeps_bind ih (fun _ => Tx.keeps_pure _ _)

theorem keeps_ensureRoomMember {τ : Type} {π : Db → τ} (roomId viewerId : Uuid) :
    (ensureRoomMember roomId viewerId).Keeps π := by
  apply Tx.keeps_bind (Tx.keeps_query _ _)
  intro found
  apply Tx.keeps_bind (Tx.keeps_okOr _ _ found)
  intro room
  apply Tx.keeps_bind (Tx.keeps_query _ _)
  intro membership
  split <;> trivial

theorem keeps_storeRoomMessage {τ : Type} {π : Db → τ}
    (hmessages : ∀ s t, π { s with roomMessages := t } = π s)
    (hmembers : ∀ s t, π { s with roomMembers := t } = π s) (unicode : Unicode)
    (new : NewRoomMessage) : (storeRoomMessage unicode new).Keeps π := by
  apply Tx.keeps_bind (keeps_ensureRoomMember _ _)
  intro room
  apply Tx.keeps_bind (Tx.keeps_done _ _)
  intro _
  apply Tx.keeps_bind (Tx.keeps_done _ _)
  intro _
  apply Tx.keeps_bind
  · refine Query.keeps_exec (fun s saved s' h => ?_)
    split at h
    · cases h
    · split at h <;> cases h
      exact hmessages s _
  intro saved
  apply Tx.keeps_bind
  · refine Query.keeps_exec (fun s a s' h => ?_)
    cases h
    exact hmembers s _
  exact fun _ => Tx.keeps_pure _ _

theorem keeps_listRoomMemberIds {τ : Type} {π : Db → τ} (roomId viewerId : Uuid) :
    (listRoomMemberIds roomId viewerId).Keeps π :=
  Tx.keeps_bind (keeps_ensureRoomMember _ _) (fun _ => Tx.keeps_query _ _)

theorem keeps_publishNewRoomMessageEvent (roomId : Uuid) (message : RoomMessage)
    (memberIds : List Uuid) :
    (publishNewRoomMessageEvent roomId message memberIds).Keeps Server.db := by
  induction memberIds with
  | nil => exact Tx.keeps_pure _ _
  | cons memberId rest ih => exact Tx.keeps_bind (keeps_db_send _) (fun _ => ih)

theorem keeps_dispatchPushForRoomMessage (senderId messageId : Uuid) (content : String)
    (memberIds : List Uuid) :
    (dispatchPushForRoomMessage senderId messageId content memberIds).Keeps Server.db := by
  induction memberIds with
  | nil => exact Tx.keeps_pure _ _
  | cons memberId rest ih =>
    unfold dispatchPushForRoomMessage
    split
    · exact ih
    · exact Tx.keeps_bind (keeps_db_send _) (fun _ => ih)

theorem keeps_sendRoomMessage {τ : Type} {π : Db → τ}
    (hmessages : ∀ s t, π { s with roomMessages := t } = π s)
    (hmembers : ∀ s t, π { s with roomMembers := t } = π s)
    (hstats : ∀ s t, π { s with userGuildStats := t } = π s)
    (haudit : ∀ s t, π { s with adminAuditLogs := t } = π s) (env : Guild.Env)
    (call : SendRoomMessageCall) :
    (sendRoomMessage env call).Keeps (fun s : Server => π s.db) := by
  apply Tx.keeps_bind (Tx.keeps_done _ _)
  intro _
  apply Tx.keeps_bind (keeps_onDb (keeps_storeRoomMessage hmessages hmembers _ _).asStatement)
  intro message
  apply Tx.keeps_bind (keeps_onDb (keeps_listRoomMemberIds _ _))
  intro memberIds
  apply Tx.keeps_bind (keeps_onDb (keeps_visibleMembers _ _))
  intro visible
  apply Tx.keeps_bind ((keeps_publishNewRoomMessageEvent _ _ _).map π)
  intro _
  apply Tx.keeps_bind ((keeps_dispatchPushForRoomMessage _ _ _ _).map π)
  intro _
  apply Tx.keeps_bind
    (keeps_onDb (Guild.keeps_recordHumanActivity hstats haudit _ _ _ _ _).asStatement)
  exact fun _ => Tx.keeps_pure _ _

/-! ## What a room message sends -/

def roomDeliveries (call : NewRoomMessage) (memberIds : List Uuid) : List Outgoing :=
  memberIds.map (fun m => .publish m (.newRoomMessage call.roomId call.row)) ++
    (memberIds.filter (fun m => m ≠ call.senderId)).map
      (fun m => .push m (.newMessage call.senderId call.id (trim call.content)))

theorem run_publishNewRoomMessageEvent (roomId : Uuid) (message : RoomMessage)
    (memberIds : List Uuid) (s : Server) :
    (publishNewRoomMessageEvent roomId message memberIds).run s = (.ok (), { s with
      sent := s.sent ++ memberIds.map (fun m => .publish m (.newRoomMessage roomId message)) }) := by
  induction memberIds generalizing s with
  | nil => simp [publishNewRoomMessageEvent]
  | cons memberId rest ih =>
    rw [publishNewRoomMessageEvent, Tx.run_bind_ok (run_send _ s), ih]
    simp

theorem run_dispatchPushForRoomMessage (senderId messageId : Uuid) (content : String)
    (memberIds : List Uuid) (s : Server) :
    (dispatchPushForRoomMessage senderId messageId content memberIds).run s = (.ok (), { s with
      sent := s.sent ++ (memberIds.filter (fun m => m ≠ senderId)).map
        (fun m => .push m (.newMessage senderId messageId content)) }) := by
  induction memberIds generalizing s with
  | nil => simp [dispatchPushForRoomMessage]
  | cons memberId rest ih =>
    by_cases h : memberId = senderId
    · simpa [dispatchPushForRoomMessage, h] using ih s
    · have hrun := ih { s with
        sent := s.sent ++ [.push memberId (.newMessage senderId messageId content)] }
      simp only [dispatchPushForRoomMessage, h, if_false]
      rw [Tx.run_bind_ok (run_send _ s), hrun]
      simp [h]

def membersOf (s : Db) (roomId : Uuid) : List Uuid :=
  (s.roomMembers.rows.filter (fun r => r.roomId = roomId)).map RoomMember.userId

/-- A room takes a message. -/
structure Accepts (unicode : Unicode) (new : NewRoomMessage) (s : Db) : Prop where
  room : (s.rooms.get new.roomId).isSome
  member : (s.roomMembers.get (new.roomId, new.senderId)).isSome
  content : trim new.content ≠ ""
  allowed : ensureTextIsAllowed unicode "room message" (trim new.content) = .ok ()
  free : s.roomMessages.get new.id = none
  sender : s.userExists new.senderId

section
variable {unicode : Unicode} {new : NewRoomMessage} {s : Db}

def withRoomMessage (new : NewRoomMessage) (t : Table Uuid RoomMessage RoomMessage.id) (s : Db) :
    Db :=
  { s with
    roomMessages := t
    roomMembers := s.roomMembers.update (new.roomId, new.senderId) (readAt new.now)
      (readAt_key new.now) }

theorem membersOf_withRoomMessage (new : NewRoomMessage)
    (t : Table Uuid RoomMessage RoomMessage.id) (s : Db) (roomId : Uuid) :
    membersOf (withRoomMessage new t s) roomId = membersOf s roomId := by
  have hroom : ∀ r : RoomMember,
      (if r.key = (new.roomId, new.senderId) then readAt new.now r else r).roomId = r.roomId := by
    intro r
    split <;> rfl
  simp only [membersOf, withRoomMessage, Table.update, Table.map, List.filter_map, List.map_map,
    Function.comp_def, hroom]
  apply List.map_congr_left
  intro r _
  split <;> rfl

theorem ensureRoomMember_ok {roomId viewerId : Uuid} {room : Room} {s' : Db} :
    (ensureRoomMember roomId viewerId).run s = (.ok room, s') ↔
      s.rooms.get roomId = some room ∧ (s.roomMembers.get (roomId, viewerId)).isSome ∧ s' = s := by
  rw [ensureRoomMember, Tx.run_bind_ok (Tx.run_query _ _)]
  rcases s.rooms.get roomId with _ | found
  · simp [Tx.okOr, Tx.run_bind]
  · rw [Tx.run_bind_ok (Tx.run_okOr _ _ _), Tx.run_bind_ok (Tx.run_query _ _)]
    rcases s.roomMembers.get (roomId, viewerId) with _ | membership <;> simp [eq_comm]

theorem run_storeRoomMessage (h : Accepts unicode new s) :
    ∃ t, s.roomMessages.insert new.row = some t ∧
      (storeRoomMessage unicode new).run s = (.ok new.row, withRoomMessage new t s) := by
  obtain ⟨room, hroom⟩ := Option.isSome_iff_exists.mp h.room
  rcases ht : s.roomMessages.insert new.row with _ | t
  · have htaken : (s.roomMessages.get new.id).isSome := Table.insert_eq_none.mp ht
    rw [h.free] at htaken
    cases htaken
  refine ⟨t, rfl, ?_⟩
  have hinsert : (insertRoomMessage new.row).run s = (.ok new.row, { s with roomMessages := t }) := by
    refine Query.run_exec_ok.mpr ?_
    have hrefs : (s.rooms.get new.row.roomId).isSome ∧ s.userExists new.row.senderId :=
      ⟨h.room, h.sender⟩
    simp [ht, hrefs]
  rw [storeRoomMessage, Tx.run_bind_ok (ensureRoomMember_ok.mpr ⟨hroom, h.member, rfl⟩)]
  simp only [require, h.content, ne_eq, not_false_eq_true, decide_true, if_true, h.allowed]
  rw [Tx.run_bind_ok (Tx.run_done _ _), Tx.run_bind_ok (Tx.run_done _ _), Tx.run_bind_ok hinsert]
  rfl

theorem accepts_of_storeRoomMessage {message : RoomMessage} {s' : Db}
    (h : (storeRoomMessage unicode new).run s = (.ok message, s')) : Accepts unicode new s := by
  unfold storeRoomMessage at h
  replace h := Tx.run_bind_eq_ok h
  obtain ⟨room, s₁, hmember, h⟩ := h
  obtain ⟨hroom, hmembership, rfl⟩ := ensureRoomMember_ok.mp hmember
  obtain ⟨_, s₂, hcontent, h⟩ := Tx.run_bind_eq_ok h
  obtain ⟨_, s₃, hallowed, h⟩ := Tx.run_bind_eq_ok h
  obtain ⟨saved, s₄, hsaved, h⟩ := Tx.run_bind_eq_ok h
  rw [Tx.run_done, Prod.mk.injEq] at hcontent hallowed
  obtain ⟨hcontent, rfl⟩ := hcontent
  obtain ⟨hallowed, rfl⟩ := hallowed
  have hadd := Query.run_exec_ok.mp hsaved
  rcases ht : s₁.roomMessages.insert new.row with _ | t
  · simp [ht] at hadd
  simp only [ht] at hadd
  split at hadd
  · rename_i hrefs
    refine ⟨by simp [hroom], hmembership, ?_, hallowed, Table.get_eq_none_of_insert ht, hrefs.2⟩
    intro hempty
    simp [require, hempty] at hcontent
  · cases hadd

end

/-- A message that is accepted is stored and sent; then the activity of the sender is recorded. -/
theorem run_sendRoomMessage {env : Guild.Env} {call : SendRoomMessageCall} {s : Server}
    (h : Accepts env.unicode call.message s.db) :
    ∃ t, s.db.roomMessages.insert call.message.row = some t ∧
      (sendRoomMessage env call).run s =
        (onDb (Guild.recordHumanActivity env call.message.senderId (dateNaive call.todayAt)
            call.activityAt call.audit).asStatement >>= fun _ => pure call.message.row).run
          { s.setDb (withRoomMessage call.message t s.db) with
            sent := s.sent ++ roomDeliveries call.message
              ((membersOf s.db call.message.roomId).filter
                (fun m => !blockBetween s.db call.message.senderId m)) } := by
  obtain ⟨t, ht, hstore⟩ := run_storeRoomMessage h
  obtain ⟨room, hroom⟩ := Option.isSome_iff_exists.mp h.room
  have hmember : ((withRoomMessage call.message t s.db).roomMembers.get
      (call.message.roomId, call.message.senderId)).isSome := by
    simp [withRoomMessage, h.member]
  have hlist : (listRoomMemberIds call.message.roomId call.message.senderId).run
      (withRoomMessage call.message t s.db) =
      (.ok (membersOf s.db call.message.roomId), withRoomMessage call.message t s.db) := by
    have hensure := (ensureRoomMember_ok (s := withRoomMessage call.message t s.db)).mpr
      ⟨hroom, hmember, rfl⟩
    rw [listRoomMemberIds, Tx.run_bind_ok hensure, Tx.run_query,
      ← membersOf_withRoomMessage call.message t]
    rfl
  refine ⟨t, ht, ?_⟩
  unfold sendRoomMessage
  simp only [require, h.content, ne_eq, not_false_eq_true, decide_true, if_true]
  rw [Tx.run_bind_ok (Tx.run_done _ _)]
  rw [Tx.run_bind_ok (run_onDb_eq ((Tx.run_asStatement _ _).trans (Tx.atomically_ok hstore)))]
  rw [Tx.run_bind_ok (run_onDb_eq hlist),
    Tx.run_bind_ok (run_onDb_eq (run_visibleMembers _ _ _)),
    Tx.run_bind_ok (run_publishNewRoomMessageEvent _ _ _ _),
    Tx.run_bind_ok (run_dispatchPushForRoomMessage _ _ _ _ _)]
  simp only [roomDeliveries, ← List.append_assoc]
  rfl

/-- What a room message sends: nothing, or it goes to all members of the room whom no block
separates from the sender. -/
theorem sendRoomMessage_sent (env : Guild.Env) (call : SendRoomMessageCall) (s : Server) :
    (¬ Accepts env.unicode call.message s.db ∧
        ((sendRoomMessage env call).run s).2.sent = s.sent) ∨
      (Accepts env.unicode call.message s.db ∧
        ((sendRoomMessage env call).run s).2.sent = s.sent ++ roomDeliveries call.message
          ((membersOf s.db call.message.roomId).filter
            (fun m => !blockBetween s.db call.message.senderId m))) := by
  by_cases h : Accepts env.unicode call.message s.db
  · obtain ⟨t, -, hrun⟩ := run_sendRoomMessage h
    have hkeep : ((onDb (Guild.recordHumanActivity env call.message.senderId
        (dateNaive call.todayAt) call.activityAt call.audit).asStatement) >>=
        fun _ => pure call.message.row : Handler RoomMessage).Keeps Server.sent :=
      Tx.keeps_bind (keeps_sent _) (fun _ => Tx.keeps_pure _ _)
    rw [hrun]
    exact .inr ⟨h, hkeep.run _⟩
  · refine .inl ⟨h, ?_⟩
    unfold sendRoomMessage
    rcases hrun : (storeRoomMessage env.unicode call.message).run s.db with ⟨e | message, s'⟩
    · have hstore : (onDb (storeRoomMessage env.unicode call.message).asStatement).run s =
          (.error e, s) := by
        rw [run_onDb, Tx.run_asStatement, Tx.atomically, hrun]
        rfl
      rcases hcontent : require (trim call.message.content ≠ "") "Message content cannot be empty"
        with _ | ⟨⟩
      · rfl
      · rw [Tx.run_bind_ok (Tx.run_done _ _), Tx.run_bind_error hstore]
    · exact absurd (accepts_of_storeRoomMessage hrun) h

end SyncServer.Messaging
