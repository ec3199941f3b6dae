import Mathlib.Data.Prod.Lex
import SyncServer.Base.Keyset
import SyncServer.Messaging.Rooms

/-! # The room service

The operations of `room_service` as database programs, beside the ones for messages to rooms. The
times at which rooms were created and changed and members joined are left out: they only order and
decorate what a client sees. Rows are listed in the order of their insertion.
-/

namespace SyncServer.Rooms
open Transaction Moderation Messaging

/-! ## What a viewer sees -/

/-- The order of messages: by time, and by id when the times are equal. -/
def messageKey (r : RoomMessage) : Int ×ₗ Uuid := toLex (r.createdAt, r.id)

/-- `list_blocked_user_ids_conn`. -/
def blockedBy (s : Db) (viewerId : Uuid) : List Uuid :=
  (s.userBlocks.rows.filter (fun b => b.blockerUserId = viewerId)).map UserBlock.blockedUserId

def listBlockedUserIds (viewerId : Uuid) : Query (List Uuid) :=
  Tx.query (fun s => blockedBy s viewerId)

/-- The messages of a room that are not deleted, and not from a blocked sender. -/
def messagesIn (s : Db) (roomId : Uuid) (blocked : List Uuid) : List RoomMessage :=
  s.roomMessages.rows.filter (fun r =>
    decide (r.roomId = roomId ∧ r.deletedAt = none ∧ r.senderId ∉ blocked))

def unreadIn (s : Db) (roomId viewerId : Uuid) (blocked : List Uuid) (lastReadAt : Option Int) :
    Nat :=
  (messagesIn s roomId blocked).countP (fun r =>
    decide (r.senderId ≠ viewerId) && lastReadAt.all (fun t => decide (t < r.createdAt)))

/-- `room_unread_count_conn`. -/
def roomUnreadCount (roomId viewerId : Uuid) (lastReadAt : Option Int) : Query Nat := do
  let blocked ← listBlockedUserIds viewerId
  Tx.query (fun s => unreadIn s roomId viewerId blocked lastReadAt)

/-- `truncate_preview`. -/
def truncatePreview (content : String) : String :=
  let trimmed := trim content
  if trimmed.toList.length ≤ 120 then trimmed
  else String.ofList (trimmed.toList.take 120) ++ "..."

structure RoomMemberProfile where
  userId : Uuid
  username : String
  avatarBase64 : Option String
  role : String
deriving DecidableEq, Repr

structure RoomSummary where
  id : Uuid
  name : String
  createdBy : Uuid
  memberCount : Nat
  unreadCount : Nat
  lastMessagePreview : Option String
  lastMessageAt : Option Int
deriving DecidableEq, Repr

structure RoomDetail extends RoomSummary where
  members : List RoomMemberProfile
deriving DecidableEq, Repr

def membershipsIn (s : Db) (roomId : Uuid) : List RoomMember :=
  s.roomMembers.rows.filter (fun r => r.roomId = roomId)

/-- `room_summary_conn`. -/
def roomSummary (room : Room) (membership : RoomMember) (viewerId : Uuid) : Query RoomSummary := do
  let blocked ← listBlockedUserIds viewerId
  let memberCount ← Tx.query (fun s => (membershipsIn s room.id).length)
  let latest ← Tx.query (fun s => (newestFirst messageKey (messagesIn s room.id blocked)).head?)
  let unreadCount ← roomUnreadCount room.id viewerId membership.lastReadAt
  pure {
    id := room.id
    name := room.name
    createdBy := room.createdBy
    memberCount := memberCount
    unreadCount := unreadCount
    lastMessagePreview := latest.map (fun r => truncatePreview r.content)
    lastMessageAt := latest.map RoomMessage.createdAt }

def profileOf (accounts : List User) (membership : RoomMember) : Option RoomMemberProfile :=
  (accounts.find? (fun u => u.id = membership.userId)).map (fun u =>
    ⟨membership.userId, u.username, u.avatarBase64, membership.role⟩)

/-- `room_member_profiles_conn`. -/
def roomMemberProfiles (roomId : Uuid) : Query (List RoomMemberProfile) := do
  let memberships ← Tx.query (fun s => membershipsIn s roomId)
  if memberships = [] then pure []
  else do
    let accounts ← Tx.query (fun s =>
      s.users.rows.filter (fun u => u.id ∈ memberships.map RoomMember.userId))
    pure (memberships.filterMap (profileOf accounts))

/-- `room_detail_conn`. -/
def roomDetail (room : Room) (viewerId : Uuid) : Query RoomDetail := do
  let found ← Tx.query (fun s => s.roomMembers.get (room.id, viewerId))
  let membership ← Tx.okOr (.database .notFound) found
  let summary ← roomSummary room membership viewerId
  let members ← roomMemberProfiles room.id
  pure { summary with members := members }

/-! ## Checks -/

/-- `normalize_room_name`. -/
def normalizeRoomName (unicode : Unicode) (raw : String) : Except AppError String := do
  require (trim raw ≠ "") "Room name cannot be empty"
  require ((trim raw).toList.length ≤ 80) "Room name must be <= 80 characters"
  ensureTextIsAllowed unicode "room name" (trim raw)
  pure (trim raw)

/-- The elements in ascending order, each once, as a `BTreeSet` lists them. -/
def btreeSet (ids : List Uuid) : List Uuid := ids.dedup.insertionSort (· ≤ ·)

/-- `normalize_member_ids`. -/
def normalizeMemberIds (creatorId : Uuid) (memberIds : List Uuid) : List Uuid :=
  btreeSet (creatorId :: memberIds)

/-- `ensure_users_exist_conn`. -/
def ensureUsersExist (memberIds : List Uuid) : Query Unit := do
  let found ← Tx.query (fun s => (s.users.rows.filter (fun u => u.id ∈ memberIds)).length)
  if found ≠ memberIds.length then throw (.badRequest "One or more room members do not exist")
  else pure ()

/-- `room_access_error`. -/
def roomAccessError {α : Type} (roomId : Uuid) : Query α := do
  let room ← Tx.query (fun s => s.rooms.get roomId)
  if room.isSome then throw .forbidden else throw .notFound

def ensureRoomCreator (roomId ownerId : Uuid) : Query Room := do
  let room ← ensureRoomMember roomId ownerId
  if room.createdBy ≠ ownerId then throw .forbidden else pure room

/-! ## Statements -/

/-- `INSERT INTO rooms`. -/
def insertRoom (room : Room) : Query Room :=
  Query.exec (fun _ => []) (fun s =>
    match s.rooms.insert room with
    | none => .error .uniqueViolation
    | some t =>
      if s.userExists room.createdBy then .ok (room, { s with rooms := t })
      else .error .foreignKeyViolation)

def addMembers : List RoomMember → Db → Except DbError Db
  | [], s => .ok s
  | r :: rest, s =>
    match s.roomMembers.insert r with
    | none => .error .uniqueViolation
    | some t =>
      if (s.rooms.get r.roomId).isSome ∧ s.userExists r.userId then
        addMembers rest { s with roomMembers := t }
      else .error .foreignKeyViolation

/-- `INSERT INTO room_members` of several rows. -/
def insertRoomMembers (records : List RoomMember) : Query Unit :=
  Query.exec (fun _ => []) (fun s => (addMembers records s).map (fun s' => ((), s')))

def renamed (name : String) (r : Room) : Room := { r with name := name }

theorem renamed_id (name : String) (r : Room) : (renamed name r).id = r.id := rfl

/-- `UPDATE rooms SET name`. -/
def updateRoomName (roomId : Uuid) (name : String) : Query Room :=
  Query.exec (fun _ => []) (fun s =>
    match s.rooms.get roomId with
    | none => .error .notFound
    | some r => .ok (renamed name r,
        { s with rooms := s.rooms.update roomId (renamed name) (renamed_id name) }))

def withoutMember (roomId userId : Uuid) (s : Db) : Db :=
  { s with roomMembers := s.roomMembers.filter (fun r => decide (r.key ≠ (roomId, userId))) }

def withoutRoom (roomId : Uuid) (s : Db) : Db :=
  { s with
    rooms := s.rooms.filter (fun r => decide (r.id ≠ roomId))
    roomMembers := s.roomMembers.filter (fun r => decide (r.roomId ≠ roomId))
    roomMessages := s.roomMessages.filter (fun r => decide (r.roomId ≠ roomId)) }

def deleteRoomMember (roomId userId : Uuid) : Query Unit :=
  Query.exec (fun _ => []) (fun s => .ok ((), withoutMember roomId userId s))

def deleteRoomMembers (roomId : Uuid) : Query Unit :=
  Query.exec (fun _ => []) (fun s => .ok ((), { s with
    roomMembers := s.roomMembers.filter (fun r => decide (r.roomId ≠ roomId)) }))

def deleteRoomMessages (roomId : Uuid) : Query Unit :=
  Query.exec (fun _ => []) (fun s => .ok ((), { s with
    roomMessages := s.roomMessages.filter (fun r => decide (r.roomId ≠ roomId)) }))

/-- `DELETE FROM rooms`, with what the foreign keys delete. -/
def deleteRoomRow (roomId : Uuid) : Query Unit :=
  Query.exec (fun _ => []) (fun s => .ok ((), withoutRoom roomId s))

/-! ## The operations -/

def firstMembers (roomId creatorId : Uuid) (memberIds : List Uuid) (now : Int) :
    List RoomMember :=
  memberIds.map (fun id => ⟨roomId, id, if id = creatorId then "owner" else "member", some now⟩)

def addedMembers (roomId : Uuid) (memberIds : List Uuid) (now : Int) : List RoomMember :=
  memberIds.map (fun id => ⟨roomId, id, "member", some now⟩)

/-- `create_room`. -/
def createRoom (unicode : Unicode) (creatorId : Uuid) (name : String) (memberIds : List Uuid)
    (roomId : Uuid) (now : Int) : Query RoomDetail := do
  let roomName ← Tx.done (normalizeRoomName unicode name)
  ensureUsersExist (normalizeMemberIds creatorId memberIds)
  let room ← insertRoom ⟨roomId, roomName, creatorId⟩
  insertRoomMembers (firstMembers room.id creatorId (normalizeMemberIds creatorId memberIds) now)
  roomDetail room creatorId

/-- `get_room`. -/
def getRoom (roomId viewerId : Uuid) : Query RoomDetail := do
  let room ← ensureRoomMember roomId viewerId
  roomDetail room viewerId

/-- `rename_room`. -/
def renameRoom (unicode : Unicode) (roomId ownerId : Uuid) (name : String) : Query RoomDetail := do
  let room ← ensureRoomCreator roomId ownerId
  let roomName ← Tx.done (normalizeRoomName unicode name)
  let updated ← (if room.name = roomName then pure room else updateRoomName roomId roomName)
  roomDetail updated ownerId

/-- `add_room_members`. -/
def addRoomMembers (roomId ownerId : Uuid) (memberIds : List Uuid) (now : Int) :
    Query RoomDetail := do
  let room ← ensureRoomCreator roomId ownerId
  let requested := btreeSet (memberIds.filter (fun id => id ≠ ownerId))
  if requested = [] then roomDetail room ownerId
  else do
    ensureUsersExist requested
    let existing ← Tx.query (fun s =>
      ((membershipsIn s roomId).map RoomMember.userId).filter (fun id => id ∈ requested))
    let new := requested.filter (fun id => id ∉ existing)
    if new = [] then roomDetail room ownerId
    else do
      insertRoomMembers (addedMembers roomId new now)
      roomDetail room ownerId

/-- `remove_room_member`. -/
def removeRoomMember (roomId ownerId memberId : Uuid) : Query RoomDetail := do
  let room ← ensureRoomCreator roomId ownerId
  if memberId = room.createdBy then throw (.badRequest "Room owner cannot be removed")
  else do
    let membership ← Tx.query (fun s => s.roomMembers.get (roomId, memberId))
    if membership.isNone then throw .notFound
    else do
      deleteRoomMember roomId memberId
      roomDetail room ownerId

def pageSize (limit : Nat) : Nat := min limit 100

/-- `get_room_messages`; `limit` is a `u8`. -/
def getRoomMessages (roomId viewerId : Uuid) (beforeId : Option Uuid) (limit : Nat) :
    Query (List RoomMessage) := do
  let _ ← ensureRoomMember roomId viewerId
  let blocked ← listBlockedUserIds viewerId
  match beforeId with
  | some cursorId => do
    let found ← Tx.query (fun s => s.roomMessages.get cursorId)
    let cursor ← Tx.okOr .notFound found
    if cursor.roomId ≠ roomId then throw .notFound
    else Tx.query (fun s => (newestFirst messageKey ((messagesIn s roomId blocked).filter (fun r =>
      decide (r.createdAt < cursor.createdAt ∨
        (r.createdAt = cursor.createdAt ∧ r.id < cursorId))))).take (pageSize limit))
  | none =>
    Tx.query (fun s => (newestFirst messageKey (messagesIn s roomId blocked)).take (pageSize limit))

/-- `mark_room_read`. -/
def markRoomRead (roomId viewerId : Uuid) (now : Int) : Query Nat := do
  let found ← Tx.query (fun s => s.roomMembers.get (roomId, viewerId))
  match found with
  | none => roomAccessError roomId
  | some membership => do
    let unread ← roomUnreadCount roomId viewerId membership.lastReadAt
    updateLastReadAt roomId viewerId now
    pure unread

/-- `leave_room`. -/
def leaveRoom (roomId userId : Uuid) : Query Unit := do
  let membership ← Tx.query (fun s => s.roomMembers.get (roomId, userId))
  if membership.isNone then roomAccessError roomId
  else do
    deleteRoomMember roomId userId
    let remaining ← Tx.query (fun s => (membershipsIn s roomId).length)
    if remaining = 0 then do
      deleteRoomMessages roomId
      deleteRoomRow roomId
    else pure ()

/-- `delete_room`. -/
def deleteRoom (roomId userId : Uuid) : Query Unit := do
  let found ← Tx.query (fun s => s.rooms.get roomId)
  let room ← Tx.okOr .notFound found
  if room.createdBy ≠ userId then throw .forbidden
  else do
    deleteRoomMembers roomId
    deleteRoomMessages roomId
    deleteRoomRow roomId

/-- The operations on rooms, with the readings of the clock and the ids of new rows. -/
inductive RoomOp where
  | createRoom (creatorId : Uuid) (name : String) (memberIds : List Uuid) (roomId : Uuid) (now : Int)
  | getRoom (roomId viewerId : Uuid)
  | renameRoom (roomId ownerId : Uuid) (name : String)
  | addRoomMembers (roomId ownerId : Uuid) (memberIds : List Uuid) (now : Int)
  | removeRoomMember (roomId ownerId memberId : Uuid)
  | getRoomMessages (roomId viewerId : Uuid) (beforeId : Option Uuid) (limit : Nat)
  | sendRoomMessage (new : NewRoomMessage)
  | markRoomRead (roomId viewerId : Uuid) (now : Int)
  | listRoomMemberIds (roomId viewerId : Uuid)
  | leaveRoom (roomId userId : Uuid)
  | deleteRoom (roomId userId : Uuid)
deriving DecidableEq

/-- What an operation answers. -/
inductive RoomAnswer where
  | detail (room : RoomDetail)
  | messages (page : List RoomMessage)
  | message (message : RoomMessage)
  | unread (count : Nat)
  | ids (memberIds : List Uuid)
  | done
deriving DecidableEq

/-- The transaction of an operation. -/
def RoomOp.transaction (unicode : Unicode) : RoomOp → Query RoomAnswer
  | createRoom creatorId name memberIds roomId now => do
    let room ← Rooms.createRoom unicode creatorId name memberIds roomId now
    pure (.detail room)
  | getRoom roomId viewerId => do
    let room ← Rooms.getRoom roomId viewerId
    pure (.detail room)
  | renameRoom roomId ownerId name => do
    let room ← Rooms.renameRoom unicode roomId ownerId name
    pure (.detail room)
  | addRoomMembers roomId ownerId memberIds now => do
    let room ← Rooms.addRoomMembers roomId ownerId memberIds now
    pure (.detail room)
  | removeRoomMember roomId ownerId memberId => do
    let room ← Rooms.removeRoomMember roomId ownerId memberId
    pure (.detail room)
  | getRoomMessages roomId viewerId beforeId limit => do
    let page ← Rooms.getRoomMessages roomId viewerId beforeId limit
    pure (.messages page)
  | sendRoomMessage new => do
    let message ← storeRoomMessage unicode new
    pure (.message message)
  | markRoomRead roomId viewerId now => do
    let count ← Rooms.markRoomRead roomId viewerId now
    pure (.unread count)
  | listRoomMemberIds roomId viewerId => do
    let memberIds ← Messaging.listRoomMemberIds roomId viewerId
    pure (.ids memberIds)
  | leaveRoom roomId userId => do
    Rooms.leaveRoom roomId userId
    pure .done
  | deleteRoom roomId userId => do
    Rooms.deleteRoom roomId userId
    pure .done

/-- The room that an operation is about. -/
def RoomOp.roomId : RoomOp → Uuid
  | createRoom _ _ _ roomId _ => roomId
  | getRoom roomId _ => roomId
  | renameRoom roomId _ _ => roomId
  | addRoomMembers roomId _ _ _ => roomId
  | removeRoomMember roomId _ _ => roomId
  | getRoomMessages roomId _ _ _ => roomId
  | sendRoomMessage new => new.roomId
  | markRoomRead roomId _ _ => roomId
  | listRoomMemberIds roomId _ => roomId
  | leaveRoom roomId _ => roomId
  | deleteRoom roomId _ => roomId

/-- The user who makes an operation. -/
def RoomOp.actor : RoomOp → Uuid
  | createRoom creatorId _ _ _ _ => creatorId
  | getRoom _ viewerId => viewerId
  | renameRoom _ ownerId _ => ownerId
  | addRoomMembers _ ownerId _ _ => ownerId
  | removeRoomMember _ ownerId _ => ownerId
  | getRoomMessages _ viewerId _ _ => viewerId
  | sendRoomMessage new => new.senderId
  | markRoomRead _ viewerId _ => viewerId
  | listRoomMemberIds _ viewerId => viewerId
  | leaveRoom _ userId => userId
  | deleteRoom _ userId => userId

end SyncServer.Rooms
