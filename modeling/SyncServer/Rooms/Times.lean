import SyncServer.Columns
import SyncServer.Rooms.Effects

/-! # Rooms with their times

The room service over rooms with `created_at` and `updated_at`, and memberships with `joined_at`. A
new row gets the time at which its transaction began, a changed room the time of the change. Rows of
the same time are listed in the order of their insertion. Without the times these are the operations
of the room service.
-/

namespace SyncServer.Rooms.Timed
open Transaction Moderation Messaging WideQuery

@[ext] structure RoomStamp where
  createdAt : Int
  updatedAt : Int
deriving DecidableEq, Repr

/-- The times of rooms, by id, and of memberships, by key. -/
structure RoomTimes where
  room : Uuid → RoomStamp
  joinedAt : Uuid × Uuid → Int

structure Room extends untimed : SyncServer.Room, stamp : RoomStamp
deriving DecidableEq, Repr

structure RoomMemberProfile extends untimed : Rooms.RoomMemberProfile where
  joinedAt : Int
deriving DecidableEq, Repr

structure RoomSummary extends untimed : Rooms.RoomSummary where
  createdAt : Int
  updatedAt : Int
deriving DecidableEq, Repr

structure RoomDetail extends RoomSummary where
  members : List RoomMemberProfile
deriving DecidableEq, Repr

/-- A row of `rooms` with its times. -/
def RoomTimes.row (times : RoomTimes) (room : SyncServer.Room) : Room :=
  { room, times.room room.id with }

/-- A row of `rooms` that was just read or written. -/
def withTimes (room : SyncServer.Room) : WideQuery RoomTimes Room :=
  Tx.query (fun w => w.columns.row room)

/-! ## What a viewer sees -/

/-- `room_summary_conn`. -/
def roomSummary (room : Room) (membership : RoomMember) (viewerId : Uuid) :
    WideQuery RoomTimes RoomSummary := do
  let summary ← onRows (Rooms.roomSummary room.untimed membership viewerId)
  pure { summary with createdAt := room.createdAt, updatedAt := room.updatedAt }

/-- The memberships of a room `ORDER BY joined_at`. -/
def membershipsByJoin (w : Wide RoomTimes) (roomId : Uuid) : List RoomMember :=
  (membershipsIn w.db roomId).insertionSort
    (fun a b => w.columns.joinedAt a.key ≤ w.columns.joinedAt b.key)

def profileOf (accounts : List User) (joinedAt : Uuid × Uuid → Int) (membership : RoomMember) :
    Option RoomMemberProfile :=
  (Rooms.profileOf accounts membership).map (fun p =>
    { p with joinedAt := joinedAt membership.key })

/-- `room_member_profiles_conn`. -/
def roomMemberProfiles (roomId : Uuid) : WideQuery RoomTimes (List RoomMemberProfile) := do
  let memberships ← Tx.query (fun w => membershipsByJoin w roomId)
  if memberships = [] then pure []
  else do
    let accounts ← onRows (Tx.query (fun s =>
      s.users.rows.filter (fun u => u.id ∈ memberships.map RoomMember.userId)))
    Tx.query (fun w => memberships.filterMap (profileOf accounts w.columns.joinedAt))

/-- `room_detail_conn`. -/
def roomDetail (room : Room) (viewerId : Uuid) : WideQuery RoomTimes RoomDetail := do
  let found ← onRows (Tx.query (fun s => s.roomMembers.get (room.id, viewerId)))
  let membership ← Tx.okOr (.database .notFound) found
  let summary ← roomSummary room membership viewerId
  let members ← roomMemberProfiles room.id
  pure { summary with members := members }

/-- `ensure_room_member_conn`. -/
def ensureRoomMember (roomId viewerId : Uuid) : WideQuery RoomTimes Room := do
  let room ← onRows (Messaging.ensureRoomMember roomId viewerId)
  withTimes room

def ensureRoomCreator (roomId ownerId : Uuid) : WideQuery RoomTimes Room := do
  let room ← onRows (Rooms.ensureRoomCreator roomId ownerId)
  withTimes room

/-! ## Statements -/

def RoomTimes.touch (roomId : Uuid) (now : Int) (t : RoomTimes) : RoomTimes :=
  { t with room := Function.update t.room roomId { t.room roomId with updatedAt := now } }

def RoomTimes.begin (roomId : Uuid) (startedAt : Int) (t : RoomTimes) : RoomTimes :=
  { t with room := Function.update t.room roomId ⟨startedAt, startedAt⟩ }

def RoomTimes.join (keys : List (Uuid × Uuid)) (startedAt : Int) (t : RoomTimes) : RoomTimes :=
  { t with joinedAt := fun k => if k ∈ keys then startedAt else t.joinedAt k }

/-- `INSERT INTO rooms`. -/
def insertRoom (room : SyncServer.Room) (startedAt : Int) : WideQuery RoomTimes Room := do
  let room ← onRows (Rooms.insertRoom room)
  setColumns (RoomTimes.begin room.id startedAt)
  withTimes room

/-- `INSERT INTO room_members` of several rows. -/
def insertRoomMembers (records : List RoomMember) (startedAt : Int) : WideQuery RoomTimes Unit := do
  onRows (Rooms.insertRoomMembers records)
  setColumns (RoomTimes.join (records.map RoomMember.key) startedAt)

/-- `UPDATE rooms SET name, updated_at`. -/
def updateRoomName (roomId : Uuid) (name : String) (now : Int) : WideQuery RoomTimes Room := do
  let room ← onRows (Rooms.updateRoomName roomId name)
  setColumns (RoomTimes.touch roomId now)
  withTimes room

/-- `UPDATE rooms SET updated_at`. -/
def touchRoom (roomId : Uuid) (now : Int) : WideQuery RoomTimes Unit :=
  setColumns (RoomTimes.touch roomId now)

/-! ## The operations -/

/-- `create_room`. -/
def createRoom (unicode : Unicode) (creatorId : Uuid) (name : String) (memberIds : List Uuid)
    (roomId : Uuid) (startedAt now : Int) : WideQuery RoomTimes RoomDetail := do
  let roomName ← Tx.done (normalizeRoomName unicode name)
  onRows (ensureUsersExist (normalizeMemberIds creatorId memberIds))
  let room ← insertRoom ⟨roomId, roomName, creatorId⟩ startedAt
  insertRoomMembers (firstMembers room.id creatorId (normalizeMemberIds creatorId memberIds) now)
    startedAt
  roomDetail room creatorId

/-- `get_room`. -/
def getRoom (roomId viewerId : Uuid) : WideQuery RoomTimes RoomDetail := do
  let room ← ensureRoomMember roomId viewerId
  roomDetail room viewerId

/-- `rename_room`. -/
def renameRoom (unicode : Unicode) (roomId ownerId : Uuid) (name : String) (now : Int) :
    WideQuery RoomTimes RoomDetail := do
  let room ← ensureRoomCreator roomId ownerId
  let roomName ← Tx.done (normalizeRoomName unicode name)
  let updated ← (if room.name = roomName then pure room else updateRoomName roomId roomName now)
  roomDetail updated ownerId

def requestedMembers (ownerId : Uuid) (memberIds : List Uuid) : List Uuid :=
  btreeSet (memberIds.filter (fun id => id ≠ ownerId))

def existingMembers (s : Db) (roomId : Uuid) (requested : List Uuid) : List Uuid :=
  ((membershipsIn s roomId).map RoomMember.userId).filter (fun id => id ∈ requested)

/-- `add_room_members`. -/
def addRoomMembers (roomId ownerId : Uuid) (memberIds : List Uuid) (startedAt now : Int) :
    WideQuery RoomTimes RoomDetail := do
  let room ← ensureRoomCreator roomId ownerId
  let requested := requestedMembers ownerId memberIds
  if requested = [] then roomDetail room ownerId
  else do
    onRows (ensureUsersExist requested)
    let existing ← onRows (Tx.query (fun s => existingMembers s roomId requested))
    let new := requested.filter (fun id => id ∉ existing)
    if new = [] then roomDetail room ownerId
    else do
      insertRoomMembers (addedMembers roomId new now) startedAt
      touchRoom roomId now
      -- The room as it was before.
      roomDetail room ownerId

/-- `remove_room_member`. -/
def removeRoomMember (roomId ownerId memberId : Uuid) (now : Int) :
    WideQuery RoomTimes RoomDetail := do
  let room ← ensureRoomCreator roomId ownerId
  if memberId = room.createdBy then throw (.badRequest "Room owner cannot be removed")
  else do
    let membership ← onRows (Tx.query (fun s => s.roomMembers.get (roomId, memberId)))
    if membership.isNone then throw .notFound
    else do
      onRows (deleteRoomMember roomId memberId)
      touchRoom roomId now
      -- The room as it was before.
      roomDetail room ownerId

def summariesOf (rooms : List Room) (viewerId : Uuid) :
    List RoomMember → WideQuery RoomTimes (List RoomSummary)
  | [] => pure []
  | membership :: rest =>
    match rooms.find? (fun r => r.id = membership.roomId) with
    | none => summariesOf rooms viewerId rest
    | some room => do
      let summary ← roomSummary room membership viewerId
      let summaries ← summariesOf rooms viewerId rest
      pure (summary :: summaries)

def RoomSummary.latestAt (s : RoomSummary) : Int := s.lastMessageAt.getD s.updatedAt

/-- The memberships of a viewer `ORDER BY joined_at DESC`. -/
def membershipsOf (w : Wide RoomTimes) (viewerId : Uuid) : List RoomMember :=
  (w.db.roomMembers.rows.filter (fun r => r.userId = viewerId)).insertionSort
    (fun a b => w.columns.joinedAt b.key ≤ w.columns.joinedAt a.key)

/-- `list_rooms`. -/
def listRooms (viewerId : Uuid) : WideQuery RoomTimes (List RoomSummary) := do
  let memberships ← Tx.query (fun w => membershipsOf w viewerId)
  if memberships = [] then pure []
  else do
    let rooms ← Tx.query (fun w => (w.db.rooms.rows.filter (fun r =>
      r.id ∈ memberships.map RoomMember.roomId)).map w.columns.row)
    let summaries ← summariesOf rooms viewerId memberships
    pure (summaries.insertionSort (fun a b => b.latestAt ≤ a.latestAt))

/-! ## Without the times -/

def SameDetail (d : RoomDetail) (d' : Rooms.RoomDetail) : Prop :=
  d.untimed = d'.toRoomSummary ∧ (d.members.map RoomMemberProfile.untimed).Perm d'.members

theorem untimed_profileOf (accounts : List User) (joinedAt : Uuid × Uuid → Int)
    (l : List RoomMember) :
    (l.filterMap (profileOf accounts joinedAt)).map RoomMemberProfile.untimed =
      l.filterMap (Rooms.profileOf accounts) := by
  rw [List.map_filterMap]
  congr 1
  funext m
  simp [profileOf, Function.comp_def]

theorem erases_roomMemberProfiles (roomId : Uuid) :
    Erases (fun l l' => (l.map RoomMemberProfile.untimed).Perm l')
      (roomMemberProfiles roomId) (Rooms.roomMemberProfiles roomId) := by
  have hperm (w : Wide RoomTimes) : (membershipsByJoin w roomId).Perm (membershipsIn w.db roomId) :=
    List.perm_insertionSort _ _
  refine Erases.bind (R := List.Perm) (Erases.query hperm) (fun l l' hl => ?_)
  have hnil : l = [] ↔ l' = [] := ⟨fun h => (h ▸ hl).nil_eq.symm, fun h => (h ▸ hl).eq_nil⟩
  simp only [hnil]
  refine .ite (fun _ => .pure (by simp_all)) (fun _ => ?_)
  have hids : (fun s : Db => s.users.rows.filter (fun u => u.id ∈ l.map RoomMember.userId)) =
      fun s : Db => s.users.rows.filter (fun u => u.id ∈ l'.map RoomMember.userId) := by
    funext s
    simp only [(hl.map RoomMember.userId).mem_iff]
  rw [hids]
  refine (Erases.onRows _).bind (fun accounts _ haccounts w => ?_)
  subst haccounts
  refine ⟨.ok ?_, rfl⟩
  rw [untimed_profileOf]
  exact hl.filterMap _

theorem erases_roomSummary (room : Room) (membership : RoomMember) (viewerId : Uuid) :
    Erases (fun s s' => s.untimed = s') (roomSummary room membership viewerId)
      (Rooms.roomSummary room.untimed membership viewerId) := by
  rw [roomSummary, ← Tx.bind_pure (Rooms.roomSummary room.untimed membership viewerId)]
  exact (Erases.onRows _).bind (fun _ _ h => .pure h)

theorem erases_roomDetail (room : Room) (viewerId : Uuid) :
    Erases SameDetail (roomDetail room viewerId) (Rooms.roomDetail room.untimed viewerId) := by
  refine (Erases.onRows _).bind (fun found _ hfound => ?_)
  subst hfound
  refine (Erases.okOr _ found).bind (fun membership _ hmembership => ?_)
  subst hmembership
  refine (erases_roomSummary room membership viewerId).bind (fun summary _ hsummary => ?_)
  exact (erases_roomMemberProfiles room.id).bind (fun _ _ hmembers => .pure ⟨hsummary, hmembers⟩)

theorem erases_withTimes (room : SyncServer.Room) :
    Erases (fun r r' => r.untimed = r') (withTimes room) (pure room) := fun _ => ⟨.ok rfl, rfl⟩

theorem erases_getRoom (roomId viewerId : Uuid) :
    Erases SameDetail (getRoom roomId viewerId) (Rooms.getRoom roomId viewerId) := by
  refine Erases.bind (R := fun r r' => r.untimed = r') ?_ (fun room _ hroom => ?_)
  · exact .onRows_bind erases_withTimes
  · subst hroom
    exact erases_roomDetail room viewerId

theorem erases_ensureRoomCreator (roomId ownerId : Uuid) :
    Erases (fun r r' => r.untimed = r') (ensureRoomCreator roomId ownerId)
      (Rooms.ensureRoomCreator roomId ownerId) := .onRows_bind erases_withTimes

theorem erases_insertRoom (room : SyncServer.Room) (startedAt : Int) :
    Erases (fun r r' => r.untimed = r') (insertRoom room startedAt) (Rooms.insertRoom room) :=
  .onRows_bind (fun room => .setColumns_bind (erases_withTimes room))

theorem erases_updateRoomName (roomId : Uuid) (name : String) (now : Int) :
    Erases (fun r r' => r.untimed = r') (updateRoomName roomId name now)
      (Rooms.updateRoomName roomId name) :=
  .onRows_bind (fun room => .setColumns_bind (erases_withTimes room))

theorem erases_insertRoomMembers (records : List RoomMember) (startedAt : Int) :
    Erases Eq (insertRoomMembers records startedAt) (Rooms.insertRoomMembers records) :=
  .onRows_bind (fun _ _ => ⟨.ok rfl, rfl⟩)

theorem erases_createRoom (unicode : Unicode) (creatorId : Uuid) (name : String)
    (memberIds : List Uuid) (roomId : Uuid) (startedAt now : Int) :
    Erases SameDetail (createRoom unicode creatorId name memberIds roomId startedAt now)
      (Rooms.createRoom unicode creatorId name memberIds roomId now) := by
  refine (Erases.done _).bind (fun roomName _ hname => ?_)
  subst hname
  refine (Erases.onRows _).bind (fun _ _ _ => ?_)
  refine (erases_insertRoom _ startedAt).bind (fun room _ hroom => ?_)
  subst hroom
  refine (erases_insertRoomMembers _ startedAt).bind (fun _ _ _ => ?_)
  exact erases_roomDetail room creatorId

theorem erases_renameRoom (unicode : Unicode) (roomId ownerId : Uuid) (name : String) (now : Int) :
    Erases SameDetail (renameRoom unicode roomId ownerId name now)
      (Rooms.renameRoom unicode roomId ownerId name) := by
  refine (erases_ensureRoomCreator roomId ownerId).bind (fun room _ hroom => ?_)
  subst hroom
  refine (Erases.done _).bind (fun roomName _ hname => ?_)
  subst hname
  refine Erases.bind (R := fun r r' => r.untimed = r') ?_ (fun updated _ hupdated => ?_)
  · exact .ite (fun _ => .pure rfl) (fun _ => erases_updateRoomName roomId roomName now)
  · subst hupdated
    exact erases_roomDetail updated ownerId

theorem erases_addRoomMembers (roomId ownerId : Uuid) (memberIds : List Uuid)
    (startedAt now : Int) :
    Erases SameDetail (addRoomMembers roomId ownerId memberIds startedAt now)
      (Rooms.addRoomMembers roomId ownerId memberIds now) := by
  refine (erases_ensureRoomCreator roomId ownerId).bind (fun room _ hroom => ?_)
  subst hroom
  refine .ite (fun _ => erases_roomDetail room ownerId) (fun _ => ?_)
  refine (Erases.onRows _).bind (fun _ _ _ => ?_)
  refine (Erases.onRows _).bind (fun existing _ hexisting => ?_)
  subst hexisting
  refine .ite (fun _ => erases_roomDetail room ownerId) (fun _ => ?_)
  refine (erases_insertRoomMembers _ startedAt).bind (fun _ _ _ => ?_)
  exact .setColumns_bind (erases_roomDetail room ownerId)

theorem erases_removeRoomMember (roomId ownerId memberId : Uuid) (now : Int) :
    Erases SameDetail (removeRoomMember roomId ownerId memberId now)
      (Rooms.removeRoomMember roomId ownerId memberId) := by
  refine (erases_ensureRoomCreator roomId ownerId).bind (fun room _ hroom => ?_)
  subst hroom
  refine .ite (fun _ => .throw _) (fun _ => ?_)
  refine (Erases.onRows _).bind (fun membership _ hmembership => ?_)
  subst hmembership
  refine .ite (fun _ => .throw _) (fun _ => ?_)
  refine (Erases.onRows _).bind (fun _ _ _ => ?_)
  exact .setColumns_bind (erases_roomDetail room ownerId)

end SyncServer.Rooms.Timed
