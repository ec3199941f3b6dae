import SyncServer.Rooms.Times

/-! # What a change of a room returns

`create_room`, `rename_room`, `add_room_members` and `remove_room_member` return the room. The last
two take it from the row which they read before they set `updated_at`.
-/

namespace SyncServer.Rooms.Timed
open Transaction Moderation Messaging WideQuery

/-- The operations that change a room, with the readings of the clock. -/
inductive Mutation where
  | createRoom (creatorId : Uuid) (name : String) (memberIds : List Uuid) (roomId : Uuid)
      (startedAt now : Int)
  | renameRoom (roomId ownerId : Uuid) (name : String) (now : Int)
  | addRoomMembers (roomId ownerId : Uuid) (memberIds : List Uuid) (startedAt now : Int)
  | removeRoomMember (roomId ownerId memberId : Uuid) (now : Int)
deriving DecidableEq

def Mutation.run (unicode : Unicode) : Mutation → WideQuery RoomTimes RoomDetail
  | createRoom creatorId name memberIds roomId startedAt now =>
    Timed.createRoom unicode creatorId name memberIds roomId startedAt now
  | renameRoom roomId ownerId name now => Timed.renameRoom unicode roomId ownerId name now
  | addRoomMembers roomId ownerId memberIds startedAt now =>
    Timed.addRoomMembers roomId ownerId memberIds startedAt now
  | removeRoomMember roomId ownerId memberId now =>
    Timed.removeRoomMember roomId ownerId memberId now

def Mutation.roomId : Mutation → Uuid
  | createRoom _ _ _ roomId _ _ => roomId
  | renameRoom roomId _ _ _ => roomId
  | addRoomMembers roomId _ _ _ _ => roomId
  | removeRoomMember roomId _ _ _ => roomId

def Mutation.actor : Mutation → Uuid
  | createRoom creatorId _ _ _ _ _ => creatorId
  | renameRoom _ ownerId _ _ => ownerId
  | addRoomMembers _ ownerId _ _ _ => ownerId
  | removeRoomMember _ ownerId _ _ => ownerId

def newMembers (s : Db) (roomId ownerId : Uuid) (memberIds : List Uuid) : List Uuid :=
  (requestedMembers ownerId memberIds).filter
    (fun id => id ∉ existingMembers s roomId (requestedMembers ownerId memberIds))

/-- The operation returns the row that it has written, writes no time, or writes the one that the
room had. -/
def Mutation.ReturnsWritten (w : Wide RoomTimes) : Mutation → Prop
  | createRoom .. => True
  | renameRoom .. => True
  | addRoomMembers roomId ownerId memberIds _ now =>
    newMembers w.db roomId ownerId memberIds = [] ∨ now = (w.columns.room roomId).updatedAt
  | removeRoomMember roomId _ _ now => now = (w.columns.room roomId).updatedAt

/-! ## The room that is shown -/

/-- A detail is made of `room` in `w`, where the row of the room may have other times by then. -/
structure ShownAs (room : Room) (roomId viewerId : Uuid) (w : Wide RoomTimes) (d : RoomDetail) :
    Prop where
  id : room.id = roomId
  row : w.db.rooms.get roomId = some room.untimed
  shown : (roomDetail room viewerId).run w = (.ok d, w)

section
variable {w w' : Wide RoomTimes} {room : Room} {roomId viewerId ownerId : Uuid} {d : RoomDetail}

theorem roomSummary_ok {membership : RoomMember} {s : RoomSummary}
    (h : (roomSummary room membership viewerId).run w = (.ok s, w')) :
    w' = w ∧ s.createdAt = room.createdAt ∧ s.updatedAt = room.updatedAt := by
  rw [roomSummary] at h
  replace h := Tx.run_bind_eq_ok h
  obtain ⟨summary, w₁, hsummary, h⟩ := h
  obtain ⟨db, hrun, rfl⟩ := run_onRows_eq_ok.mp hsummary
  obtain rfl : db = w.db := (keeps_roomSummary (π := id) _ _ _).of_run hrun
  cases h
  exact ⟨rfl, rfl, rfl⟩

theorem roomMemberProfiles_ok {l : List RoomMemberProfile}
    (h : (roomMemberProfiles roomId).run w = (.ok l, w')) : w' = w := by
  rw [roomMemberProfiles, Tx.run_bind_ok (Tx.run_query _ _)] at h
  split at h
  · cases h
    rfl
  · rw [Tx.run_bind_ok (run_onRows_read (Tx.run_query _ _))] at h
    cases h
    rfl

theorem roomDetail_ok (h : (roomDetail room viewerId).run w = (.ok d, w')) :
    w' = w ∧ IsMember w.db room.id viewerId ∧ d.createdAt = room.createdAt ∧
      d.updatedAt = room.updatedAt := by
  rw [roomDetail, Tx.run_bind_ok (run_onRows_read (Tx.run_query _ _))] at h
  replace h := Tx.run_bind_eq_ok h
  obtain ⟨membership, w₁, hmembership, h⟩ := h
  obtain ⟨hfound, rfl⟩ := Tx.run_okOr_ok.mp hmembership
  replace h := Tx.run_bind_eq_ok h
  obtain ⟨summary, w₂, hsummary, h⟩ := h
  obtain ⟨rfl, hcreated, hupdated⟩ := roomSummary_ok hsummary
  replace h := Tx.run_bind_eq_ok h
  obtain ⟨members, w₃, hmembers, h⟩ := h
  obtain rfl := roomMemberProfiles_ok hmembers
  cases h
  exact ⟨rfl, Option.isSome_iff_exists.mpr ⟨membership, hfound⟩, hcreated, hupdated⟩

theorem run_getRoom {row : SyncServer.Room} (hrow : w.db.rooms.get roomId = some row)
    (hmember : IsMember w.db roomId viewerId) :
    (getRoom roomId viewerId).run w = (roomDetail (w.columns.row row) viewerId).run w := by
  have hensure : (ensureRoomMember roomId viewerId).run w = (.ok (w.columns.row row), w) := by
    rw [ensureRoomMember, Tx.run_bind_ok (run_onRows_read (ensureRoomMember_ok.mpr
      ⟨hrow, hmember, rfl⟩))]
    rfl
  rw [getRoom, Tx.run_bind_ok hensure]

theorem RoomTimes.row_eq {times : RoomTimes} (h : times.room room.id = room.stamp) :
    times.row room.untimed = room := by
  rw [RoomTimes.row, h]

/-- `get_room` shows the same exactly if the room has the times of the row that was shown. -/
theorem ShownAs.fresh_iff (h : ShownAs room roomId viewerId w d) :
    (getRoom roomId viewerId).run w = (.ok d, w) ↔ w.columns.room roomId = room.stamp := by
  obtain ⟨rfl, hrow, hshown⟩ := h
  obtain ⟨-, hmember, hcreated, hupdated⟩ := roomDetail_ok hshown
  rw [run_getRoom hrow hmember]
  constructor
  · intro hget
    obtain ⟨-, -, hcreated', hupdated'⟩ := roomDetail_ok hget
    have hc : (w.columns.room room.id).createdAt = room.createdAt := hcreated'.symm.trans hcreated
    have hu : (w.columns.room room.id).updatedAt = room.updatedAt := hupdated'.symm.trans hupdated
    exact RoomStamp.ext hc hu
  · intro hstamp
    rw [RoomTimes.row_eq hstamp]
    exact hshown

/-! ## The operations -/

theorem ensureRoomCreator_ok (h : (ensureRoomCreator roomId ownerId).run w = (.ok room, w')) :
    w' = w ∧ w.db.rooms.get roomId = some room.untimed ∧ room.stamp = w.columns.room roomId ∧
      room.createdBy = ownerId ∧ room.id = roomId := by
  rw [ensureRoomCreator] at h
  replace h := Tx.run_bind_eq_ok h
  obtain ⟨row, w₁, hrow, h⟩ := h
  obtain ⟨db, hrun, rfl⟩ := run_onRows_eq_ok.mp hrow
  obtain ⟨rfl, hget, hc, -⟩ := Rooms.ensureRoomCreator_ok hrun
  have hid : row.id = roomId := Table.key_of_get hget
  cases h
  exact ⟨rfl, hget, congrArg w.columns.room hid, hc, hid⟩

theorem insertRoomMembers_ok {records : List RoomMember} {startedAt : Int} {x : Unit}
    (h : (insertRoomMembers records startedAt).run w = (.ok x, w')) :
    w'.db.rooms = w.db.rooms ∧ w'.columns.room = w.columns.room := by
  rw [insertRoomMembers] at h
  replace h := Tx.run_bind_eq_ok h
  obtain ⟨_, w₁, hinsert, h⟩ := h
  obtain ⟨db, hrun, rfl⟩ := run_onRows_eq_ok.mp hinsert
  obtain ⟨t, -, rfl⟩ := Rooms.insertRoomMembers_ok hrun
  cases h
  exact ⟨rfl, rfl⟩

theorem ShownAs.of_roomDetail (h : (roomDetail room viewerId).run w = (.ok d, w'))
    (hid : room.id = roomId) (hrow : w.db.rooms.get roomId = some room.untimed) :
    w' = w ∧ ShownAs room roomId viewerId w d := by
  obtain ⟨rfl, -⟩ := roomDetail_ok h
  exact ⟨rfl, hid, hrow, h⟩

theorem createRoom_shown {unicode : Unicode} {name : String} {memberIds : List Uuid}
    {startedAt now : Int}
    (h : (createRoom unicode ownerId name memberIds roomId startedAt now).run w = (.ok d, w')) :
    ∃ room, ShownAs room roomId ownerId w' d ∧ w'.columns.room roomId = room.stamp := by
  rw [createRoom] at h
  replace h := Tx.run_bind_eq_ok h
  obtain ⟨roomName, w₁, hname, h⟩ := h
  obtain ⟨-, rfl⟩ := Prod.mk.inj hname
  obtain ⟨_, w₂, husers, h⟩ := Tx.run_bind_eq_ok h
  obtain ⟨db, hrun, rfl⟩ := run_onRows_eq_ok.mp husers
  obtain rfl := ensureUsersExist_ok hrun
  obtain ⟨room, w₃, hroom, h⟩ := Tx.run_bind_eq_ok h
  rw [insertRoom] at hroom
  obtain ⟨row, w₄, hinsert, hread⟩ := Tx.run_bind_eq_ok hroom
  obtain ⟨db, hadd, rfl⟩ := run_onRows_eq_ok.mp hinsert
  obtain ⟨rfl, t, ht, rfl⟩ := insertRoom_ok hadd
  cases hread
  obtain ⟨_, w₅, hmembers, h⟩ := Tx.run_bind_eq_ok h
  obtain ⟨hrooms, htimes⟩ := insertRoomMembers_ok hmembers
  obtain ⟨rfl, hshown⟩ := ShownAs.of_roomDetail h rfl
    (by rw [hrooms]; exact Table.get_insert_self ht)
  exact ⟨_, hshown, congrFun htimes roomId⟩

theorem renameRoom_shown {unicode : Unicode} {name : String} {now : Int}
    (h : (renameRoom unicode roomId ownerId name now).run w = (.ok d, w')) :
    ∃ room, ShownAs room roomId ownerId w' d ∧ w'.columns.room roomId = room.stamp := by
  rw [renameRoom] at h
  replace h := Tx.run_bind_eq_ok h
  obtain ⟨room, w₁, hroom, h⟩ := h
  obtain ⟨rfl, hget, hstamp, -, hid⟩ := ensureRoomCreator_ok hroom
  obtain ⟨roomName, w₂, hname, h⟩ := Tx.run_bind_eq_ok h
  obtain ⟨-, rfl⟩ := Prod.mk.inj hname
  obtain ⟨updated, w₃, hupdate, h⟩ := Tx.run_bind_eq_ok h
  by_cases hsame : room.name = roomName
  · rw [if_pos hsame] at hupdate
    cases hupdate
    obtain ⟨rfl, hshown⟩ := ShownAs.of_roomDetail h hid hget
    exact ⟨room, hshown, hstamp.symm⟩
  · rw [if_neg hsame, updateRoomName] at hupdate
    obtain ⟨row, w₄, hrow, hread⟩ := Tx.run_bind_eq_ok hupdate
    obtain ⟨db, hrun, rfl⟩ := run_onRows_eq_ok.mp hrow
    have hup := Query.run_exec_ok.mp hrun
    simp only [hget, Except.ok.injEq, Prod.mk.injEq] at hup
    obtain ⟨rfl, rfl⟩ := hup
    cases hread
    have hrow : (w₁.db.rooms.update roomId (renamed roomName) (renamed_id roomName)).get roomId =
        some (renamed roomName room.untimed) := by
      rw [Table.get_update_self, hget]
      rfl
    obtain ⟨rfl, hshown⟩ := ShownAs.of_roomDetail h hid hrow
    exact ⟨_, hshown, congrArg _ hid.symm⟩

theorem addRoomMembers_shown {memberIds : List Uuid} {startedAt now : Int}
    (h : (addRoomMembers roomId ownerId memberIds startedAt now).run w = (.ok d, w')) :
    ∃ room, ShownAs room roomId ownerId w' d ∧ room.stamp = w.columns.room roomId ∧
      w'.columns.room roomId = if newMembers w.db roomId ownerId memberIds = [] then room.stamp
        else { room.stamp with updatedAt := now } := by
  rw [addRoomMembers] at h
  replace h := Tx.run_bind_eq_ok h
  obtain ⟨room, w₁, hroom, h⟩ := h
  obtain ⟨rfl, hget, hstamp, -, hid⟩ := ensureRoomCreator_ok hroom
  have hnobody : newMembers w₁.db roomId ownerId memberIds = [] →
      (roomDetail room ownerId).run w₁ = (.ok d, w') →
      ∃ room, ShownAs room roomId ownerId w' d ∧ room.stamp = w₁.columns.room roomId ∧
        w'.columns.room roomId = if newMembers w₁.db roomId ownerId memberIds = [] then room.stamp
          else { room.stamp with updatedAt := now } := by
    intro hnew hdetail
    obtain ⟨rfl, hshown⟩ := ShownAs.of_roomDetail hdetail hid hget
    exact ⟨room, hshown, hstamp, by rw [if_pos hnew, hstamp]⟩
  dsimp only at h
  split at h
  · rename_i hempty
    exact hnobody (by rw [newMembers, hempty]; rfl) h
  obtain ⟨_, w₂, husers, h⟩ := Tx.run_bind_eq_ok h
  obtain ⟨db, hrun, rfl⟩ := run_onRows_eq_ok.mp husers
  obtain rfl := ensureUsersExist_ok hrun
  rw [Wide.setDb_self, Tx.run_bind_ok (run_onRows_read (Tx.run_query _ _))] at h
  split at h
  · rename_i hnew
    exact hnobody hnew h
  · rename_i hnew
    change ¬ newMembers w₁.db roomId ownerId memberIds = [] at hnew
    obtain ⟨_, w₃, hmembers, h⟩ := Tx.run_bind_eq_ok h
    obtain ⟨hrooms, htimes⟩ := insertRoomMembers_ok hmembers
    rw [touchRoom, Tx.run_bind_ok (run_setColumns _ _)] at h
    obtain ⟨rfl, hshown⟩ := ShownAs.of_roomDetail h hid (by rw [← hget, ← hrooms])
    refine ⟨room, hshown, hstamp, ?_⟩
    rw [if_neg hnew, hstamp, ← htimes]
    simp [RoomTimes.touch]

theorem removeRoomMember_shown {memberId : Uuid} {now : Int}
    (h : (removeRoomMember roomId ownerId memberId now).run w = (.ok d, w')) :
    ∃ room, ShownAs room roomId ownerId w' d ∧ room.stamp = w.columns.room roomId ∧
      w'.columns.room roomId = { room.stamp with updatedAt := now } := by
  rw [removeRoomMember] at h
  replace h := Tx.run_bind_eq_ok h
  obtain ⟨room, w₁, hroom, h⟩ := h
  obtain ⟨rfl, hget, hstamp, -, hid⟩ := ensureRoomCreator_ok hroom
  split at h
  · cases h
  rw [Tx.run_bind_ok (run_onRows_read (Tx.run_query _ _))] at h
  split at h
  · cases h
  obtain ⟨_, w₂, hdelete, h⟩ := Tx.run_bind_eq_ok h
  obtain ⟨db, hrun, rfl⟩ := run_onRows_eq_ok.mp hdelete
  obtain ⟨-, rfl⟩ := Prod.mk.inj hrun
  rw [touchRoom, Tx.run_bind_ok (run_setColumns _ _)] at h
  have hrow : (withoutMember roomId memberId w₁.db).rooms.get roomId = some room.untimed := hget
  obtain ⟨rfl, hshown⟩ := ShownAs.of_roomDetail h hid hrow
  exact ⟨room, hshown, hstamp, by simp [RoomTimes.touch, hstamp]⟩

end

theorem RoomStamp.touched_eq_iff (stamp : RoomStamp) (now : Int) :
    ({ stamp with updatedAt := now } : RoomStamp) = stamp ↔ now = stamp.updatedAt := by
  cases stamp
  simp

/-- What a change of a room returns is what `get_room` shows then, exactly if the operation returns
the row that it has written, writes no time, or writes the one that the room had. -/
theorem mutation_fresh_iff (unicode : Unicode) (op : Mutation) (w w' : Wide RoomTimes)
    (d : RoomDetail) (h : (op.run unicode).run w = (.ok d, w')) :
    (getRoom op.roomId op.actor).run w' = (.ok d, w') ↔ op.ReturnsWritten w := by
  cases op with
  | createRoom creatorId name memberIds roomId startedAt now =>
    obtain ⟨room, hshown, hstamp⟩ := createRoom_shown h
    exact hshown.fresh_iff.trans (iff_true_intro hstamp)
  | renameRoom roomId ownerId name now =>
    obtain ⟨room, hshown, hstamp⟩ := renameRoom_shown h
    exact hshown.fresh_iff.trans (iff_true_intro hstamp)
  | addRoomMembers roomId ownerId memberIds startedAt now =>
    obtain ⟨room, hshown, hbefore, hstamp⟩ := addRoomMembers_shown h
    refine hshown.fresh_iff.trans ?_
    rw [hstamp, Mutation.ReturnsWritten, ← hbefore]
    by_cases hnew : newMembers w.db roomId ownerId memberIds = []
    · simp [hnew]
    · simp only [hnew, if_false, false_or]
      exact RoomStamp.touched_eq_iff room.stamp now
  | removeRoomMember roomId ownerId memberId now =>
    obtain ⟨room, hshown, hbefore, hstamp⟩ := removeRoomMember_shown h
    refine hshown.fresh_iff.trans ?_
    rw [hstamp, Mutation.ReturnsWritten, ← hbefore]
    exact RoomStamp.touched_eq_iff room.stamp now

/-- Room 9 of Alice (1) and Bob (2); Carol (3) is not in it. -/
def teaRoom : Wide RoomTimes where
  db :=
    let user (id : Uuid) (name : String) : User :=
      ⟨id, name, name, "", none, none, none, "user", true, none, true, none, 0, none⟩
    { Db.empty with
      users := ⟨[user 1 "ada", user 2 "bob", user 3 "carol"], by simp [user]⟩
      rooms := .single ⟨9, "Tea", 1⟩
      roomMembers := ⟨[⟨9, 1, "owner", some 100⟩, ⟨9, 2, "member", some 100⟩],
        by simp [RoomMember.key]⟩ }
  columns := ⟨fun _ => ⟨100, 100⟩, fun _ => 100⟩

theorem mutation_fresh_known : ∃ d, (getRoom 9 1).run teaRoom = (.ok d, teaRoom) :=
  ⟨_, (mutation_fresh_iff .ascii (.addRoomMembers 9 1 [2] 500 501) teaRoom teaRoom _ rfl).mpr
    (.inl (by decide))⟩

/-- Carol is added at 501; the room is returned with the time 100, and shown with 501. -/
theorem added_member_stale :
    ∃ d w', ((Mutation.addRoomMembers 9 1 [3] 500 501).run .ascii).run teaRoom = (.ok d, w') ∧
      d.updatedAt = 100 ∧ (getRoom 9 1).run w' ≠ (.ok d, w') := by
  refine ⟨_, _, rfl, rfl, fun hsame => ?_⟩
  have hupdated := congrArg (fun r => r.1.toOption.map (fun d : RoomDetail => d.updatedAt)) hsame
  revert hupdated
  decide

end SyncServer.Rooms.Timed
