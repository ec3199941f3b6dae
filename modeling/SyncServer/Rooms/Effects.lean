import SyncServer.Accounts.Deletion
import SyncServer.Rooms.Service

/-! # What room operations do

One inversion for every operation that succeeds: what it required, and the database that it left.
-/

namespace SyncServer.Rooms
open Transaction Moderation Messaging

/-- `u` is a member of room `r`. -/
def IsMember (s : Db) (r u : Uuid) : Prop := (s.roomMembers.get (r, u)).isSome

/-- `u` has created room `r`. -/
def IsCreator (s : Db) (r u : Uuid) : Prop := ∃ room, s.rooms.get r = some room ∧ room.createdBy = u

instance (s : Db) (r u : Uuid) : Decidable (IsMember s r u) := inferInstanceAs (Decidable (_ = true))

def withReader (roomId userId : Uuid) (now : Int) (s : Db) : Db :=
  { s with
    roomMembers := s.roomMembers.update (roomId, userId) (readAt now) (readAt_key now) }

/-- What a successful operation required in `s`, and the database that it leaves. -/
inductive RoomEffect (s : Db) : RoomOp → Db → Prop where
  | created (creatorId : Uuid) (name : String) (memberIds : List Uuid) (roomId : Uuid) (now : Int)
      (roomName : String) (t : Table Uuid Room Room.id)
      (t' : Table (Uuid × Uuid) RoomMember RoomMember.key)
      (hroom : s.rooms.insert ⟨roomId, roomName, creatorId⟩ = some t)
      (hmembers : t'.rows = s.roomMembers.rows ++
        firstMembers roomId creatorId (normalizeMemberIds creatorId memberIds) now) :
      RoomEffect s (.createRoom creatorId name memberIds roomId now)
        { s with rooms := t, roomMembers := t' }
  | shown (roomId viewerId : Uuid) (h : IsMember s roomId viewerId) :
      RoomEffect s (.getRoom roomId viewerId) s
  | kept (roomId ownerId : Uuid) (name : String) (h : IsMember s roomId ownerId)
      (hc : IsCreator s roomId ownerId) : RoomEffect s (.renameRoom roomId ownerId name) s
  | renamed (roomId ownerId : Uuid) (name roomName : String) (h : IsMember s roomId ownerId)
      (hc : IsCreator s roomId ownerId) :
      RoomEffect s (.renameRoom roomId ownerId name)
        { s with rooms := s.rooms.update roomId (renamed roomName) (renamed_id roomName) }
  | added (roomId ownerId : Uuid) (memberIds : List Uuid) (now : Int) (new : List Uuid)
      (t : Table (Uuid × Uuid) RoomMember RoomMember.key) (h : IsMember s roomId ownerId)
      (hc : IsCreator s roomId ownerId) (hnew : ∀ id ∈ new, id ∈ memberIds)
      (hmembers : t.rows = s.roomMembers.rows ++ addedMembers roomId new now) :
      RoomEffect s (.addRoomMembers roomId ownerId memberIds now) { s with roomMembers := t }
  | removed (roomId ownerId memberId : Uuid) (h : IsMember s roomId ownerId)
      (hc : IsCreator s roomId ownerId) (hne : memberId ≠ ownerId) :
      RoomEffect s (.removeRoomMember roomId ownerId memberId) (withoutMember roomId memberId s)
  | listed (roomId viewerId : Uuid) (beforeId : Option Uuid) (limit : Nat)
      (h : IsMember s roomId viewerId) :
      RoomEffect s (.getRoomMessages roomId viewerId beforeId limit) s
  | sent (new : NewRoomMessage) (t : Table Uuid RoomMessage RoomMessage.id)
      (h : IsMember s new.roomId new.senderId)
      (hmessage : t.rows = s.roomMessages.rows ++ [new.row]) :
      RoomEffect s (.sendRoomMessage new) (withRoomMessage new t s)
  | marked (roomId viewerId : Uuid) (now : Int) (h : IsMember s roomId viewerId) :
      RoomEffect s (.markRoomRead roomId viewerId now) (withReader roomId viewerId now s)
  | named (roomId viewerId : Uuid) (h : IsMember s roomId viewerId) :
      RoomEffect s (.listRoomMemberIds roomId viewerId) s
  | left (roomId userId : Uuid) (h : IsMember s roomId userId)
      (hrest : membershipsIn (withoutMember roomId userId s) roomId ≠ []) :
      RoomEffect s (.leaveRoom roomId userId) (withoutMember roomId userId s)
  | emptied (roomId userId : Uuid) (h : IsMember s roomId userId)
      (hrest : membershipsIn (withoutMember roomId userId s) roomId = []) :
      RoomEffect s (.leaveRoom roomId userId) (withoutRoom roomId s)
  | deleted (roomId userId : Uuid) (hc : IsCreator s roomId userId) :
      RoomEffect s (.deleteRoom roomId userId) (withoutRoom roomId s)

/-! ## Reading parts -/

section
variable {τ : Type} {π : Db → τ}

theorem keeps_roomUnreadCount (roomId viewerId : Uuid) (lastReadAt : Option Int) :
    (roomUnreadCount roomId viewerId lastReadAt).Keeps π :=
  Tx.keeps_bind (Tx.keeps_query _ _) (fun _ => Tx.keeps_query _ _)

theorem keeps_roomSummary (room : Room) (membership : RoomMember) (viewerId : Uuid) :
    (roomSummary room membership viewerId).Keeps π := by
  apply Tx.keeps_bind (Tx.keeps_query _ _)
  intro blocked
  apply Tx.keeps_bind (Tx.keeps_query _ _)
  intro memberCount
  apply Tx.keeps_bind (Tx.keeps_query _ _)
  intro latest
  exact Tx.keeps_bind (keeps_roomUnreadCount _ _ _) (fun _ => Tx.keeps_pure _ _)

theorem keeps_roomMemberProfiles (roomId : Uuid) : (roomMemberProfiles roomId).Keeps π := by
  apply Tx.keeps_bind (Tx.keeps_query _ _)
  intro memberships
  split
  · exact Tx.keeps_pure _ _
  · exact Tx.keeps_bind (Tx.keeps_query _ _) (fun _ => Tx.keeps_pure _ _)

theorem keeps_roomDetail (room : Room) (viewerId : Uuid) : (roomDetail room viewerId).Keeps π := by
  apply Tx.keeps_bind (Tx.keeps_query _ _)
  intro found
  apply Tx.keeps_bind (Tx.keeps_okOr _ _ found)
  intro membership
  apply Tx.keeps_bind (keeps_roomSummary _ _ _)
  intro summary
  exact Tx.keeps_bind (keeps_roomMemberProfiles _) (fun _ => Tx.keeps_pure _ _)

end

section
variable {s s' : Db} {roomId : Uuid}

theorem roomDetail_ok {room : Room} {viewerId : Uuid} {d : RoomDetail}
    (h : (roomDetail room viewerId).run s = (.ok d, s')) : s' = s :=
  (keeps_roomDetail (π := id) room viewerId).of_run h

theorem roomAccessError_ne {α : Type} {a : α} :
    (roomAccessError roomId : Query α).run s ≠ (.ok a, s') := by
  intro h
  obtain ⟨room, s₁, -, h⟩ := Tx.run_bind_eq_ok h
  split at h <;> cases h

theorem ensureRoomCreator_ok {ownerId : Uuid} {room : Room}
    (h : (ensureRoomCreator roomId ownerId).run s = (.ok room, s')) :
    s' = s ∧ s.rooms.get roomId = some room ∧ room.createdBy = ownerId ∧
      IsMember s roomId ownerId := by
  unfold ensureRoomCreator at h
  replace h := Tx.run_bind_eq_ok h
  obtain ⟨found, s₁, hfound, h⟩ := h
  obtain ⟨hroom, hmember, rfl⟩ := ensureRoomMember_ok.mp hfound
  split at h
  · cases h
  · rename_i hc
    cases h
    exact ⟨rfl, hroom, not_not.mp hc, hmember⟩

theorem ensureUsersExist_ok {memberIds : List Uuid} {x : Unit}
    (h : (ensureUsersExist memberIds).run s = (.ok x, s')) : s' = s := by
  obtain ⟨found, s₁, hfound, h⟩ := Tx.run_bind_eq_ok h
  cases hfound
  split at h <;> cases h
  rfl

theorem insertRoom_ok {room room' : Room} (h : (insertRoom room).run s = (.ok room', s')) :
    room' = room ∧ ∃ t, s.rooms.insert room = some t ∧ s' = { s with rooms := t } := by
  have hadd := Query.run_exec_ok.mp h
  rcases ht : s.rooms.insert room with _ | t
  · simp [ht] at hadd
  · simp only [ht] at hadd
    split at hadd <;> cases hadd
    exact ⟨rfl, t, rfl, rfl⟩

theorem addMembers_ok {records : List RoomMember} (h : addMembers records s = .ok s') :
    ∃ t, t.rows = s.roomMembers.rows ++ records ∧ s' = { s with roomMembers := t } := by
  induction records generalizing s with
  | nil =>
    cases h
    exact ⟨s'.roomMembers, by simp, rfl⟩
  | cons r rest ih =>
    rw [addMembers] at h
    rcases ht : s.roomMembers.insert r with _ | t
    · simp [ht] at h
    · simp only [ht] at h
      split at h
      · obtain ⟨t', hrows, rfl⟩ := ih h
        refine ⟨t', ?_, rfl⟩
        rw [hrows, Table.rows_of_insert ht, List.append_assoc]
        rfl
      · cases h

theorem insertRoomMembers_ok {records : List RoomMember} {x : Unit}
    (h : (insertRoomMembers records).run s = (.ok x, s')) :
    ∃ t, t.rows = s.roomMembers.rows ++ records ∧ s' = { s with roomMembers := t } := by
  have hadd := Query.run_exec_ok.mp h
  rcases hs : addMembers records s with e | s₁
  · simp [hs, Except.map] at hadd
  · simp only [hs, Except.map, Except.ok.injEq, Prod.mk.injEq, true_and] at hadd
    exact hadd ▸ addMembers_ok hs

theorem updateRoomName_ok {name : String} {room : Room}
    (h : (updateRoomName roomId name).run s = (.ok room, s')) :
    s' = { s with rooms := s.rooms.update roomId (renamed name) (renamed_id name) } := by
  have hup := Query.run_exec_ok.mp h
  split at hup
  · cases hup
  · cases hup
    rfl

theorem withoutRoom_filter (roomId : Uuid) (s : Db) :
    withoutRoom roomId { s with
      roomMembers := s.roomMembers.filter (fun r => decide (r.roomId ≠ roomId))
      roomMessages := s.roomMessages.filter (fun r => decide (r.roomId ≠ roomId)) } =
    withoutRoom roomId s := by
  simp only [withoutRoom, Table.filter_filter, Bool.and_self]

theorem withoutRoom_withoutMember (roomId userId : Uuid) (s : Db) :
    withoutRoom roomId { withoutMember roomId userId s with
      roomMessages := s.roomMessages.filter (fun r => decide (r.roomId ≠ roomId)) } =
    withoutRoom roomId s := by
  have hmembers : (s.roomMembers.filter (fun r => decide (r.key ≠ (roomId, userId)))).filter
      (fun r => decide (r.roomId ≠ roomId)) =
      s.roomMembers.filter (fun r => decide (r.roomId ≠ roomId)) := by
    rw [Table.filter_filter]
    congr 1
    funext r
    simp only [RoomMember.key, ne_eq, Prod.mk.injEq, not_and]
    by_cases hr : r.roomId = roomId <;> simp [hr]
  simp only [withoutRoom, withoutMember, hmembers, Table.filter_filter, Bool.and_self]

/-! ## The operations -/

theorem createRoom_ok {unicode : Unicode} {creatorId : Uuid} {name : String}
    {memberIds : List Uuid} {now : Int} {d : RoomDetail}
    (h : (createRoom unicode creatorId name memberIds roomId now).run s = (.ok d, s')) :
    RoomEffect s (.createRoom creatorId name memberIds roomId now) s' := by
  unfold createRoom at h
  replace h := Tx.run_bind_eq_ok h
  obtain ⟨roomName, s₁, hname, h⟩ := h
  obtain ⟨-, rfl⟩ := Prod.mk.inj hname
  obtain ⟨x, s₂, husers, h⟩ := Tx.run_bind_eq_ok h
  cases ensureUsersExist_ok husers
  obtain ⟨room, s₃, hroom, h⟩ := Tx.run_bind_eq_ok h
  obtain ⟨rfl, t, ht, rfl⟩ := insertRoom_ok hroom
  obtain ⟨y, s₄, hmembers, h⟩ := Tx.run_bind_eq_ok h
  obtain ⟨t', ht', rfl⟩ := insertRoomMembers_ok hmembers
  cases roomDetail_ok h
  exact .created creatorId name memberIds roomId now roomName t t' ht ht'

theorem renameRoom_ok {unicode : Unicode} {ownerId : Uuid} {name : String} {d : RoomDetail}
    (h : (renameRoom unicode roomId ownerId name).run s = (.ok d, s')) :
    RoomEffect s (.renameRoom roomId ownerId name) s' := by
  unfold renameRoom at h
  replace h := Tx.run_bind_eq_ok h
  obtain ⟨room, s₁, hroom, h⟩ := h
  obtain ⟨rfl, hget, hc, hmember⟩ := ensureRoomCreator_ok hroom
  obtain ⟨roomName, s₂, hname, h⟩ := Tx.run_bind_eq_ok h
  obtain ⟨-, rfl⟩ := Prod.mk.inj hname
  obtain ⟨updated, s₃, hupdate, h⟩ := Tx.run_bind_eq_ok h
  cases roomDetail_ok h
  split at hupdate
  · cases hupdate
    exact .kept roomId ownerId name hmember ⟨room, hget, hc⟩
  · cases updateRoomName_ok hupdate
    exact .renamed roomId ownerId name roomName hmember ⟨room, hget, hc⟩

theorem addRoomMembers_ok {ownerId : Uuid} {memberIds : List Uuid} {now : Int} {d : RoomDetail}
    (h : (addRoomMembers roomId ownerId memberIds now).run s = (.ok d, s')) :
    RoomEffect s (.addRoomMembers roomId ownerId memberIds now) s' := by
  unfold addRoomMembers at h
  replace h := Tx.run_bind_eq_ok h
  obtain ⟨room, s₁, hroom, h⟩ := h
  obtain ⟨rfl, hget, hc, hmember⟩ := ensureRoomCreator_ok hroom
  have hnobody : RoomEffect s₁ (.addRoomMembers roomId ownerId memberIds now) s₁ :=
    .added roomId ownerId memberIds now [] s₁.roomMembers hmember ⟨room, hget, hc⟩ (by simp)
      (by simp [addedMembers])
  dsimp only at h
  split at h
  · cases roomDetail_ok h
    exact hnobody
  obtain ⟨x, s₂, husers, h⟩ := Tx.run_bind_eq_ok h
  cases ensureUsersExist_ok husers
  obtain ⟨existing, s₃, hexisting, h⟩ := Tx.run_bind_eq_ok h
  cases hexisting
  split at h
  · cases roomDetail_ok h
    exact hnobody
  · obtain ⟨y, s₄, hmembers, h⟩ := Tx.run_bind_eq_ok h
    obtain ⟨t, ht, rfl⟩ := insertRoomMembers_ok hmembers
    cases roomDetail_ok h
    refine .added roomId ownerId memberIds now _ t hmember ⟨room, hget, hc⟩ (fun id hid => ?_) ht
    have hrequested := List.mem_of_mem_filter hid
    rw [btreeSet, List.mem_insertionSort, List.mem_dedup] at hrequested
    exact List.mem_of_mem_filter hrequested

theorem removeRoomMember_ok {ownerId memberId : Uuid} {d : RoomDetail}
    (h : (removeRoomMember roomId ownerId memberId).run s = (.ok d, s')) :
    RoomEffect s (.removeRoomMember roomId ownerId memberId) s' := by
  unfold removeRoomMember at h
  replace h := Tx.run_bind_eq_ok h
  obtain ⟨room, s₁, hroom, h⟩ := h
  obtain ⟨rfl, hget, hc, hmember⟩ := ensureRoomCreator_ok hroom
  split at h
  · cases h
  rename_i hne
  obtain ⟨membership, s₂, hfound, h⟩ := Tx.run_bind_eq_ok h
  cases hfound
  split at h
  · cases h
  · obtain ⟨x, s₃, hdelete, h⟩ := Tx.run_bind_eq_ok h
    cases hdelete
    cases roomDetail_ok h
    exact .removed roomId ownerId memberId hmember ⟨room, hget, hc⟩ (hc ▸ hne)

theorem storeRoomMessage_ok {unicode : Unicode} {new : NewRoomMessage} {message : RoomMessage}
    (h : (storeRoomMessage unicode new).run s = (.ok message, s')) :
    RoomEffect s (.sendRoomMessage new) s' := by
  have haccepts := accepts_of_storeRoomMessage h
  obtain ⟨t, ht, hrun⟩ := run_storeRoomMessage haccepts
  cases hrun.symm.trans h
  exact .sent new t haccepts.member (Table.rows_of_insert ht)

theorem getRoomMessages_ok {viewerId : Uuid} {beforeId : Option Uuid} {limit : Nat}
    {page : List RoomMessage}
    (h : (getRoomMessages roomId viewerId beforeId limit).run s = (.ok page, s')) :
    RoomEffect s (.getRoomMessages roomId viewerId beforeId limit) s' := by
  unfold getRoomMessages at h
  replace h := Tx.run_bind_eq_ok h
  obtain ⟨room, s₁, hroom, h⟩ := h
  obtain ⟨-, hmember, rfl⟩ := ensureRoomMember_ok.mp hroom
  obtain ⟨blocked, s₂, hblocked, h⟩ := Tx.run_bind_eq_ok h
  cases hblocked
  cases beforeId with
  | none =>
    cases h
    exact .listed roomId viewerId none limit hmember
  | some cursorId =>
    obtain ⟨found, s₃, hfound, h⟩ := Tx.run_bind_eq_ok h
    cases hfound
    obtain ⟨cursor, s₄, hcursor, h⟩ := Tx.run_bind_eq_ok h
    obtain ⟨-, rfl⟩ := Tx.run_okOr_ok.mp hcursor
    split at h <;> cases h
    exact .listed roomId viewerId (some cursorId) limit hmember

theorem markRoomRead_ok {viewerId : Uuid} {now : Int} {count : Nat}
    (h : (markRoomRead roomId viewerId now).run s = (.ok count, s')) :
    RoomEffect s (.markRoomRead roomId viewerId now) s' := by
  rw [markRoomRead, Tx.run_bind_ok (Tx.run_query _ _)] at h
  split at h
  · exact absurd h roomAccessError_ne
  · rename_i membership hget
    obtain ⟨unread, s₂, hunread, h⟩ := Tx.run_bind_eq_ok h
    cases (keeps_roomUnreadCount (π := id) _ _ _).of_run hunread
    obtain ⟨x, s₃, hupdate, h⟩ := Tx.run_bind_eq_ok h
    cases hupdate
    cases h
    exact .marked roomId viewerId now (Option.isSome_iff_exists.mpr ⟨membership, hget⟩)

theorem leaveRoom_ok {userId : Uuid} {x : Unit}
    (h : (leaveRoom roomId userId).run s = (.ok x, s')) :
    RoomEffect s (.leaveRoom roomId userId) s' := by
  rw [leaveRoom, Tx.run_bind_ok (Tx.run_query _ _)] at h
  split at h
  · exact absurd h roomAccessError_ne
  rename_i hsome
  have hmember : IsMember s roomId userId := Option.isSome_iff_ne_none.mpr (by simpa using hsome)
  have hdelete : (deleteRoomMember roomId userId).run s = (.ok (), withoutMember roomId userId s) :=
    rfl
  rw [Tx.run_bind_ok hdelete, Tx.run_bind_ok (Tx.run_query _ _)] at h
  split at h
  · rename_i hzero
    obtain ⟨z, s₄, hmessages, h⟩ := Tx.run_bind_eq_ok h
    cases hmessages
    cases h
    have hempty := RoomEffect.emptied roomId userId hmember (List.length_eq_zero_iff.mp hzero)
    rwa [← withoutRoom_withoutMember roomId userId] at hempty
  · rename_i hpos
    cases h
    exact .left roomId userId hmember (fun hempty => hpos (congrArg List.length hempty))

theorem deleteRoom_ok {userId : Uuid} {x : Unit}
    (h : (deleteRoom roomId userId).run s = (.ok x, s')) :
    RoomEffect s (.deleteRoom roomId userId) s' := by
  rw [deleteRoom, Tx.run_bind_ok (Tx.run_query _ _)] at h
  replace h := Tx.run_bind_eq_ok h
  obtain ⟨room, s₂, hroom, h⟩ := h
  obtain ⟨hget, rfl⟩ := Tx.run_okOr_ok.mp hroom
  split at h
  · cases h
  · rename_i hc
    cases h
    have hdeleted := RoomEffect.deleted roomId userId ⟨room, hget, not_not.mp hc⟩
    rwa [← withoutRoom_filter] at hdeleted

theorem of_answer {α : Type} {t : Query α} {answer : α → RoomAnswer} {a : RoomAnswer}
    (h : (do let x ← t; pure (answer x) : Query RoomAnswer).run s = (.ok a, s')) :
    ∃ x, t.run s = (.ok x, s') := by
  obtain ⟨x, s₁, hrun, hend⟩ := Tx.run_bind_eq_ok h
  cases hend
  exact ⟨x, hrun⟩

/-- Every operation that succeeds is one of these. -/
theorem RoomOp.effect {unicode : Unicode} {op : RoomOp} {a : RoomAnswer}
    (h : (op.transaction unicode).run s = (.ok a, s')) : RoomEffect s op s' := by
  cases op with
  | createRoom =>
    obtain ⟨x, hrun⟩ := of_answer h
    exact createRoom_ok hrun
  | getRoom roomId viewerId =>
    obtain ⟨x, hrun⟩ := of_answer h
    obtain ⟨room, s₂, hroom, hdetail⟩ := Tx.run_bind_eq_ok hrun
    obtain ⟨-, hmember, rfl⟩ := ensureRoomMember_ok.mp hroom
    cases roomDetail_ok hdetail
    exact .shown roomId viewerId hmember
  | renameRoom =>
    obtain ⟨x, hrun⟩ := of_answer h
    exact renameRoom_ok hrun
  | addRoomMembers =>
    obtain ⟨x, hrun⟩ := of_answer h
    exact addRoomMembers_ok hrun
  | removeRoomMember =>
    obtain ⟨x, hrun⟩ := of_answer h
    exact removeRoomMember_ok hrun
  | getRoomMessages =>
    obtain ⟨x, hrun⟩ := of_answer h
    exact getRoomMessages_ok hrun
  | sendRoomMessage =>
    obtain ⟨x, hrun⟩ := of_answer h
    exact storeRoomMessage_ok hrun
  | markRoomRead =>
    obtain ⟨x, hrun⟩ := of_answer h
    exact markRoomRead_ok hrun
  | listRoomMemberIds roomId viewerId =>
    obtain ⟨x, hrun⟩ := of_answer h
    obtain ⟨room, s₂, hroom, hids⟩ := Tx.run_bind_eq_ok hrun
    obtain ⟨-, hmember, rfl⟩ := ensureRoomMember_ok.mp hroom
    cases hids
    exact .named roomId viewerId hmember
  | leaveRoom =>
    obtain ⟨x, hrun⟩ := of_answer h
    exact leaveRoom_ok hrun
  | deleteRoom =>
    obtain ⟨x, hrun⟩ := of_answer h
    exact deleteRoom_ok hrun

end

/-! ## Runs -/

/-- The database after an operation. -/
def RoomOp.apply (unicode : Unicode) (op : RoomOp) (s : Db) : Db :=
  ((op.transaction unicode).atomically s).2

def RoomOp.Succeeds (unicode : Unicode) (op : RoomOp) (s : Db) : Prop :=
  ((op.transaction unicode).run s).1.isOk = true

instance (unicode : Unicode) (op : RoomOp) (s : Db) : Decidable (op.Succeeds unicode s) :=
  inferInstanceAs (Decidable (_ = true))

/-- The steps of the server, as far as they concern rooms. Elsewhere messages are deleted, but no
room gets one. -/
inductive RoomStep where
  | room (op : RoomOp)
  | deleteUser (userId : Uuid)
  | elsewhere (write : Db → Db)
      (keeps : ∀ s, (write s).rooms = s.rooms ∧ (write s).roomMembers = s.roomMembers ∧
        ∀ m ∈ (write s).roomMessages.rows, ∃ m' ∈ s.roomMessages.rows, m'.roomId = m.roomId)

def RoomStep.apply (unicode : Unicode) : RoomStep → Db → Db
  | room op, s => op.apply unicode s
  | deleteUser userId, s => ((Accounts.deleteUser userId).run s).2
  | elsewhere write _, s => write s

/-- Steps one after another. -/
def runSteps (unicode : Unicode) (steps : List RoomStep) (s : Db) : Db :=
  steps.foldl (fun s step => step.apply unicode s) s

@[simp] theorem runSteps_nil (unicode : Unicode) (s : Db) : runSteps unicode [] s = s := rfl

@[simp] theorem runSteps_cons (unicode : Unicode) (step : RoomStep) (steps : List RoomStep)
    (s : Db) : runSteps unicode (step :: steps) s =
      runSteps unicode steps (step.apply unicode s) := rfl

variable {unicode : Unicode} {s : Db}

theorem forall_cut_cons {α : Type} {Q : List α → α → Prop} {x : α} {xs : List α} :
    (∀ before y after, x :: xs = before ++ y :: after → Q before y) ↔
      Q [] x ∧ ∀ before y after, xs = before ++ y :: after → Q (x :: before) y := by
  constructor
  · intro h
    exact ⟨h [] x xs rfl, fun b y a hba => h (x :: b) y a (congrArg (x :: ·) hba)⟩
  · rintro ⟨hx, hxs⟩ before y after h
    cases before with
    | nil =>
      obtain ⟨rfl, rfl⟩ := List.cons.inj h
      exact hx
    | cons _ before =>
      obtain ⟨rfl, htail⟩ := List.cons.inj h
      exact hxs before y after htail

theorem forall_prefix_cons {α : Type} {Q : List α → Prop} {x : α} {xs : List α} :
    (∀ before after, x :: xs = before ++ after → Q before) ↔
      Q [] ∧ ∀ before after, xs = before ++ after → Q (x :: before) := by
  constructor
  · intro h
    exact ⟨h [] (x :: xs) rfl, fun b a hba => h (x :: b) a (congrArg (x :: ·) hba)⟩
  · rintro ⟨hnil, hxs⟩ before after h
    cases before with
    | nil => exact hnil
    | cons _ before =>
      obtain ⟨rfl, htail⟩ := List.cons.inj h
      exact hxs before after htail

/-- A property that one step keeps unless it is of a certain kind holds all through a run just when
the run has no such step. -/
theorem run_keeps_iff {I P : Db → Prop} {Bad : Db → RoomStep → Prop}
    (hI : ∀ s (step : RoomStep), I s → I (step.apply unicode s))
    (hP : ∀ s (step : RoomStep), I s → P s → (P (step.apply unicode s) ↔ ¬ Bad s step))
    (steps : List RoomStep) (hi : I s) (hp : P s) :
    (∀ before after, steps = before ++ after → P (runSteps unicode before s)) ↔
      ∀ before step after, steps = before ++ step :: after →
        ¬ Bad (runSteps unicode before s) step := by
  induction steps generalizing s with
  | nil => simp [hp]
  | cons next steps ih =>
    rw [forall_prefix_cons, forall_cut_cons]
    simp only [runSteps_nil, runSteps_cons, hp, true_and]
    have hfirst : (∀ before after, steps = before ++ after →
        P (runSteps unicode before (next.apply unicode s))) → P (next.apply unicode s) :=
      fun h => h [] steps rfl
    rw [← hP s next hi hp]
    constructor
    · intro h
      exact ⟨hfirst h, (ih (hI s next hi) (hfirst h)).mp h⟩
    · rintro ⟨hp', h⟩
      exact (ih (hI s next hi) hp').mpr h

theorem RoomOp.apply_cases (unicode : Unicode) (op : RoomOp) (s : Db) :
    (op.Succeeds unicode s ∧ RoomEffect s op (op.apply unicode s)) ∨
      (¬ op.Succeeds unicode s ∧ op.apply unicode s = s) := by
  rcases hrun : (op.transaction unicode).run s with ⟨e | a, s'⟩
  · refine .inr ⟨?_, ?_⟩
    · simp [Succeeds, hrun, Except.isOk, Except.toBool]
    · simp [apply, Tx.atomically, hrun]
  · refine .inl ⟨?_, ?_⟩
    · simp [Succeeds, hrun, Except.isOk, Except.toBool]
    · simpa [apply, Tx.atomically, hrun] using RoomOp.effect hrun

structure Unmoved (s s' : Db) : Prop where
  rooms : s'.rooms = s.rooms
  members : s'.roomMembers = s.roomMembers
  messages : ∀ m ∈ s'.roomMessages.rows, ∃ m' ∈ s.roomMessages.rows, m'.roomId = m.roomId

theorem Unmoved.refl (s : Db) : Unmoved s s := ⟨rfl, rfl, fun m hm => ⟨m, hm, rfl⟩⟩

/-- A step is an operation with its effect, or the deletion of an account with what the schema says,
or nothing as far as rooms are concerned. -/
theorem RoomStep.apply_cases (unicode : Unicode) (step : RoomStep) (s : Db) :
    (∃ op, step = .room op ∧ RoomEffect s op (step.apply unicode s)) ∨
      (∃ userId, step = .deleteUser userId ∧ s.userExists userId ∧
        step.apply unicode s = Accounts.withoutUser userId s) ∨
      (Unmoved s (step.apply unicode s) ∧ (∀ op, step = .room op → ¬ op.Succeeds unicode s) ∧
        ∀ userId, step = .deleteUser userId → ¬ s.userExists userId) := by
  cases step with
  | room op =>
    rcases op.apply_cases unicode s with ⟨-, heffect⟩ | ⟨hfail, hsame⟩
    · exact .inl ⟨op, rfl, heffect⟩
    · refine .inr (.inr ⟨?_, ?_, nofun⟩)
      · rw [RoomStep.apply, hsame]
        exact .refl s
      · rintro op' ⟨⟩
        exact hfail
  | deleteUser userId =>
    by_cases h : s.userExists userId
    · refine .inr (.inl ⟨userId, rfl, h, ?_⟩)
      rw [RoomStep.apply, Accounts.run_deleteUser, if_pos h]
    · refine .inr (.inr ⟨?_, nofun, ?_⟩)
      · rw [RoomStep.apply, Accounts.run_deleteUser, if_neg h]
        exact .refl s
      · rintro userId' ⟨⟩
        exact h
  | elsewhere write keeps =>
    obtain ⟨hrooms, hmembers, hmessages⟩ := keeps s
    exact .inr (.inr ⟨⟨hrooms, hmembers, hmessages⟩, nofun, nofun⟩)

end SyncServer.Rooms
