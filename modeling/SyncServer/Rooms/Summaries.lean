import SyncServer.Messaging.Pages
import SyncServer.Rooms.Fresh

/-! # Summaries of rooms

What `get_room` and `list_rooms` say about the messages of a room, and what `mark_room_read` returns,
compared with the pages of the room.
-/

namespace SyncServer.Rooms.Timed
open Transaction Moderation Messaging WideQuery

/-- The messages on the pages of a room that are later than a time and not from the viewer. -/
def unreadOn (all : List RoomMessage) (viewerId : Uuid) (lastReadAt : Option Int) : Nat :=
  all.countP (fun m =>
    decide (m.senderId ≠ viewerId) && lastReadAt.all (fun t => decide (t < m.createdAt)))

/-- What a summary says about the messages is what the pages of the room show. -/
structure Summarizes (all : List RoomMessage) (viewerId : Uuid) (lastReadAt : Option Int)
    (s : RoomSummary) : Prop where
  unread : s.unreadCount = unreadOn all viewerId lastReadAt
  lastAt : s.lastMessageAt = all.head?.map RoomMessage.createdAt
  preview : s.lastMessagePreview = all.head?.map (fun m =>
    if (trim m.content).toList.length ≤ 120 then trim m.content
    else String.ofList ((trim m.content).toList.take 120) ++ "...")

/-- `get_room`, and the one entry of `list_rooms`, summarize the pages of the room. -/
structure ShowsPages (all : List RoomMessage) (lastReadAt : Option Int) (roomId viewerId : Uuid)
    (w : Wide RoomTimes) : Prop where
  detail : ∃ d, (getRoom roomId viewerId).run w = (.ok d, w) ∧
    Summarizes all viewerId lastReadAt d.toRoomSummary
  entry : ∃ rooms s, (listRooms viewerId).run w = (.ok rooms, w) ∧
    rooms.filter (fun s => s.id = roomId) = [s] ∧ Summarizes all viewerId lastReadAt s

/-! ## Exact summaries -/

/-- The answer of `room_summary_conn`. -/
def summaryOf (s : Db) (room : Room) (membership : RoomMember) (viewerId : Uuid) : RoomSummary where
  id := room.id
  name := room.name
  createdBy := room.createdBy
  memberCount := (membershipsIn s room.id).length
  unreadCount := unreadIn s room.id viewerId (blockedBy s viewerId) membership.lastReadAt
  lastMessagePreview := (newestFirst messageKey (roomMessagesFor s room.id viewerId)).head?.map
    (fun r => truncatePreview r.content)
  lastMessageAt := (newestFirst messageKey (roomMessagesFor s room.id viewerId)).head?.map
    RoomMessage.createdAt
  createdAt := room.createdAt
  updatedAt := room.updatedAt

section
variable {w : Wide RoomTimes} {roomId viewerId : Uuid} {row : SyncServer.Room}
  {membership : RoomMember}

theorem run_roomSummary (room : Room) (membership : RoomMember) (viewerId : Uuid)
    (w : Wide RoomTimes) : (roomSummary room membership viewerId).run w =
      (.ok (summaryOf w.db room membership viewerId), w) := by
  have hrows : (Rooms.roomSummary room.untimed membership viewerId).run w.db =
      (.ok (summaryOf w.db room membership viewerId).untimed, w.db) := rfl
  rw [roomSummary, Tx.run_bind_ok (run_onRows_read hrows)]
  rfl

theorem run_roomMemberProfiles (roomId : Uuid) (w : Wide RoomTimes) :
    ∃ l, (roomMemberProfiles roomId).run w = (.ok l, w) := by
  rw [roomMemberProfiles, Tx.run_bind_ok (Tx.run_query _ _)]
  split
  · exact ⟨_, rfl⟩
  · rw [Tx.run_bind_ok (run_onRows_read (Tx.run_query _ _))]
    exact ⟨_, rfl⟩

theorem getRoom_summary (hrow : w.db.rooms.get roomId = some row)
    (hmember : w.db.roomMembers.get (roomId, viewerId) = some membership) :
    ∃ d, (getRoom roomId viewerId).run w = (.ok d, w) ∧
      d.toRoomSummary = summaryOf w.db (w.columns.row row) membership viewerId := by
  obtain rfl : row.id = roomId := Table.key_of_get hrow
  obtain ⟨l, hl⟩ := run_roomMemberProfiles (w.columns.row row).id w
  have hmembership : (Tx.okOr (.database .notFound)
      (w.db.roomMembers.get ((w.columns.row row).id, viewerId)) :
      WideQuery RoomTimes RoomMember).run w = (.ok membership, w) :=
    Tx.run_okOr_ok.mpr ⟨hmember, rfl⟩
  refine ⟨{ summaryOf w.db (w.columns.row row) membership viewerId with members := l }, ?_, rfl⟩
  rw [run_getRoom hrow (Option.isSome_of_eq_some hmember), roomDetail,
    Tx.run_bind_ok (run_onRows_read (Tx.run_query _ _)), Tx.run_bind_ok hmembership,
    Tx.run_bind_ok (run_roomSummary _ _ _ _), Tx.run_bind_ok hl]
  rfl

def summaryFor (s : Db) (rooms : List Room) (viewerId : Uuid) (membership : RoomMember) :
    Option RoomSummary :=
  (rooms.find? (fun r => r.id = membership.roomId)).map
    (fun room => summaryOf s room membership viewerId)

theorem run_summariesOf (rooms : List Room) (viewerId : Uuid) (memberships : List RoomMember)
    (w : Wide RoomTimes) : (summariesOf rooms viewerId memberships).run w =
      (.ok (memberships.filterMap (summaryFor w.db rooms viewerId)), w) := by
  induction memberships with
  | nil => rfl
  | cons membership rest ih =>
    rw [summariesOf]
    rcases h : rooms.find? (fun r => r.id = membership.roomId) with _ | room
    · have hnone : summaryFor w.db rooms viewerId membership = none := by simp [summaryFor, h]
      rw [List.filterMap_cons_none hnone]
      simp only [h]
      exact ih
    · have hsome : summaryFor w.db rooms viewerId membership =
          some (summaryOf w.db room membership viewerId) := by simp [summaryFor, h]
      rw [List.filterMap_cons_some hsome]
      simp only [h]
      rw [Tx.run_bind_ok (run_roomSummary _ _ _ _), Tx.run_bind_ok ih]
      rfl

def roomsOf (w : Wide RoomTimes) (viewerId : Uuid) : List Room :=
  (w.db.rooms.rows.filter (fun r =>
    r.id ∈ (membershipsOf w viewerId).map RoomMember.roomId)).map w.columns.row

theorem run_listRooms (viewerId : Uuid) (w : Wide RoomTimes) : (listRooms viewerId).run w =
    (.ok (((membershipsOf w viewerId).filterMap (summaryFor w.db (roomsOf w viewerId)
      viewerId)).insertionSort (fun a b => b.latestAt ≤ a.latestAt)), w) := by
  rw [listRooms, Tx.run_bind_ok (Tx.run_query _ _)]
  split
  · rename_i hnil
    rw [hnil]
    rfl
  · rw [Tx.run_bind_ok (Tx.run_query _ _), Tx.run_bind_ok (run_summariesOf _ _ _ _)]
    rfl

theorem find_roomsOf (hrow : w.db.rooms.get roomId = some row)
    (hmember : w.db.roomMembers.get (roomId, viewerId) = some membership) :
    (roomsOf w viewerId).find? (fun r => r.id = roomId) = some (w.columns.row row) := by
  obtain ⟨hin, hkey⟩ := Table.get_eq_some.mp hmember
  have hids : roomId ∈ (membershipsOf w viewerId).map RoomMember.roomId := by
    rw [List.mem_map]
    refine ⟨membership, ?_, congrArg Prod.fst hkey⟩
    rw [membershipsOf, List.mem_insertionSort, List.mem_filter]
    exact ⟨hin, decide_eq_true (congrArg Prod.snd hkey)⟩
  have hfound : (w.db.rooms.filter (fun r => decide (r.id ∈ (membershipsOf w viewerId).map
      RoomMember.roomId))).get roomId = some row := by
    rw [Table.get_filter, hrow, Option.filter_some_pos]
    rw [Table.key_of_get hrow]
    exact decide_eq_true hids
  rw [roomsOf, List.find?_map]
  exact congrArg (Option.map w.columns.row) hfound

/-- `list_rooms` has one entry for a room of the viewer. -/
theorem listRooms_entry (hrow : w.db.rooms.get roomId = some row)
    (hmember : w.db.roomMembers.get (roomId, viewerId) = some membership) :
    ∃ rooms, (listRooms viewerId).run w = (.ok rooms, w) ∧ rooms.filter (fun s => s.id = roomId) =
      [summaryOf w.db (w.columns.row row) membership viewerId] := by
  refine ⟨_, run_listRooms viewerId w, ?_⟩
  have hsummary : summaryFor w.db (roomsOf w viewerId) viewerId membership =
      some (summaryOf w.db (w.columns.row row) membership viewerId) := by
    have hroom : membership.roomId = roomId := congrArg Prod.fst (Table.key_of_get hmember)
    rw [summaryFor, hroom, find_roomsOf hrow hmember]
    rfl
  -- An entry is for the room of its membership.
  have hid : ∀ m, (summaryFor w.db (roomsOf w viewerId) viewerId m).filter
      (fun s => decide (s.id = roomId)) =
        if m.roomId = roomId then summaryFor w.db (roomsOf w viewerId) viewerId m else none := by
    intro m
    rcases hfind : (roomsOf w viewerId).find? (fun r => r.id = m.roomId) with _ | room
    · simp [summaryFor, hfind]
    · have hroom : room.id = m.roomId := by simpa using List.find?_some hfind
      rw [summaryFor, hfind]
      by_cases hm : m.roomId = roomId <;> simp [summaryOf, hroom, hm]
  have hone : ((membershipsOf w viewerId).filter (fun m => decide (m.roomId = roomId))) =
      [membership] := by
    rw [← List.perm_singleton, ← Table.rows_with_key hmember]
    refine ((List.perm_insertionSort _ _).filter _).trans (.of_eq ?_)
    rw [List.filter_filter]
    apply List.filter_congr
    intro m _
    simp [RoomMember.key]
  rw [← List.perm_singleton]
  refine ((List.perm_insertionSort _ _).filter _).trans (.of_eq ?_)
  rw [List.filter_filterMap]
  simp only [hid]
  rw [show (fun m => if m.roomId = roomId then summaryFor w.db (roomsOf w viewerId) viewerId m
    else none) = fun m => if decide (m.roomId = roomId) then
      summaryFor w.db (roomsOf w viewerId) viewerId m else none by simp, ← List.filterMap_filter, hone]
  simp [hsummary]

theorem summarizes_summaryOf (s : Db) (room : Room) (membership : RoomMember) (viewerId : Uuid) :
    Summarizes (newestFirst messageKey (roomMessagesFor s room.id viewerId)) viewerId
      membership.lastReadAt (summaryOf s room membership viewerId) := by
  refine ⟨?_, rfl, rfl⟩
  have hperm : (newestFirst messageKey (roomMessagesFor s room.id viewerId)).Perm
    (roomMessagesFor s room.id viewerId) := List.perm_insertionSort _ _
  rw [unreadOn, hperm.countP_eq]
  rfl

theorem showsPages (hrow : w.db.rooms.get roomId = some row)
    (hmember : w.db.roomMembers.get (roomId, viewerId) = some membership) :
    ShowsPages (newestFirst messageKey (roomMessagesFor w.db roomId viewerId)) membership.lastReadAt
      roomId viewerId w := by
  obtain rfl : row.id = roomId := Table.key_of_get hrow
  obtain ⟨d, hd, hsummary⟩ := getRoom_summary hrow hmember
  obtain ⟨rooms, hrooms, hentry⟩ := listRooms_entry hrow hmember
  have hsum := summarizes_summaryOf w.db (w.columns.row row) membership viewerId
  exact ⟨⟨d, hd, hsummary ▸ hsum⟩, rooms, _, hrooms, hentry, hsum⟩

/-! ## Reading a room -/

theorem run_markRoomRead {s : Db}
    (hmember : s.roomMembers.get (roomId, viewerId) = some membership) (now : Int) :
    (markRoomRead roomId viewerId now).run s =
      (.ok (unreadOn (newestFirst messageKey (roomMessagesFor s roomId viewerId)) viewerId
        membership.lastReadAt), withReader roomId viewerId now s) := by
  have hperm : (newestFirst messageKey (roomMessagesFor s roomId viewerId)).Perm
    (roomMessagesFor s roomId viewerId) := List.perm_insertionSort _ _
  rw [markRoomRead, Tx.run_bind_ok (Tx.run_query _ _), hmember, unreadOn, hperm.countP_eq]
  rfl

theorem unreadOn_eq_zero {all : List RoomMessage} {viewerId : Uuid} {now : Int}
    (h : ∀ m ∈ all, m.createdAt ≤ now) : unreadOn all viewerId (some now) = 0 := by
  rw [unreadOn, List.countP_eq_zero]
  intro m hm
  simp [not_lt.mpr (h m hm)]

end

/-- The unread count and the preview of a room are those of its pages, in `get_room` and in
`list_rooms`; `mark_room_read` returns the unread count, which is zero then. -/
theorem summaries_agree (roomId viewerId : Uuid) (limit : Nat) (now : Int) (w : Wide RoomTimes)
    (hlimit : 1 ≤ limit) (hread : Readable roomId viewerId w.db)
    (hclock : ∀ m ∈ w.db.roomMessages.rows, m.roomId = roomId → m.createdAt ≤ now) :
    ∃ all membership w',
      readAll (roomPage roomId viewerId limit) RoomMessage.id w.db.roomMessages.rows.length w.db =
        .ok all ∧
      w.db.roomMembers.get (roomId, viewerId) = some membership ∧
      ShowsPages all membership.lastReadAt roomId viewerId w ∧
      (onRows (markRoomRead roomId viewerId now)).run w =
        (.ok (unreadOn all viewerId membership.lastReadAt), w') ∧
      ShowsPages all (some now) roomId viewerId w' ∧ unreadOn all viewerId (some now) = 0 := by
  obtain ⟨row, hrow⟩ := Option.isSome_iff_exists.mp hread.1
  obtain ⟨membership, hmember⟩ := Option.isSome_iff_exists.mp hread.2
  have hmember' : (withReader roomId viewerId now w.db).roomMembers.get (roomId, viewerId) =
      some (readAt now membership) := by
    rw [withReader, Table.get_update_self, hmember]
    rfl
  refine ⟨_, membership, w.setDb (withReader roomId viewerId now w.db), readAll_roomPage hlimit hread,
    hmember, showsPages hrow hmember, ?_, ?_, ?_⟩
  · exact run_onRows_eq (run_markRoomRead hmember now)
  · exact showsPages (w := w.setDb (withReader roomId viewerId now w.db)) hrow hmember'
  · apply unreadOn_eq_zero
    intro m hm
    obtain ⟨hin, hroom, -⟩ := mem_roomMessagesFor.mp ((mem_newestFirst messageKey).mp hm)
    exact hclock m hin hroom

/-- Bob has written twice since Alice has read the room, the second time at the same instant. -/
def bobWroteTwice : Wide RoomTimes :=
  { teaRoom with db := { teaRoom.db with roomMessages := ⟨[⟨20, 9, 2, "one", none, 90⟩,
      ⟨21, 9, 2, "two", none, 200⟩, ⟨22, 9, 2, " three ", none, 200⟩], by simp⟩ } }

theorem summaries_agree_two : ∃ w', (onRows (markRoomRead 9 1 300)).run bobWroteTwice = (.ok 2, w') ∧
    ShowsPages (newestFirst messageKey bobWroteTwice.db.roomMessages.rows) (some 300) 9 1 w' := by
  have hread : Readable 9 1 bobWroteTwice.db := ⟨rfl, rfl⟩
  obtain ⟨all, membership, w', hall, hmember, -, hmark, hshows, -⟩ :=
    summaries_agree 9 1 50 300 bobWroteTwice (by decide) hread (by decide)
  cases hmember
  have hpages := (readAll_roomPage (show 1 ≤ 50 by decide) hread).symm.trans hall
  cases hpages
  exact ⟨w', hmark, hshows⟩

end SyncServer.Rooms.Timed
