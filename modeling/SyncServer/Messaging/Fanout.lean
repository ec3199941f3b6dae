import SyncServer.Guild.Suspicion
import SyncServer.Messaging.Pages

/-! # Who gets a room message, and who reads it

A message to a room is sent to the members whom no block separates from the sender, in either
direction. The room as a member reads it leaves out the senders whom this member has blocked.
-/

namespace SyncServer.Messaging
open Transaction Moderation Rooms

structure Receives (new : NewRoomMessage) (out : List Outgoing) (memberId : Uuid) : Prop where
  event : .publish memberId (.newRoomMessage new.roomId new.row) ∈ out
  push : .push memberId (.newMessage new.senderId new.id (trim new.content)) ∈ out

/-- The newest page that a member reads shows the message. -/
def ListsFirst (limit : Nat) (m : RoomMessage) (s : Db) (memberId : Uuid) : Prop :=
  ∃ page, roomPage m.roomId memberId limit none s = .ok page ∧ m ∈ page

/-- One of the pages that a member reads shows the message. -/
def ListsOnPages (limit : Nat) (m : RoomMessage) (s : Db) (memberId : Uuid) : Prop :=
  ∃ pages, readAll (roomPage m.roomId memberId limit) RoomMessage.id s.roomMessages.rows.length s =
    .ok pages ∧ m ∈ pages

/-- Other members get what is sent for a message exactly if they read the message then. -/
def PushMatchesPull (env : Guild.Env) (call : SendRoomMessageCall) (s : Server)
    (lists : Db → Uuid → Prop) : Prop :=
  ∃ out, ((sendRoomMessage env call).run s).2.sent = s.sent ++ out ∧
    ∀ m ∈ membersOf s.db call.message.roomId, m ≠ call.message.senderId →
      (Receives call.message out m ↔ lists ((sendRoomMessage env call).run s).2.db m)

/-- Every other member whom the sender has blocked has blocked the sender as well. -/
def BlocksReturned (new : NewRoomMessage) (s : Db) : Prop :=
  ∀ m ∈ membersOf s new.roomId, m ≠ new.senderId → m ∈ blockedBy s new.senderId →
    new.senderId ∈ blockedBy s m

section
variable {env : Guild.Env} {call : SendRoomMessageCall} {s : Server} {limit : Nat}

theorem mem_blockedBy {s : Db} {u v : Uuid} :
    v ∈ blockedBy s u ↔ ∃ b ∈ s.userBlocks.rows, b.blockerUserId = u ∧ b.blockedUserId = v := by
  simp [blockedBy, and_assoc]

theorem blockBetween_iff {s : Db} {u v : Uuid} :
    blockBetween s u v = true ↔ v ∈ blockedBy s u ∨ u ∈ blockedBy s v := by
  simp only [blockBetween, List.any_eq_true, Bool.or_eq_true, Bool.and_eq_true, decide_eq_true_eq,
    mem_blockedBy, ← exists_or, and_or_left]

theorem receives_iff {new : NewRoomMessage} {memberIds : List Uuid} {m : Uuid}
    (hm : m ≠ new.senderId) : Receives new (roomDeliveries new memberIds) m ↔ m ∈ memberIds := by
  constructor
  · intro h
    simpa [roomDeliveries] using h.event
  · intro h
    exact ⟨by simp [roomDeliveries, h], by simp [roomDeliveries, h, hm]⟩

theorem sendRoomMessage_db {τ : Type} {π : Db → τ}
    (hstats : ∀ s t, π { s with userGuildStats := t } = π s)
    (haudit : ∀ s t, π { s with adminAuditLogs := t } = π s)
    (h : Accepts env.unicode call.message s.db) :
    ∃ t, s.db.roomMessages.insert call.message.row = some t ∧
      π ((sendRoomMessage env call).run s).2.db = π (withRoomMessage call.message t s.db) := by
  obtain ⟨t, ht, hrun⟩ := run_sendRoomMessage h
  have hkeep : ((onDb (Guild.recordHumanActivity env call.message.senderId
      (dateNaive call.todayAt) call.activityAt call.audit).asStatement) >>=
      fun _ => pure call.message.row : Handler RoomMessage).Keeps (fun s : Server => π s.db) :=
    Tx.keeps_bind (keeps_onDb (Guild.keeps_recordHumanActivity hstats haudit _ _ _ _ _).asStatement)
      (fun _ => Tx.keeps_pure _ _)
  refine ⟨t, ht, ?_⟩
  rw [hrun]
  exact hkeep.run _

/-- The room and its blocks as they are when the handler is done. -/
structure StoredIn (new : NewRoomMessage) (s s' : Db) : Prop where
  messages : s'.roomMessages.rows = s.roomMessages.rows ++ [new.row]
  blocks : ∀ u, blockedBy s' u = blockedBy s u
  readable : ∀ m ∈ membersOf s new.roomId, Readable new.roomId m s'

theorem mem_membersOf {s : Db} {roomId m : Uuid} : m ∈ membersOf s roomId ↔ IsMember s roomId m := by
  rw [IsMember, Table.isSome_get]
  simp [membersOf, RoomMember.key, and_assoc]

theorem sendRoomMessage_stored (h : Accepts env.unicode call.message s.db) :
    StoredIn call.message s.db ((sendRoomMessage env call).run s).2.db := by
  obtain ⟨t, ht, hdb⟩ := sendRoomMessage_db (π := fun d =>
    (d.rooms, d.roomMembers, d.roomMessages, d.userBlocks)) (fun _ _ => rfl) (fun _ _ => rfl) h
  simp only [Prod.mk.injEq] at hdb
  obtain ⟨hrooms, hmembers, hmessages, hblocks⟩ := hdb
  refine ⟨?_, fun u => ?_, fun m hm => ⟨?_, ?_⟩⟩
  · rw [hmessages]
    exact Table.rows_of_insert ht
  · rw [blockedBy, hblocks]
    rfl
  · rw [hrooms]
    exact h.room
  · rw [IsMember, hmembers]
    exact mem_membersOf.mp (membersOf_withRoomMessage call.message t s.db _ ▸ hm)

theorem StoredIn.mem_visible {new : NewRoomMessage} {s s' : Db} (h : StoredIn new s s') (m : Uuid) :
    new.row ∈ roomMessagesFor s' new.roomId m ↔ new.senderId ∉ blockedBy s m := by
  rw [mem_roomMessagesFor, h.messages, h.blocks]
  simp [NewRoomMessage.row]

theorem StoredIn.listsOnPages_iff {new : NewRoomMessage} {s s' : Db} (h : StoredIn new s s')
    (hlimit : 1 ≤ limit) {m : Uuid} (hm : m ∈ membersOf s new.roomId) :
    ListsOnPages limit new.row s' m ↔ new.senderId ∉ blockedBy s m := by
  have hall : readAll (roomPage new.row.roomId m limit) RoomMessage.id _ s' = _ :=
    readAll_roomPage hlimit (h.readable m hm)
  rw [← h.mem_visible m, ListsOnPages, hall]
  constructor
  · rintro ⟨pages, ⟨⟩, hin⟩
    exact (mem_newestFirst messageKey).mp hin
  · exact fun hin => ⟨_, rfl, (mem_newestFirst messageKey).mpr hin⟩

theorem StoredIn.listsFirst_iff {new : NewRoomMessage} {s s' : Db} (h : StoredIn new s s')
    (hlimit : 1 ≤ limit) (hnewest : ∀ r ∈ s.roomMessages.rows, r.roomId = new.roomId →
      messageKey r < messageKey new.row) {m : Uuid} (hm : m ∈ membersOf s new.roomId) :
    ListsFirst limit new.row s' m ↔ new.senderId ∉ blockedBy s m := by
  have hpage : roomPage new.row.roomId m limit none s' =
      .ok ((newestFirst messageKey (roomMessagesFor s' new.roomId m)).take (min limit 100)) :=
    roomPage_first (h.readable m hm)
  rw [← h.mem_visible m, ListsFirst, hpage]
  constructor
  · rintro ⟨page, ⟨⟩, hin⟩
    exact (mem_newestFirst messageKey).mp (List.mem_of_mem_take hin)
  · intro hin
    have hmax : ∀ r ∈ roomMessagesFor s' new.roomId m, messageKey r ≤ messageKey new.row := by
      intro r hr
      obtain ⟨hrow, hroom, -⟩ := mem_roomMessagesFor.mp hr
      rw [h.messages, List.mem_append, List.mem_singleton] at hrow
      rcases hrow with hold | rfl
      · exact (hnewest r hold hroom).le
      · exact le_rfl
    exact ⟨_, rfl, mem_take_newestFirst ((roomListing new.roomId m limit).distinct s') hin hmax
      (by omega)⟩

theorem pushMatchesPull_iff (h : Accepts env.unicode call.message s.db) {lists : Db → Uuid → Prop}
    (hlists : ∀ m ∈ membersOf s.db call.message.roomId,
      (lists ((sendRoomMessage env call).run s).2.db m ↔
        call.message.senderId ∉ blockedBy s.db m)) :
    PushMatchesPull env call s lists ↔ BlocksReturned call.message s.db := by
  have hreceives : ∀ m ∈ membersOf s.db call.message.roomId, m ≠ call.message.senderId →
      ((Receives call.message (roomDeliveries call.message ((membersOf s.db
        call.message.roomId).filter (fun m => !blockBetween s.db call.message.senderId m))) m ↔
          lists ((sendRoomMessage env call).run s).2.db m) ↔
        (m ∈ blockedBy s.db call.message.senderId → call.message.senderId ∈ blockedBy s.db m)) := by
    intro m hm hne
    rw [receives_iff hne, hlists m hm, List.mem_filter, Bool.not_eq_true', ← Bool.not_eq_true,
      blockBetween_iff]
    tauto
  rcases sendRoomMessage_sent env call s with ⟨hno, -⟩ | ⟨-, hsent⟩
  · exact absurd h hno
  · constructor
    · rintro ⟨out, hout, hall⟩ m hm hne
      rw [hsent] at hout
      rw [← List.append_cancel_left hout] at hall
      exact (hreceives m hm hne).mp (hall m hm hne)
    · exact fun hall => ⟨_, hsent, fun m hm hne => (hreceives m hm hne).mpr (hall m hm hne)⟩

/-- Other members get a message exactly if they read it then, in the pages of the room, and on the
first page when it is the newest message, just when every member whom the sender has blocked has
blocked the sender as well. -/
theorem fanout_matches_iff (env : Guild.Env) (call : SendRoomMessageCall) (s : Server) (limit : Nat)
    (hlimit : 1 ≤ limit) (h : Accepts env.unicode call.message s.db) :
    (PushMatchesPull env call s (ListsOnPages limit call.message.row) ↔
      BlocksReturned call.message s.db) ∧
    ((∀ r ∈ s.db.roomMessages.rows, r.roomId = call.message.roomId →
        messageKey r < messageKey call.message.row) →
      (PushMatchesPull env call s (ListsFirst limit call.message.row) ↔
        BlocksReturned call.message s.db)) := by
  have hstored := sendRoomMessage_stored h
  constructor
  · exact pushMatchesPull_iff h (fun m hm => hstored.listsOnPages_iff hlimit hm)
  · intro hnewest
    exact pushMatchesPull_iff h (fun m hm => hstored.listsFirst_iff hlimit hnewest hm)

end

/-- Room 9 of Alice (1), Bob (2) and Carol (3), before the first message. -/
def threeMembers (blocks : List UserBlock) (h : (blocks.map UserBlock.key).Nodup) : Server :=
  let user (id : Uuid) (name : String) : User :=
    ⟨id, name, name, "", none, none, none, "user", true, none, true, none, 0, none⟩
  { db := { Db.empty with
      users := ⟨[user 1 "alice", user 2 "bob", user 3 "carol"], by simp [user]⟩
      rooms := .single ⟨9, "Tea", 1⟩
      roomMembers := ⟨[⟨9, 1, "owner", none⟩, ⟨9, 2, "member", none⟩, ⟨9, 3, "member", none⟩],
        by simp [RoomMember.key]⟩
      userBlocks := ⟨blocks, h⟩ }
    setupToken := none
    registrations := []
    actorKeys := []
    sent := [] }

/-- Alice writes to the room. -/
def aliceWrites : SendRoomMessageCall := ⟨⟨24, 9, 1, "hello", 8, 8⟩, 8, 8, 50⟩

theorem accepts_aliceWrites (blocks : List UserBlock) (h : (blocks.map UserBlock.key).Nodup) :
    Accepts Guild.asciiEnv.unicode aliceWrites.message (threeMembers blocks h).db :=
  ⟨rfl, rfl, by decide, by decide, rfl, rfl⟩

/-- Bob has blocked Alice: he neither gets her message nor reads it. -/
theorem fanout_matches_blockedSender :
    PushMatchesPull Guild.asciiEnv aliceWrites (threeMembers [⟨2, 1⟩] (by simp))
      (ListsFirst 50 aliceWrites.message.row) :=
  ((fanout_matches_iff Guild.asciiEnv aliceWrites (threeMembers [⟨2, 1⟩] (by simp)) 50 (by decide)
    (accepts_aliceWrites _ _)).2 (fun _ hr => nomatch hr)).mpr (by
      unfold BlocksReturned
      decide)

/-- Alice has blocked Bob: he reads the message which he was not sent. -/
theorem blocked_member_reads :
    ¬ PushMatchesPull Guild.asciiEnv aliceWrites (threeMembers [⟨1, 2⟩] (by simp))
      (ListsFirst 50 aliceWrites.message.row) := by
  rintro ⟨out, hout, hall⟩
  have hstored := sendRoomMessage_stored (accepts_aliceWrites [⟨1, 2⟩] (by simp))
  have hlists : ListsFirst 50 aliceWrites.message.row _ 2 :=
    (hstored.listsFirst_iff (by decide) (fun _ hr => nomatch hr) (by decide)).mpr (by decide)
  have hreceives := (hall 2 (by decide) (by decide)).mpr hlists
  rcases sendRoomMessage_sent Guild.asciiEnv aliceWrites (threeMembers [⟨1, 2⟩] (by simp)) with
    ⟨hno, -⟩ | ⟨-, hsent⟩
  · exact hno (accepts_aliceWrites _ _)
  · rw [hsent] at hout
    rw [← List.append_cancel_left hout, receives_iff (by decide)] at hreceives
    revert hreceives
    decide

end SyncServer.Messaging
