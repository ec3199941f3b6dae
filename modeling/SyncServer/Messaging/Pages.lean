import SyncServer.Messaging.Conversations
import SyncServer.Moderation.Reports
import SyncServer.Rooms.Effects

/-! # Pages of messages

Rooms and conversations are read page after page, the id of the last message of a page being the
cursor for the next one. Both are listings of the same kind.
-/

namespace SyncServer.Messaging
open Transaction Moderation Rooms

theorem distinct_of_id {α : Type} {id : α → Uuid} (t : Table Uuid α id) {key : α → Int ×ₗ Uuid}
    (hkey : ∀ r, (ofLex (key r)).2 = id r) (p : α → Bool) :
    ((t.rows.filter p).map key).Nodup := by
  apply List.Nodup.of_map (fun k => (ofLex k).2)
  rw [List.map_map, show (fun k => (ofLex k).2) ∘ key = id from funext hkey]
  exact (t.filter p).keys_nodup

def cursorKey {α : Type} {id : α → Uuid} (key : α → Int ×ₗ Uuid) (belongs : α → Bool)
    (t : Table Uuid α id) (i : Uuid) : Option (Int ×ₗ Uuid) :=
  ((t.get i).filter belongs).map key

section
variable {α : Type} {id : α → Uuid} {key : α → Int ×ₗ Uuid} {belongs marked : α → Bool}
  {mark : Int → α → α} {t t' : Table Uuid α id}

theorem cursorKey_eq_some {i : Uuid} {k : Int ×ₗ Uuid} : cursorKey key belongs t i = some k ↔
    ∃ r, t.get i = some r ∧ belongs r = true ∧ key r = k := by
  simp only [cursorKey, Option.map_eq_some_iff, Option.filter_eq_some_iff, and_assoc]

theorem cursorKey_of_mem {r : α} (hr : r ∈ t.rows) (hbelongs : belongs r = true) :
    cursorKey key belongs t (id r) = some (key r) :=
  cursorKey_eq_some.mpr ⟨r, Table.get_eq_some.mpr ⟨hr, rfl⟩, hbelongs, rfl⟩

theorem cursorKey_stays {returned : List α}
    (h : MarkedAbove key belongs marked mark returned t.rows t'.rows)
    (hid : ∀ τ r, id (mark τ r) = id r) (hbelongs : ∀ τ r, belongs (mark τ r) = belongs r)
    (hkey : ∀ τ r, key (mark τ r) = key r) {i : Uuid} {k : Int ×ₗ Uuid}
    (hk : cursorKey key belongs t i = some k) : cursorKey key belongs t' i = some k := by
  obtain ⟨r, hget, hr, rfl⟩ := cursorKey_eq_some.mp hk
  obtain ⟨hrow, rfl⟩ := Table.get_eq_some.mp hget
  obtain ⟨r', hr', rfl | ⟨τ, rfl⟩⟩ := h.still hrow hr
  · exact cursorKey_of_mem hr' hr
  · rw [← hid τ, ← hkey τ]
    exact cursorKey_of_mem hr' ((hbelongs τ r).trans hr)

end

/-! ## Rooms -/

/-- The answer of `get_room_messages`. -/
def roomPage (roomId viewerId : Uuid) (limit : Nat) (beforeId : Option Uuid) (s : Db) :
    Except AppError (List RoomMessage) :=
  ((getRoomMessages roomId viewerId beforeId limit).run s).1

/-- The messages of a room that a viewer may see. -/
def roomMessagesFor (s : Db) (roomId viewerId : Uuid) : List RoomMessage :=
  messagesIn s roomId (blockedBy s viewerId)

/-- The room may be read: it exists, and the viewer is a member. -/
def Readable (roomId viewerId : Uuid) (s : Db) : Prop :=
  (s.rooms.get roomId).isSome ∧ IsMember s roomId viewerId

def isIn (roomId : Uuid) (m : RoomMessage) : Bool := decide (m.roomId = roomId)

section
variable {roomId viewerId : Uuid} {limit : Nat} {s s' : Db}

theorem messageKey_lt {r r' : RoomMessage} : messageKey r < messageKey r' ↔
    r.createdAt < r'.createdAt ∨ (r.createdAt = r'.createdAt ∧ r.id < r'.id) := by
  rw [messageKey, messageKey, Prod.Lex.toLex_lt_toLex]

theorem mem_roomMessagesFor {m : RoomMessage} : m ∈ roomMessagesFor s roomId viewerId ↔
    m ∈ s.roomMessages.rows ∧ m.roomId = roomId ∧ m.deletedAt = none ∧
      m.senderId ∉ blockedBy s viewerId := by
  simp [roomMessagesFor, messagesIn]

theorem Readable.ensure (h : Readable roomId viewerId s) :
    ∃ room, (ensureRoomMember roomId viewerId).run s = (.ok room, s) := by
  obtain ⟨room, hroom⟩ := Option.isSome_iff_exists.mp h.1
  exact ⟨room, ensureRoomMember_ok.mpr ⟨hroom, h.2, rfl⟩⟩

theorem roomPage_first (h : Readable roomId viewerId s) : roomPage roomId viewerId limit none s =
    .ok ((newestFirst messageKey (roomMessagesFor s roomId viewerId)).take (min limit 100)) := by
  obtain ⟨room, hroom⟩ := h.ensure
  rw [roomPage, getRoomMessages, Tx.run_bind_ok hroom, listBlockedUserIds,
    Tx.run_bind_ok (Tx.run_query _ _)]
  rfl

theorem roomPage_next (h : Readable roomId viewerId s) {i : Uuid} {k : Int ×ₗ Uuid}
    (hk : cursorKey messageKey (isIn roomId) s.roomMessages i = some k) : roomPage roomId viewerId limit (some i) s =
      .ok ((newestFirst messageKey (rowsBelow messageKey (some k)
        (roomMessagesFor s roomId viewerId))).take (min limit 100)) := by
  obtain ⟨room, hroom⟩ := h.ensure
  obtain ⟨cursor, hget, hin, rfl⟩ := cursorKey_eq_some.mp hk
  have hid : cursor.id = i := Table.key_of_get hget
  have hbelow : ∀ r : RoomMessage, decide (r.createdAt < cursor.createdAt ∨
      (r.createdAt = cursor.createdAt ∧ r.id < i)) = decide (messageKey r < messageKey cursor) := by
    intro r
    rw [decide_eq_decide, messageKey_lt, hid]
  rw [roomPage, getRoomMessages, Tx.run_bind_ok hroom, listBlockedUserIds,
    Tx.run_bind_ok (Tx.run_query _ _)]
  simp only
  rw [Tx.run_bind_ok (Tx.run_query _ _), hget, Tx.run_bind_ok (Tx.run_okOr _ _ _),
    if_neg (not_not.mpr (of_decide_eq_true hin)), Tx.run_query]
  simp only [hbelow, rowsBelow, Option.all_some]
  rfl

end

def roomListing (roomId viewerId : Uuid) (limit : Nat) :
    Listing Db RoomMessage Uuid AppError (Int ×ₗ Uuid) where
  key := messageKey
  id := RoomMessage.id
  visible s := roomMessagesFor s roomId viewerId
  distinct s := distinct_of_id s.roomMessages (fun _ => rfl) _
  locate s := cursorKey messageKey (isIn roomId) s.roomMessages
  found s r hr := by
    obtain ⟨hrow, hroom, -⟩ := mem_roomMessagesFor.mp hr
    exact cursorKey_of_mem hrow (decide_eq_true hroom)
  ready := Readable roomId viewerId
  limit := min limit 100
  read := roomPage roomId viewerId limit
  read_first _ h := roomPage_first h
  read_next _ _ _ h hk := roomPage_next h hk

/-- What may happen between two pages of a room: messages appear above something that was returned,
and returned messages are deleted. -/
structure RoomMoves (roomId viewerId : Uuid) (returned : List RoomMessage) (s s' : Db) : Prop where
  readable : Readable roomId viewerId s'
  blocks : ∀ u, u ∈ blockedBy s' viewerId ↔ u ∈ blockedBy s viewerId
  messages : MarkedAbove messageKey (isIn roomId) (fun m => m.deletedAt.isSome) deletedRoomMessage
    returned s.roomMessages.rows s'.roomMessages.rows

theorem RoomMoves.later {roomId viewerId : Uuid} (limit : Nat) {returned : List RoomMessage}
    {s s' : Db} (h : RoomMoves roomId viewerId returned s s') :
    (roomListing roomId viewerId limit).Later returned s s' where
  ready := h.readable
  appear r hr := by
    obtain ⟨hrow, hroom, hlive, hsender⟩ := mem_roomMessagesFor.mp hr
    rcases h.messages.appear (fun _ _ => rfl) hrow (decide_eq_true hroom) (by simp [hlive])
      with hold | habove
    · rw [h.blocks] at hsender
      exact .inl (mem_roomMessagesFor.mpr ⟨hold, hroom, hlive, hsender⟩)
    · exact .inr habove
  remain r hr := by
    obtain ⟨hrow, hroom, hlive, hsender⟩ := mem_roomMessagesFor.mp hr
    rcases h.messages.remain hrow (decide_eq_true hroom) (by simp [hlive]) with hkept | hreturned
    · rw [← h.blocks] at hsender
      exact .inl (mem_roomMessagesFor.mpr ⟨hkept, hroom, hlive, hsender⟩)
    · exact .inr hreturned
  cursors _ _ := cursorKey_stays h.messages (fun _ _ => rfl) (fun _ _ => rfl) (fun _ _ => rfl)

/-! ## Conversations -/

/-- The messages of a conversation that its users may see. -/
def conversationFor (s : Db) (userA userB : Uuid) : List Message :=
  if blockBetween s userA userB then [] else conversationOf s userA userB

theorem mem_conversationFor {s : Db} {userA userB : Uuid} {m : Message} :
    m ∈ conversationFor s userA userB ↔ blockBetween s userA userB = false ∧
      m ∈ s.messages.rows ∧ isBetween userA userB m = true ∧ m.deletedAt.isNone = true := by
  rw [conversationFor]
  cases blockBetween s userA userB <;> simp [conversationOf]

def conversationListing (userA userB : Uuid) (limit : Nat) :
    Listing Db Message Uuid AppError (Int ×ₗ Uuid) where
  key := messageOrder
  id := Message.id
  visible s := conversationFor s userA userB
  distinct s := by
    rw [conversationFor]
    split
    · exact List.nodup_nil
    · exact distinct_of_id s.messages (fun _ => rfl) _
  locate s := cursorKey messageOrder (isBetween userA userB) s.messages
  found s r hr := by
    obtain ⟨-, hrow, hbetween, -⟩ := mem_conversationFor.mp hr
    exact cursorKey_of_mem hrow hbetween
  ready _ := True
  limit := min limit 100
  read := conversationPage userA userB limit
  read_first s _ := by
    rcases hb : blockBetween s userA userB with _ | _
    · simp [conversationFor, hb, conversationPage_first hb]
    · simp [conversationFor, hb, conversationPage_blocked hb, newestFirst]
  read_next s i k _ hk := by
    obtain ⟨m, hm, -, rfl⟩ := cursorKey_eq_some.mp hk
    rcases hb : blockBetween s userA userB with _ | _
    · simp [conversationFor, hb, conversationPage_next hb hm]
    · simp [conversationFor, hb, conversationPage_blocked hb, newestFirst, rowsBelow]

/-- What may happen between two pages of a conversation: messages appear above something that was
returned, and returned messages are deleted. -/
structure ConversationMoves (userA userB : Uuid) (returned : List Message) (s s' : Db) : Prop where
  blocks : blockBetween s' userA userB = blockBetween s userA userB
  messages : MarkedAbove messageOrder (isBetween userA userB) (fun m => m.deletedAt.isSome)
    deletedMessage returned s.messages.rows s'.messages.rows

theorem ConversationMoves.later {userA userB : Uuid} (limit : Nat) {returned : List Message}
    {s s' : Db} (h : ConversationMoves userA userB returned s s') :
    (conversationListing userA userB limit).Later returned s s' where
  ready := trivial
  appear r hr := by
    obtain ⟨hb, hrow, hbetween, hlive⟩ := mem_conversationFor.mp hr
    rcases h.messages.appear (fun _ _ => rfl) hrow hbetween (by simpa using hlive)
      with hold | habove
    · exact .inl (mem_conversationFor.mpr ⟨h.blocks.symm.trans hb, hold, hbetween, hlive⟩)
    · exact .inr habove
  remain r hr := by
    obtain ⟨hb, hrow, hbetween, hlive⟩ := mem_conversationFor.mp hr
    rcases h.messages.remain hrow hbetween (by simpa using hlive) with hkept | hreturned
    · exact .inl (mem_conversationFor.mpr ⟨h.blocks.trans hb, hkept, hbetween, hlive⟩)
    · exact .inr hreturned
  cursors _ _ := cursorKey_stays h.messages (fun _ _ => rfl) (fun _ _ => rfl) (fun _ _ => rfl)

/-! ## All pages -/

/-- Reading until a page is empty returns what was visible at first, each message once, newest
first, in pages of at most `n`; and it would have returned the same pages of a database that does not
change. -/
def ReadsAll {α : Type} (read : Option Uuid → Db → Except AppError (List α)) (id : α → Uuid)
    (key : α → Int ×ₗ Uuid) (n : Nat) (visible : List α) (s : Db) (later : List Db) : Prop :=
  ∃ pages, readPages read id none (s :: later) = .ok pages ∧ pages.length ≤ later.length ∧
    PagesOf key n visible pages ∧
    readPages read id none (s :: List.replicate later.length s) = .ok pages

/-- Keyset pagination is complete, for rooms and for conversations. -/
theorem pagination_complete (limit : Nat) (hlimit : 1 ≤ limit ∧ limit ≤ 255) :
    (∀ roomId viewerId s later, Readable roomId viewerId s →
      BetweenPages (roomPage roomId viewerId limit) RoomMessage.id (RoomMoves roomId viewerId) [] none
        s later →
      (roomMessagesFor s roomId viewerId).length ≤ later.length →
      ReadsAll (roomPage roomId viewerId limit) RoomMessage.id messageKey (min limit 100)
        (roomMessagesFor s roomId viewerId) s later) ∧
    (∀ userA userB s later,
      BetweenPages (conversationPage userA userB limit) Message.id (ConversationMoves userA userB) []
        none s later →
      (conversationFor s userA userB).length ≤ later.length →
      ReadsAll (conversationPage userA userB limit) Message.id messageOrder (min limit 100)
        (conversationFor s userA userB) s later) := by
  have hpos : 0 < min limit 100 := by omega
  constructor
  · intro roomId viewerId s later hread hmoves hlen
    exact (roomListing roomId viewerId limit).readPages_complete hpos hread
      (hmoves.mono (fun _ _ _ h => h.later limit)) hlen
  · intro userA userB s later hmoves hlen
    exact (conversationListing userA userB limit).readPages_complete hpos trivial
      (hmoves.mono (fun _ _ _ h => h.later limit)) hlen

theorem readAll_roomPage {roomId viewerId : Uuid} {limit : Nat} {s : Db} (hlimit : 1 ≤ limit)
    (h : Readable roomId viewerId s) :
    readAll (roomPage roomId viewerId limit) RoomMessage.id s.roomMessages.rows.length s =
      .ok (newestFirst messageKey (roomMessagesFor s roomId viewerId)) := by
  have hpos : 0 < (roomListing roomId viewerId limit).limit := by
    change 0 < min limit 100
    omega
  exact (roomListing roomId viewerId limit).readAll_eq hpos h (List.length_filter_le _ _)

theorem readAll_conversationPage {limit : Nat} (hlimit : 1 ≤ limit) (userA userB : Uuid) (s : Db) :
    readAll (conversationPage userA userB limit) Message.id s.messages.rows.length s =
      .ok (newestFirst messageOrder (conversationFor s userA userB)) := by
  have hlen : (conversationFor s userA userB).length ≤ s.messages.rows.length := by
    rw [conversationFor]
    split
    · simp
    · exact List.length_filter_le _ _
  have hpos : 0 < (conversationListing userA userB limit).limit := by
    change 0 < min limit 100
    omega
  exact (conversationListing userA userB limit).readAll_eq hpos trivial hlen

theorem betweenPages_once {α : Type} {read : Option Uuid → Db → Except AppError (List α)}
    {id : α → Uuid} {R : List α → Db → Db → Prop} {s s' : Db} {page : List α}
    (hread : read none s = .ok page) (hmove : R page s s') (hstay : ∀ returned, R returned s' s')
    (n : Nat) : BetweenPages read id R [] none s (s' :: List.replicate n s') := by
  intro page' m hread' _
  rw [hread, Except.ok.injEq] at hread'
  subst hread'
  exact ⟨hmove, .replicate hstay n _ _⟩

def chatting (inRoom : List RoomMessage) (direct : List Message) (hroom : (inRoom.map RoomMessage.id).Nodup)
    (hdirect : (direct.map Message.id).Nodup) : Db :=
  { Db.empty with
    rooms := ⟨[⟨9, "Tea", 1⟩], by decide⟩
    roomMembers := ⟨[⟨9, 1, "owner", none⟩, ⟨9, 2, "member", none⟩], by decide⟩
    roomMessages := ⟨inRoom, hroom⟩
    messages := ⟨direct, hdirect⟩ }

/-- Two of the three messages are of the same time. -/
def beforeReading : Db :=
  chatting [⟨21, 9, 2, "one", none, 5⟩, ⟨22, 9, 2, "two", none, 5⟩, ⟨23, 9, 1, "three", none, 6⟩]
    [⟨31, 1, 2, "one", none, 5⟩, ⟨32, 2, 1, "two", none, 5⟩, ⟨33, 1, 2, "three", none, 6⟩]
    (by decide) (by decide)

/-- The newest message is deleted, and another one arrives. -/
def whileReading : Db :=
  chatting [⟨21, 9, 2, "one", none, 5⟩, ⟨22, 9, 2, "two", none, 5⟩, ⟨23, 9, 1, "three", some 7, 6⟩,
      ⟨24, 9, 2, "four", none, 8⟩]
    [⟨31, 1, 2, "one", none, 5⟩, ⟨32, 2, 1, "two", none, 5⟩, ⟨33, 1, 2, "three", some 7, 6⟩,
      ⟨34, 2, 1, "four", none, 8⟩] (by decide) (by decide)

theorem readable_chatting (s : Db) (h : s = beforeReading ∨ s = whileReading) : Readable 9 1 s := by
  rcases h with rfl | rfl
  · exact ⟨by decide, by decide⟩
  · exact ⟨by decide, by decide⟩

theorem pagination_complete_two :
    ReadsAll (roomPage 9 1 2) RoomMessage.id messageKey (min 2 100)
        (roomMessagesFor beforeReading 9 1) beforeReading
        (whileReading :: List.replicate 2 whileReading) ∧
      ReadsAll (conversationPage 1 2 2) Message.id messageOrder (min 2 100)
        (conversationFor beforeReading 1 2) beforeReading
        (whileReading :: List.replicate 2 whileReading) := by
  have hroom : roomPage 9 1 2 none beforeReading =
      .ok [⟨23, 9, 1, "three", none, 6⟩, ⟨22, 9, 2, "two", none, 5⟩] := by decide
  have hdirect : conversationPage 1 2 2 none beforeReading =
      .ok [⟨33, 1, 2, "three", none, 6⟩, ⟨32, 2, 1, "two", none, 5⟩] := by decide
  constructor
  · refine (pagination_complete 2 (by decide)).1 9 1 beforeReading _ (readable_chatting _ (.inl rfl))
      (betweenPages_once hroom ?_ (fun returned => ?_) 2) (by decide)
    · refine ⟨readable_chatting _ (.inr rfl), fun _ => Iff.rfl, ⟨?_, ?_⟩⟩
      · simp [beforeReading, whileReading, chatting, deletedRoomMessage]
      · simp [beforeReading, whileReading, chatting, deletedRoomMessage, messageKey_lt]
    · exact ⟨readable_chatting _ (.inr rfl), fun _ => Iff.rfl, .refl _ _⟩
  · refine (pagination_complete 2 (by decide)).2 1 2 beforeReading _
      (betweenPages_once hdirect ?_ (fun returned => ?_) 2) (by decide)
    · refine ⟨rfl, ⟨?_, ?_⟩⟩
      · simp [beforeReading, whileReading, chatting, deletedMessage]
      · simp [beforeReading, whileReading, chatting, deletedMessage, messageOrder_lt]
    · exact ⟨rfl, .refl _ _⟩

end SyncServer.Messaging
