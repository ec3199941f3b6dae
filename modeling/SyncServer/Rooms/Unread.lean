import SyncServer.Rooms.Owners
import SyncServer.Transaction.Interference

/-! # Unread messages

A member has read a room up to a time. A message gets its time when the transaction that sends it
begins, and is visible when this transaction commits. Between the two the member may mark the room as
read, at a time that is later than the one of the message which she cannot see.
-/

namespace SyncServer.Rooms
open Transaction ReadCommitted Moderation Messaging

def unreadMessages (s : Db) (roomId viewerId : Uuid) : List RoomMessage :=
  (messagesIn s roomId (blockedBy s viewerId)).filter (fun r => decide (r.senderId ≠ viewerId) &&
    ((s.roomMembers.get (roomId, viewerId)).bind RoomMember.lastReadAt).all
      (fun t => decide (t < r.createdAt)))

/-- The message is among those that `get_room` counts as unread. -/
structure CountedUnread (s : Db) (roomId viewerId : Uuid) (m : RoomMessage) : Prop where
  mem : m ∈ unreadMessages s roomId viewerId
  count : ∀ detail s', (getRoom roomId viewerId).run s = (.ok detail, s') →
    detail.unreadCount = (unreadMessages s roomId viewerId).length

/-- The operations on the messages of rooms. -/
def RoomOp.IsTraffic : RoomOp → Prop
  | getRoom .. => True
  | getRoomMessages .. => True
  | sendRoomMessage .. => True
  | markRoomRead .. => True
  | listRoomMemberIds .. => True
  | _ => False

def RoomOp.marks (roomId viewerId : Uuid) : RoomOp → Option Int
  | sendRoomMessage new =>
    if new.roomId = roomId ∧ new.senderId = viewerId then some new.now else none
  | markRoomRead r v now => if r = roomId ∧ v = viewerId then some now else none
  | _ => none

def stored (m : RoomMessage) (s : Db) : Db := ((insertRoomMessage m).run s).2

/-- What an operation on messages does to the database when it commits. -/
def RoomOp.write : RoomOp → Db → Db
  | sendRoomMessage new, s => withReader new.roomId new.senderId new.now (stored new.row s)
  | markRoomRead roomId viewerId now, s => withReader roomId viewerId now s
  | _, s => s

section
variable {s : Db} {roomId viewerId : Uuid} {m : RoomMessage}

/-- The unread count of `get_room`. -/
theorem getRoom_unreadCount {detail : RoomDetail} {s' : Db}
    (h : (getRoom roomId viewerId).run s = (.ok detail, s')) :
    detail.unreadCount = (unreadMessages s roomId viewerId).length := by
  unfold getRoom at h
  replace h := Tx.run_bind_eq_ok h
  obtain ⟨room, s₁, hroom, h⟩ := h
  obtain ⟨hget, -, rfl⟩ := ensureRoomMember_ok.mp hroom
  obtain rfl : room.id = roomId := Table.key_of_get hget
  rw [roomDetail, Tx.run_bind_ok (Tx.run_query _ _)] at h
  replace h := Tx.run_bind_eq_ok h
  obtain ⟨membership, s₃, hmembership, h⟩ := h
  obtain ⟨hmember, rfl⟩ := Tx.run_okOr_ok.mp hmembership
  obtain ⟨summary, s₄, hsummary, h⟩ := Tx.run_bind_eq_ok h
  obtain ⟨members, s₅, -, h⟩ := Tx.run_bind_eq_ok h
  cases h
  cases hsummary
  rw [unreadMessages, hmember, Option.bind_some, ← List.countP_eq_length_filter]
  rfl

theorem countedUnread_iff :
    CountedUnread s roomId viewerId m ↔ m ∈ unreadMessages s roomId viewerId :=
  ⟨CountedUnread.mem, fun h => ⟨h, fun _ _ => getRoom_unreadCount⟩⟩

/-! ## Writes -/

theorem stored_cases (m : RoomMessage) (s : Db) : stored m s = s ∨
    ∃ t, t.rows = s.roomMessages.rows ++ [m] ∧ stored m s = { s with roomMessages := t } := by
  rcases Query.run_exec_cases (fun _ => []) _ s with ⟨e, he⟩ | ⟨saved, s', hadd, hrun⟩
  · exact .inl (congrArg Prod.snd he)
  · refine .inr ?_
    have hs' : stored m s = s' := congrArg Prod.snd hrun
    rcases ht : s.roomMessages.insert m with _ | t
    · simp [ht] at hadd
    · simp only [ht] at hadd
      split at hadd <;> cases hadd
      exact ⟨t, Table.rows_of_insert ht, hs'⟩

theorem stored_roomMembers (m : RoomMessage) (s : Db) : (stored m s).roomMembers = s.roomMembers := by
  rcases stored_cases m s with h | ⟨t, -, h⟩
  · rw [h]
  · rw [h]

theorem get_withReader (userId : Uuid) (now : Int) (r : Uuid) :
    (withReader r userId now s).roomMembers.get (roomId, viewerId) =
      if r = roomId ∧ userId = viewerId then
        (s.roomMembers.get (roomId, viewerId)).map (readAt now)
      else s.roomMembers.get (roomId, viewerId) := by
  by_cases h : (roomId, viewerId) = (r, userId)
  · obtain ⟨rfl, rfl⟩ := Prod.mk.inj h
    rw [withReader, Table.get_update_self, if_pos ⟨rfl, rfl⟩]
  · rw [withReader, Table.get_update_of_ne _ _ _ h, if_neg]
    rintro ⟨rfl, rfl⟩
    exact h rfl

theorem get_write (op : RoomOp) (s : Db) :
    (op.write s).roomMembers.get (roomId, viewerId) = match op.marks roomId viewerId with
      | some t => (s.roomMembers.get (roomId, viewerId)).map (readAt t)
      | none => s.roomMembers.get (roomId, viewerId) := by
  cases op with
  | sendRoomMessage new =>
    rw [RoomOp.write, get_withReader, stored_roomMembers, RoomOp.marks]
    split <;> rfl
  | markRoomRead r v now =>
    rw [RoomOp.write, get_withReader, RoomOp.marks]
    split <;> rfl
  | _ => rfl

theorem mem_write {op : RoomOp} (hm : m ∈ (op.write s).roomMessages.rows) :
    m ∈ s.roomMessages.rows ∨ ∃ new, op = .sendRoomMessage new ∧ m = new.row := by
  cases op with
  | sendRoomMessage new =>
    change m ∈ (stored new.row s).roomMessages.rows at hm
    rcases stored_cases new.row s with h | ⟨t, hrows, h⟩
    · exact .inl (h ▸ hm)
    · rw [h] at hm
      change m ∈ t.rows at hm
      rw [hrows, List.mem_append, List.mem_singleton] at hm
      exact hm.imp_right (fun hm => ⟨new, rfl, hm⟩)
  | _ => exact .inl hm

theorem isMember_write (op : RoomOp) (s : Db) (r u : Uuid) :
    IsMember (op.write s) r u ↔ IsMember s r u := by
  rw [IsMember, get_write, IsMember]
  split
  · rw [Option.isSome_map]
  · rfl

end

/-! ## Operations that others interrupt -/

def SameMembers (s s' : Db) : Prop := ∀ r u, IsMember s' r u ↔ IsMember s r u

/-- What comes of an operation: when it succeeds it makes its write, and a member who has read a room
up to a time is one. -/
def RoomOp.Ended (s : Db) (op : RoomOp) (result : Except AppError RoomAnswer) (p : Db → Db) :
    Prop :=
  ∀ a, result = .ok a → p = op.write ∧
    ∀ roomId viewerId t, op.marks roomId viewerId = some t → IsMember s roomId viewerId

section
variable {s : Db} {unicode : Unicode}

theorem ended_error (op : RoomOp) (e : AppError) (p : Db → Db) : op.Ended s (.error e) p := by
  intro a h
  cases h

theorem ends_reading {α : Type} {t : Query α} (ht : t.Keeps id) (answer : α → RoomAnswer)
    {op : RoomOp} (hwrite : op.write = id)
    (hmarks : ∀ roomId viewerId, op.marks roomId viewerId = none) :
    (do let a ← t; pure (answer a) : Query RoomAnswer).Ends (SameMembers s) (op.Ended s) id := by
  refine (Tx.ends_of_keeps ht id).bind (fun a q hq => ?_) (fun e q _ => ended_error _ e q)
  subst hq
  rw [Tx.ends_pure]
  intro b _
  refine ⟨hwrite.symm, fun roomId viewerId t hmark => ?_⟩
  rw [hmarks] at hmark
  cases hmark

theorem ends_ensureRoomMember (roomId viewerId : Uuid) :
    (ensureRoomMember roomId viewerId).Ends (SameMembers s)
      (fun r q => q = id ∧ ∀ room, r = .ok room → IsMember s roomId viewerId) id := by
  rw [ensureRoomMember, Tx.ends_query_bind]
  intro d _
  rw [Tx.ends_okOr_bind, id_eq]
  rcases d.rooms.get roomId with _ | room
  · exact ⟨rfl, fun room h => by cases h⟩
  · rw [Option.elim_some, Tx.ends_query_bind]
    intro d' hd'
    rw [id_eq]
    rcases hm : d'.roomMembers.get (roomId, viewerId) with _ | membership
    · simp
    · have hmember : IsMember s roomId viewerId := by
        rw [← hd', IsMember, hm]
        rfl
      simp [hmember]

theorem ends_insertRoomMessage {I : Db → Prop} (m : RoomMessage) :
    (insertRoomMessage m).Ends I (fun _ q => q = stored m) id := by
  rw [insertRoomMessage, Query.exec, Tx.ends_exec]
  exact fun _ _ => rfl

theorem ends_updateLastReadAt {I : Db → Prop} (roomId userId : Uuid) (now : Int) (p : Db → Db) :
    (updateLastReadAt roomId userId now).Ends I (fun _ q => q = withReader roomId userId now ∘ p) p := by
  rw [updateLastReadAt, Query.exec, Tx.ends_exec]
  exact fun _ _ => rfl

theorem ends_sendRoomMessage (new : NewRoomMessage) :
    ((RoomOp.sendRoomMessage new).transaction unicode).Ends (SameMembers s)
      ((RoomOp.sendRoomMessage new).Ended s) id := by
  rw [RoomOp.transaction, storeRoomMessage, Tx.bind_assoc]
  refine (ends_ensureRoomMember new.roomId new.senderId).bind (fun room q hq => ?_)
    (fun e q _ => ended_error _ e q)
  obtain ⟨rfl, hmember⟩ := hq
  rw [Tx.bind_assoc, Tx.ends_done_bind]
  split
  swap
  · exact ended_error _ _ _
  rw [Tx.bind_assoc, Tx.ends_done_bind]
  split
  swap
  · exact ended_error _ _ _
  rw [Tx.bind_assoc]
  refine (ends_insertRoomMessage new.row).bind (fun message q hq => ?_) (fun e q _ => ended_error _ e q)
  subst hq
  rw [Tx.bind_assoc]
  refine (ends_updateLastReadAt new.roomId new.senderId new.now _).bind (fun _ q hq => ?_)
    (fun e q _ => ended_error _ e q)
  subst hq
  simp only [Tx.ends_bind, Tx.ends_pure]
  intro a _
  refine ⟨rfl, fun roomId viewerId t hmark => ?_⟩
  rw [RoomOp.marks] at hmark
  split at hmark
  · rename_i h
    exact h.1 ▸ h.2 ▸ hmember room rfl
  · cases hmark

theorem ends_roomAccessError {α : Type} {I : Db → Prop} (roomId : Uuid) (p : Db → Db) :
    (roomAccessError roomId : Query α).Ends I (fun r _ => ∀ a, r ≠ .ok a) p := by
  rw [roomAccessError, Tx.ends_query_bind]
  intro d _
  split
  · rw [Tx.ends_throw]
    exact fun a h => by cases h
  · rw [Tx.ends_throw]
    exact fun a h => by cases h

theorem ends_markRoomRead (roomId viewerId : Uuid) (now : Int) :
    ((RoomOp.markRoomRead roomId viewerId now).transaction unicode).Ends (SameMembers s)
      ((RoomOp.markRoomRead roomId viewerId now).Ended s) id := by
  rw [RoomOp.transaction, markRoomRead, Tx.bind_assoc, Tx.ends_query_bind]
  intro d hd
  rw [id_eq]
  rcases hm : d.roomMembers.get (roomId, viewerId) with _ | membership
  · refine (ends_roomAccessError roomId id).bind (fun a q hq => ?_) (fun e q _ => ended_error _ e q)
    exact absurd rfl (hq a)
  · have hmember : IsMember s roomId viewerId := by
      rw [← hd, IsMember, hm]
      rfl
    simp only [Tx.bind_assoc]
    refine (Tx.ends_of_keeps (keeps_roomUnreadCount _ _ _) id).bind (fun unread q hq => ?_)
      (fun e q _ => ended_error _ e q)
    subst hq
    refine (ends_updateLastReadAt roomId viewerId now id).bind (fun _ q hq => ?_)
      (fun e q _ => ended_error _ e q)
    subst hq
    simp only [Tx.ends_bind, Tx.ends_pure]
    intro a _
    refine ⟨rfl, fun r v t hmark => ?_⟩
    rw [RoomOp.marks] at hmark
    split at hmark
    · rename_i h
      exact h.1 ▸ h.2 ▸ hmember
    · cases hmark

theorem keeps_getRoomMessages {τ : Type} {π : Db → τ} (roomId viewerId : Uuid)
    (beforeId : Option Uuid) (limit : Nat) :
    (getRoomMessages roomId viewerId beforeId limit).Keeps π := by
  apply Tx.keeps_bind (keeps_ensureRoomMember _ _)
  intro room
  apply Tx.keeps_bind (Tx.keeps_query _ _)
  intro blocked
  cases beforeId with
  | none => exact Tx.keeps_query _ _
  | some cursorId =>
    apply Tx.keeps_bind (Tx.keeps_query _ _)
    intro found
    apply Tx.keeps_bind (Tx.keeps_okOr _ _ found)
    intro cursor
    split
    · exact Tx.keeps_throw _ _
    · exact Tx.keeps_query _ _

theorem ends_traffic {op : RoomOp} (hop : op.IsTraffic) :
    (op.transaction unicode).Ends (SameMembers s) (op.Ended s) id := by
  cases op with
  | getRoom roomId viewerId =>
    have hkeep : (getRoom roomId viewerId).Keeps id :=
      Tx.keeps_bind (keeps_ensureRoomMember _ _) (fun room => keeps_roomDetail room viewerId)
    exact ends_reading hkeep .detail rfl (fun _ _ => rfl)
  | getRoomMessages => exact ends_reading (keeps_getRoomMessages _ _ _ _) .messages rfl (fun _ _ => rfl)
  | sendRoomMessage new => exact ends_sendRoomMessage new
  | markRoomRead roomId viewerId now => exact ends_markRoomRead roomId viewerId now
  | listRoomMemberIds => exact ends_reading (keeps_listRoomMemberIds _ _) .ids rfl (fun _ _ => rfl)
  | _ => exact hop.elim

/-! ## What a run has written -/

def applyWrites (ops : List RoomOp) (s : Db) : Db := ops.foldl (fun s op => op.write s) s

@[simp] theorem applyWrites_nil (s : Db) : applyWrites [] s = s := rfl

@[simp] theorem applyWrites_cons (op : RoomOp) (ops : List RoomOp) (s : Db) :
    applyWrites (op :: ops) s = applyWrites ops (op.write s) := rfl

theorem applyWrites_append (ops ops' : List RoomOp) (s : Db) :
    applyWrites (ops ++ ops') s = applyWrites ops' (applyWrites ops s) := List.foldl_append

theorem isMember_applyWrites (ops : List RoomOp) (s : Db) (r u : Uuid) :
    IsMember (applyWrites ops s) r u ↔ IsMember s r u := by
  induction ops generalizing s with
  | nil => rfl
  | cons op ops ih => rw [applyWrites_cons, ih, isMember_write]

theorem mem_applyWrites {ops : List RoomOp} {m : RoomMessage}
    (hm : m ∈ (applyWrites ops s).roomMessages.rows) :
    m ∈ s.roomMessages.rows ∨ ∃ new, RoomOp.sendRoomMessage new ∈ ops ∧ m = new.row := by
  induction ops generalizing s with
  | nil => exact .inl hm
  | cons op ops ih =>
    rcases ih hm with hm | ⟨new, hnew, rfl⟩
    · rcases mem_write hm with hm | ⟨new, rfl, rfl⟩
      · exact .inl hm
      · exact .inr ⟨new, List.mem_cons_self, rfl⟩
    · exact .inr ⟨new, List.mem_cons_of_mem _ hnew, rfl⟩

theorem get_applyWrites_of_none {ops : List RoomOp} {roomId viewerId : Uuid}
    (h : ∀ op ∈ ops, op.marks roomId viewerId = none) :
    (applyWrites ops s).roomMembers.get (roomId, viewerId) =
      s.roomMembers.get (roomId, viewerId) := by
  induction ops generalizing s with
  | nil => rfl
  | cons op ops ih =>
    rw [applyWrites_cons, ih (fun op hop => h op (List.mem_cons_of_mem _ hop)), get_write,
      h op List.mem_cons_self]

end

/-! ## Runs -/

section
variable {ι : Type} [DecidableEq ι] {unicode : Unicode} {ops : ι → RoomOp} {db : Db}
  {es : List (ι × Action)} {s : Sys ι Db RowLock AppError RoomAnswer}

/-- The database of a run is that of the writes of its committed operations, in the order of their
commits; and a member whom one of them marks is one. -/
theorem traffic_run (hops : ∀ i, (ops i).IsTraffic)
    (h : run (start (fun i => (ops i).transaction unicode) db) es = some s) :
    s.db = applyWrites (s.log.map ops) db ∧ ∀ i ∈ s.log, ∀ roomId viewerId t,
      (ops i).marks roomId viewerId = some t → IsMember db roomId viewerId := by
  have hrun : EndsInv (SameMembers db) (fun i => (ops i).Ended db) s ∧
      ∃ history, Published (fun i _ op => op = ops i ∧ ∀ roomId viewerId t,
        (ops i).marks roomId viewerId = some t → IsMember db roomId viewerId) RoomOp.write db s
        history ∧ True := by
    refine published_run (C := fun _ _ => True) (J := fun _ _ => True) (fun i => ends_traffic (hops i)) ?_ ?_
      (fun _ _ _ _ _ _ _ _ _ _ _ _ _ => trivial) (fun _ _ => Iff.rfl) trivial (along_true _ es) h
    · intro i a p d hend hd r u
      rw [(hend a rfl).1, isMember_write]
      exact hd r u
    · intro i a p hend
      obtain ⟨rfl, hmarks⟩ := hend a rfl
      exact ⟨ops i, ⟨rfl, hmarks⟩, fun _ _ => rfl⟩
  obtain ⟨-, history, hpub, -⟩ := hrun
  have hhistory : history.map Prod.snd = s.log.map ops := by
    rw [← hpub.log, List.map_map]
    refine List.map_congr_left (fun e he => ?_)
    obtain ⟨a, -, hop, -⟩ := hpub.record e he
    exact hop
  constructor
  · rw [hpub.db, applyWrites, ← hhistory, List.foldl_map]
  · intro i hi
    rw [← hpub.log] at hi
    obtain ⟨e, he, rfl⟩ := List.mem_map.mp hi
    obtain ⟨a, -, -, hmarks⟩ := hpub.record e he
    exact hmarks

/-- While a member marks a room as read, no message is open that another member began to send at the
time of the mark or before. -/
def NoneOpen (ops : ι → RoomOp) (roomId viewerId : Uuid)
    (s : Sys ι Db RowLock AppError RoomAnswer) (e : ι × Action) : Prop :=
  ∀ now, ops e.1 = .markRoomRead roomId viewerId now → ∀ i new, ops i = .sendRoomMessage new →
    new.roomId = roomId → new.senderId ≠ viewerId → (∃ c, s.status i = .active c) →
    now < new.createdAt

/-- Operation `j` is the last of those which committed that notes how far a member has read a room,
and it does so because she marks the room as read. -/
def LastMark (ops : ι → RoomOp) (roomId viewerId : Uuid) (log : List ι) (j : ι) (now : Int) : Prop :=
  ops j = .markRoomRead roomId viewerId now ∧ ∃ before after, log = before ++ j :: after ∧
    ∀ k ∈ after, (ops k).marks roomId viewerId = none

/-- No message is silently read: one that others have sent and that is visible now, but was not when
the last mark was made, is counted as unread. -/
def NothingMissed (unicode : Unicode) (ops : ι → RoomOp) (db : Db) (roomId viewerId : Uuid)
    (es : List (ι × Action)) (s : Sys ι Db RowLock AppError RoomAnswer) : Prop :=
  ∀ before j act after s₁ now m, es = before ++ (j, act) :: after →
    run (start (fun i => (ops i).transaction unicode) db) before = some s₁ →
    LastMark ops roomId viewerId s.log j now → m ∉ s₁.db.roomMessages.rows →
    m ∈ messagesIn s.db roomId (blockedBy s.db viewerId) → m.senderId ≠ viewerId →
    CountedUnread s.db roomId viewerId m

theorem lastReadAt_of_lastMark (hops : ∀ i, (ops i).IsTraffic)
    (h : run (start (fun i => (ops i).transaction unicode) db) es = some s) {roomId viewerId : Uuid}
    {j : ι} {now : Int} (hlast : LastMark ops roomId viewerId s.log j now) :
    (s.db.roomMembers.get (roomId, viewerId)).bind RoomMember.lastReadAt = some now := by
  obtain ⟨hmark, before, after, hlog, hafter⟩ := hlast
  obtain ⟨hdb, hmembers⟩ := traffic_run hops h
  have hmarks : (ops j).marks roomId viewerId = some now := by simp [hmark, RoomOp.marks]
  have hmember : IsMember (applyWrites (before.map ops) db) roomId viewerId :=
    (isMember_applyWrites _ _ _ _).mpr (hmembers j (by simp [hlog]) roomId viewerId now hmarks)
  obtain ⟨row, hrow⟩ := Option.isSome_iff_exists.mp hmember
  rw [hdb, hlog, List.map_append, applyWrites_append, List.map_cons, applyWrites_cons,
    get_applyWrites_of_none (by simpa using hafter), get_write, hmarks, hrow]
  rfl

theorem sent_of_appeared (hops : ∀ i, (ops i).IsTraffic) {before rest : List (ι × Action)}
    {s₁ : Sys ι Db RowLock AppError RoomAnswer}
    (h₁ : run (start (fun i => (ops i).transaction unicode) db) before = some s₁)
    (h : run (start (fun i => (ops i).transaction unicode) db) (before ++ rest) = some s)
    {m : RoomMessage} (hnot : m ∉ s₁.db.roomMessages.rows) (hm : m ∈ s.db.roomMessages.rows) :
    ∃ i new, ops i = .sendRoomMessage new ∧ m = new.row ∧ ∃ c, s₁.status i = .active c := by
  have hrest : run s₁ rest = some s := by rwa [run_append h₁] at h
  obtain ⟨more, hlog, hopen⟩ := run_log hrest
  rw [(traffic_run hops h).1, hlog, List.map_append, applyWrites_append,
    ← (traffic_run hops h₁).1] at hm
  obtain ⟨new, hnew, rfl⟩ := (mem_applyWrites hm).resolve_left hnot
  obtain ⟨i, hi, hop⟩ := List.mem_map.mp hnew
  exact ⟨i, new, hop, rfl, hopen i hi⟩

end

/-- If no mark is made while an earlier message of another member is open, then no message is
silently read. -/
theorem nothing_missed {ι : Type} [DecidableEq ι] (unicode : Unicode) (ops : ι → RoomOp)
    (hops : ∀ i, (ops i).IsTraffic) (db : Db) (roomId viewerId : Uuid) (es : List (ι × Action))
    (s : Sys ι Db RowLock AppError RoomAnswer)
    (hrun : run (start (fun i => (ops i).transaction unicode) db) es = some s)
    (hopen : ReadCommitted.Along (NoneOpen ops roomId viewerId)
      (start (fun i => (ops i).transaction unicode) db) es) :
    NothingMissed unicode ops db roomId viewerId es s := by
  rintro before j act after s₁ now m rfl h₁ hlast hnot hm hsender
  obtain ⟨hrow, hvisible⟩ := List.mem_filter.mp hm
  obtain ⟨i, new, hsend, rfl, hactive⟩ := sent_of_appeared hops h₁ hrun hnot hrow
  have hroom : new.roomId = roomId := (of_decide_eq_true hvisible).1
  have hlater : now < new.createdAt :=
    hopen.at h₁ now hlast.1 i new hsend hroom hsender hactive
  have hread := lastReadAt_of_lastMark hops hrun hlast
  refine countedUnread_iff.mpr (List.mem_filter.mpr ⟨hm, ?_⟩)
  rw [hread, Option.all_some, decide_eq_true hsender, Bool.true_and]
  exact decide_eq_true hlater

/-- Bob writes to the room, beginning at a time, and Ada marks it as read at time 20. -/
def bobWritesAdaReads (begins : Int) (i : Bool) : RoomOp :=
  if i then .sendRoomMessage ⟨50, 9, 2, "hi", begins, begins + 2⟩ else .markRoomRead 9 1 20

/-- Ada's room, with Bob in it. -/
def tea : Db := adaInvitesBob.apply Unicode.ascii twoPeople

theorem isTraffic_bobWritesAdaReads (begins : Int) (i : Bool) :
    (bobWritesAdaReads begins i).IsTraffic := by
  cases i <;> trivial

/-- One transaction after the other. -/
def adaFirst : List (Bool × Action) :=
  List.replicate 4 (false, .stmt) ++ (false, .commit) ::
    (List.replicate 4 (true, .stmt) ++ [(true, .commit)])

/-- Bob's transaction commits after Ada's. -/
def bobStillWrites : List (Bool × Action) :=
  List.replicate 4 (true, .stmt) ++ (false, .stmt) ::
    (List.replicate 3 (false, .stmt) ++ [(false, .commit), (true, .commit)])

def afterTraffic (begins : Int) (es : List (Bool × Action)) :
    Option (Sys Bool Db RowLock AppError RoomAnswer) :=
  run (start (fun i => (bobWritesAdaReads begins i).transaction Unicode.ascii) tea) es

theorem nothing_missed_ada_first :
    CountedUnread ((afterTraffic 30 adaFirst).get (by decide)).db 9 1 ⟨50, 9, 2, "hi", none, 30⟩ := by
  refine nothing_missed Unicode.ascii (bobWritesAdaReads 30) (isTraffic_bobWritesAdaReads 30) tea 9 1
    adaFirst _ (Option.some_get _).symm (along_of_forall ?_ _ _) [] false .stmt _ _ 20 _ rfl rfl
    ⟨rfl, [], [true], by decide, by decide⟩ (by decide) (by decide) (by decide)
  rintro s ⟨j, act⟩ now hj i new hi - - -
  cases i <;> cases j <;> simp [bobWritesAdaReads] at hi hj
  subst hi hj
  decide

/-- Bob begins to write at time 10, Ada marks the room as read at time 20, and then Bob's message
becomes visible: Ada is not told that there is anything to read. -/
theorem bob_silently_read : (∀ i, (bobWritesAdaReads 10 i).IsTraffic) ∧
    ∃ s, afterTraffic 10 bobStillWrites = some s ∧
      ¬ NothingMissed Unicode.ascii (bobWritesAdaReads 10) tea 9 1 bobStillWrites s := by
  refine ⟨isTraffic_bobWritesAdaReads 10, (afterTraffic 10 bobStillWrites).get (by decide),
    (Option.some_get _).symm, fun hmissed => ?_⟩
  have hcounted := hmissed (List.replicate 4 (true, .stmt)) false .stmt _
    ((afterTraffic 10 (List.replicate 4 (true, .stmt))).get (by decide)) 20
    ⟨50, 9, 2, "hi", none, 10⟩ rfl (Option.some_get _).symm
    ⟨rfl, [], [true], by decide, by decide⟩ (by decide) (by decide) (by decide)
  exact absurd hcounted.mem (by decide)

end SyncServer.Rooms
