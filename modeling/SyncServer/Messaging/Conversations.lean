import Mathlib.Data.Prod.Lex
import SyncServer.Base.Keyset
import SyncServer.Moderation.Gate

/-! # Reading conversations

`get_conversation`, and what its answer depends on. The cursor of a page is the id of any message at
all, so a page may depend on a message that two other users have exchanged.
-/

namespace SyncServer.Messaging
open Transaction Moderation

/-- The order of messages: by time, and by id when the times are equal. -/
def messageOrder (r : Message) : Int ×ₗ Uuid := toLex (r.createdAt, r.id)

/-- A message between two users, in either direction. -/
def isBetween (userA userB : Uuid) (r : Message) : Bool :=
  decide ((r.senderId = userA ∧ r.recipientId = userB) ∨
    (r.senderId = userB ∧ r.recipientId = userA))

def conversationOf (s : Db) (userA userB : Uuid) : List Message :=
  s.messages.rows.filter (fun r => isBetween userA userB r && r.deletedAt.isNone)

/-- `get_conversation`; `limit` is a `u8`. -/
def getConversation (userA userB : Uuid) (beforeId : Option Uuid) (limit : Nat) :
    Query (List Message) := do
  let blocked ← isBlockActiveBetween userA userB
  if blocked then pure []
  else match beforeId with
    | some cursorId => do
      let found ← Tx.query (fun s => s.messages.get cursorId)
      let cursorMsg ← Tx.okOr .notFound found
      Tx.query (fun s => (newestFirst messageOrder ((conversationOf s userA userB).filter (fun r =>
        decide (r.createdAt < cursorMsg.createdAt ∨
          (r.createdAt = cursorMsg.createdAt ∧ r.id < cursorId))))).take (min limit 100))
    | none => Tx.query (fun s =>
        (newestFirst messageOrder (conversationOf s userA userB)).take (min limit 100))

/-- The answer of `get_conversation`. -/
def conversationPage (userA userB : Uuid) (limit : Nat) (beforeId : Option Uuid) (s : Db) :
    Except AppError (List Message) :=
  ((getConversation userA userB beforeId limit).run s).1

section
variable {userA userB : Uuid} {limit : Nat} {s s' : Db}

theorem messageOrder_lt {r r' : Message} : messageOrder r < messageOrder r' ↔
    r.createdAt < r'.createdAt ∨ (r.createdAt = r'.createdAt ∧ r.id < r'.id) := by
  rw [messageOrder, messageOrder, Prod.Lex.toLex_lt_toLex]

theorem conversationPage_blocked (h : blockBetween s userA userB = true) (beforeId : Option Uuid) :
    conversationPage userA userB limit beforeId s = .ok [] := by
  unfold conversationPage getConversation
  rw [isBlockActiveBetween, Tx.run_bind_ok (Tx.run_query _ _), if_pos h]
  rfl

theorem conversationPage_first (h : blockBetween s userA userB = false) :
    conversationPage userA userB limit none s =
      .ok ((newestFirst messageOrder (conversationOf s userA userB)).take (min limit 100)) := by
  rw [conversationPage, getConversation, isBlockActiveBetween, Tx.run_bind_ok (Tx.run_query _ _), h]
  rfl

theorem conversationPage_next (h : blockBetween s userA userB = false) {cursorId : Uuid}
    {cursorMsg : Message} (hcursor : s.messages.get cursorId = some cursorMsg) :
    conversationPage userA userB limit (some cursorId) s =
      .ok ((newestFirst messageOrder (rowsBelow messageOrder (some (messageOrder cursorMsg))
        (conversationOf s userA userB))).take (min limit 100)) := by
  have hid : cursorMsg.id = cursorId := Table.key_of_get hcursor
  have hbelow : ∀ r : Message, decide (r.createdAt < cursorMsg.createdAt ∨
      (r.createdAt = cursorMsg.createdAt ∧ r.id < cursorId)) =
      decide (messageOrder r < messageOrder cursorMsg) := by
    intro r
    rw [decide_eq_decide, messageOrder_lt, hid]
  rw [conversationPage, getConversation, isBlockActiveBetween, Tx.run_bind_ok (Tx.run_query _ _), h]
  simp only [Bool.false_eq_true, if_false]
  rw [Tx.run_bind_ok (Tx.run_query _ _), hcursor, Tx.run_bind_ok (Tx.run_okOr _ _ _), Tx.run_query]
  simp only [hbelow, rowsBelow, Option.all_some]

theorem conversationPage_missing (h : blockBetween s userA userB = false) {cursorId : Uuid}
    (hcursor : s.messages.get cursorId = none) :
    conversationPage userA userB limit (some cursorId) s = .error .notFound := by
  rw [conversationPage, getConversation, isBlockActiveBetween, Tx.run_bind_ok (Tx.run_query _ _), h]
  simp only [Bool.false_eq_true, if_false]
  rw [Tx.run_bind_ok (Tx.run_query _ _), hcursor]
  rfl

/-! ## What a page depends on -/

/-- Two databases with the same users, the same blocks, and the same messages between `userA` and
`userB`, deleted ones included. -/
structure SameConversation (userA userB : Uuid) (s s' : Db) : Prop where
  users : s'.users = s.users
  blocks : s'.userBlocks = s.userBlocks
  messages : s'.messages.filter (isBetween userA userB) = s.messages.filter (isBetween userA userB)

theorem conversationOf_eq (s : Db) (userA userB : Uuid) : conversationOf s userA userB =
    ((s.messages.filter (isBetween userA userB)).filter (fun r => r.deletedAt.isNone)).rows := by
  rw [Table.filter_filter]
  simp only [conversationOf, Table.filter, Bool.and_comm]

theorem SameConversation.conversationOf (h : SameConversation userA userB s s') :
    conversationOf s' userA userB = conversationOf s userA userB := by
  rw [conversationOf_eq, h.messages, conversationOf_eq]

theorem SameConversation.blockBetween (h : SameConversation userA userB s s') :
    blockBetween s' userA userB = blockBetween s userA userB := by
  rw [Moderation.blockBetween, h.blocks, Moderation.blockBetween]

theorem SameConversation.get (h : SameConversation userA userB s s') {m : Message}
    (hm : s.messages.get m.id = some m) (hbetween : isBetween userA userB m = true) :
    s'.messages.get m.id = some m := by
  have hget : (s.messages.filter (isBetween userA userB)).get m.id = some m := by
    rw [Table.get_filter, hm, Option.filter_some_pos hbetween]
  rw [← h.messages, Table.get_filter, Option.filter_eq_some_iff] at hget
  exact hget.1

theorem SameConversation.page_eq (h : SameConversation userA userB s s') {beforeId : Option Uuid}
    (hcursor : ∀ i ∈ beforeId, ∃ m, s.messages.get i = some m ∧ isBetween userA userB m = true) :
    conversationPage userA userB limit beforeId s' =
      conversationPage userA userB limit beforeId s := by
  rcases hb : Moderation.blockBetween s userA userB with _ | _
  · have hb' := h.blockBetween.trans hb
    cases beforeId with
    | none => rw [conversationPage_first hb', conversationPage_first hb, h.conversationOf]
    | some i =>
      obtain ⟨m, hm, hbetween⟩ := hcursor i rfl
      obtain rfl : m.id = i := Table.key_of_get hm
      rw [conversationPage_next hb' (h.get hm hbetween), conversationPage_next hb hm,
        h.conversationOf]
  · rw [conversationPage_blocked (h.blockBetween.trans hb), conversationPage_blocked hb]

theorem exists_without {i : Uuid} {m : Message} (hm : s.messages.get i = some m)
    (hother : isBetween userA userB m = false) :
    ∃ s', SameConversation userA userB s s' ∧ s'.messages.get i = none := by
  refine ⟨{ s with messages := s.messages.filter (fun r => decide (r.id ≠ i)) }, ⟨rfl, rfl, ?_⟩, ?_⟩
  · refine s.messages.filter_filter_of_imp (fun r hr hbetween => decide_eq_true (fun hid => ?_))
    obtain rfl : m = r := Option.some.inj (hm.symm.trans (Table.get_eq_some.mpr ⟨hr, hid⟩))
    rw [hother] at hbetween
    cases hbetween
  · exact (s.messages.get_filter_key (fun k => decide (k ≠ i)) i).trans (by simp)

theorem exists_with (userA userB : Uuid) {i : Uuid} (hm : s.messages.get i = none) :
    ∃ s', SameConversation userA userB s s' ∧ ∃ other, s'.messages.get i = some other := by
  have hA : userA + userB + 1 ≠ userA := Nat.ne_of_gt (by omega)
  have hB : userA + userB + 1 ≠ userB := Nat.ne_of_gt (by omega)
  rcases ht : s.messages.insert ⟨i, userA + userB + 1, userA + userB + 1, "", none, 0⟩ with _ | t
  · have htaken := Table.insert_eq_none.mp ht
    rw [hm] at htaken
    cases htaken
  · refine ⟨{ s with messages := t }, ⟨rfl, rfl, ?_⟩, _, (Table.get_of_insert ht i).trans (if_pos rfl)⟩
    refine Table.filter_append_of_not (Table.rows_of_insert ht) (fun r hr => ?_)
    rw [List.mem_singleton.mp hr]
    simp [isBetween, hA, hB]

theorem exists_other_page (hb : blockBetween s userA userB = false) {i : Uuid}
    (hcursor : ¬ ∃ m, s.messages.get i = some m ∧ isBetween userA userB m = true) :
    ∃ s', SameConversation userA userB s s' ∧ conversationPage userA userB limit (some i) s' ≠
      conversationPage userA userB limit (some i) s := by
  rcases hm : s.messages.get i with _ | m
  · obtain ⟨s', hs', other, hother⟩ := exists_with userA userB hm
    refine ⟨s', hs', ?_⟩
    rw [conversationPage_next (hs'.blockBetween.trans hb) hother, conversationPage_missing hb hm]
    simp
  · have hother : isBetween userA userB m = false := by
      by_contra hbetween
      exact hcursor ⟨m, hm, (Bool.not_eq_false _).mp hbetween⟩
    obtain ⟨s', hs', hmissing⟩ := exists_without hm hother
    refine ⟨s', hs', ?_⟩
    rw [conversationPage_next hb hm, conversationPage_missing (hs'.blockBetween.trans hb) hmissing]
    simp

/-- Reads of a conversation depend on nothing but the conversation just when a block hides it, or
there is no cursor, or the cursor is a message of the conversation. -/
theorem conversation_reads_isolated_iff (userA userB : Uuid) (beforeId : Option Uuid) (limit : Nat)
    (s : Db) :
    (∀ s', SameConversation userA userB s s' → conversationPage userA userB limit beforeId s' =
      conversationPage userA userB limit beforeId s) ↔
    blockBetween s userA userB = true ∨
      ∀ i ∈ beforeId, ∃ m, s.messages.get i = some m ∧ isBetween userA userB m = true := by
  constructor
  · intro hsame
    rw [or_iff_not_imp_left]
    intro hb i hi
    rw [Bool.not_eq_true] at hb
    rw [hi] at hsame
    by_contra hcursor
    obtain ⟨s', hs', hne⟩ := exists_other_page hb hcursor
    exact hne (hsame s' hs')
  · rintro (hb | hcursor) s' hs'
    · rw [conversationPage_blocked (hs'.blockBetween.trans hb), conversationPage_blocked hb]
    · exact hs'.page_eq hcursor

end

/-- Alice (1) and Bob (2) have written to each other, and Carol (3) once to Dave (4). -/
def fourUsers (carolAt : Int) : Db :=
  let user (id : Uuid) (name : String) : User :=
    ⟨id, name, name, "", none, none, none, "user", true, none, true, none, 0, none⟩
  { Db.empty with
    users := ⟨[user 1 "alice", user 2 "bob", user 3 "carol", user 4 "dave"], by decide⟩
    messages := ⟨[⟨10, 1, 2, "hello", none, 100⟩, ⟨11, 2, 1, "good day", none, 200⟩,
      ⟨12, 3, 4, "secret", none, carolAt⟩], by simp⟩ }

/-- Alice learns from a cursor whether Carol wrote to Dave before Bob's answer. -/
theorem alice_times_carol : SameConversation 1 2 (fourUsers 150) (fourUsers 250) ∧
    conversationPage 1 2 50 (some 12) (fourUsers 250) ≠
      conversationPage 1 2 50 (some 12) (fourUsers 150) :=
  ⟨⟨rfl, rfl, by decide⟩, by decide⟩

end SyncServer.Messaging
