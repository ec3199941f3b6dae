import SyncServer.Columns
import SyncServer.Messaging.Pages

/-! # Delivery and read marks

`mark_read` and `unread_counts`, over messages with their `delivered_at` and `read_at`. What the two
count is compared with each other and with the conversation that the viewer reads.
-/

namespace SyncServer.Messaging
open Transaction Moderation

/-- `delivered_at` and `read_at` of a message. -/
structure Receipt where
  deliveredAt : Option Int
  readAt : Option Int
deriving DecidableEq, Repr

/-- The receipts of all messages, by the id of the message. -/
abbrev Receipts := Uuid → Receipt

def messagesWhere (p : Message → Receipt → Bool) (w : Wide Receipts) : List Message :=
  w.db.messages.rows.filter (fun m => p m (w.columns m.id))

/-- `UPDATE messages`; the answer is the number of rows. -/
def updateReceipts (p : Message → Receipt → Bool) (f : Receipt → Receipt) :
    WideQuery Receipts Nat :=
  .stmt (fun w => (messagesWhere p w).map (fun m => .message m.id))
    (fun w => { w with columns := fun i =>
      if i ∈ (messagesWhere p w).map Message.id then f (w.columns i) else w.columns i })
    (fun w => (messagesWhere p w).length) (fun n => .done (.ok n))

def unreadFrom (senderId recipientId : Uuid) (m : Message) (c : Receipt) : Bool :=
  decide (m.senderId = senderId ∧ m.recipientId = recipientId) && c.readAt.isNone

/-- `mark_read`. -/
def markRead (viewer partner : Uuid) (now : Int) : WideQuery Receipts Nat := do
  let blocked ← WideQuery.onRows (isBlockActiveBetween viewer partner)
  if blocked then pure 0
  else do
    let _ ← updateReceipts (fun m c => unreadFrom partner viewer m c && c.deliveredAt.isNone)
      (fun c => { c with deliveredAt := some now })
    -- Deleted messages are marked and counted like the others.
    updateReceipts (unreadFrom partner viewer) (fun c => { c with readAt := some now })

/-- The users who have blocked the viewer, or whom the viewer has blocked. -/
def blockedPartnersOf (s : Db) (viewer : Uuid) : List Uuid :=
  (s.userBlocks.rows.filter (fun b =>
    decide (b.blockerUserId = viewer ∨ b.blockedUserId = viewer))).map (fun b =>
      if b.blockerUserId = viewer then b.blockedUserId else b.blockerUserId)

/-- `blocked_partner_ids_conn`. -/
def blockedPartnerIds (viewer : Uuid) : Query (List Uuid) :=
  Tx.query (fun s => blockedPartnersOf s viewer)

/-- `*counts.entry(sender).or_insert(0) += 1`. -/
def countSender (counts : Uuid → Option Nat) (sender : Uuid) : Uuid → Option Nat :=
  Function.update counts sender (some ((counts sender).getD 0 + 1))

/-- `unread_counts`. -/
def unreadCounts (viewer : Uuid) : WideQuery Receipts (Uuid → Option Nat) := do
  let blocked ← WideQuery.onRows (blockedPartnerIds viewer)
  let senders ← Tx.query (fun w => (messagesWhere (fun m c =>
    decide (m.recipientId = viewer) && c.readAt.isNone && m.deletedAt.isNone &&
      (blocked.isEmpty || !blocked.contains m.senderId)) w).map Message.senderId)
  pure (senders.foldl countSender (fun _ => none))

/-! ## What is counted -/

def entryOf (n : Nat) : Option Nat := if n = 0 then none else some n

@[simp] theorem entryOf_getD (n : Nat) : (entryOf n).getD 0 = n := by
  by_cases h : n = 0 <;> simp [entryOf, h]

@[simp] theorem entryOf_eq_none {n : Nat} : entryOf n = none ↔ n = 0 := by
  by_cases h : n = 0 <;> simp [entryOf, h]

theorem countSender_apply (counts : Uuid → Option Nat) (sender u : Uuid) :
    countSender counts sender u = if u = sender then some ((counts u).getD 0 + 1) else counts u := by
  by_cases h : u = sender
  · simp [countSender, h]
  · simp [countSender, h]

theorem foldl_countSender_of_entry (senders : List Uuid) (counts : Uuid → Option Nat) (u : Uuid)
    (n : Nat) (h : counts u = entryOf n) :
    senders.foldl countSender counts u = entryOf (n + senders.count u) := by
  induction senders generalizing counts n with
  | nil => simpa using h
  | cons sender rest ih =>
    rw [List.foldl_cons]
    by_cases hu : u = sender
    · have hnext : countSender counts sender u = entryOf (n + 1) := by
        rw [countSender_apply, if_pos hu, h, entryOf_getD, entryOf, if_neg (Nat.succ_ne_zero n)]
      rw [ih _ (n + 1) hnext, hu, List.count_cons_self]
      congr 1
      omega
    · rw [ih _ n (by simp [countSender_apply, hu, h]), List.count_cons_of_ne (Ne.symm hu)]

theorem foldl_countSender (senders : List Uuid) (u : Uuid) :
    senders.foldl countSender (fun _ => none) u = entryOf (senders.count u) := by
  simpa using foldl_countSender_of_entry senders (fun _ => none) u 0 rfl

theorem mem_blockedPartnersOf {s : Db} {viewer partner : Uuid} :
    partner ∈ blockedPartnersOf s viewer ↔ blockBetween s viewer partner = true := by
  simp only [blockedPartnersOf, List.mem_map, List.mem_filter, decide_eq_true_eq, blockBetween,
    List.any_eq_true, Bool.or_eq_true, Bool.and_eq_true]
  constructor
  · rintro ⟨b, ⟨hb, hviewer⟩, hpartner⟩
    refine ⟨b, hb, ?_⟩
    by_cases h : b.blockerUserId = viewer
    · exact .inl ⟨h, by simpa [h] using hpartner⟩
    · exact .inr ⟨by simpa [h] using hpartner, hviewer.resolve_left h⟩
  · rintro ⟨b, hb, ⟨hblocker, hblocked⟩ | ⟨hblocker, hblocked⟩⟩
    · exact ⟨b, ⟨hb, .inl hblocker⟩, by simp [hblocker, hblocked]⟩
    · refine ⟨b, ⟨hb, .inr hblocked⟩, ?_⟩
      by_cases h : b.blockerUserId = viewer
      · simp [h, hblocked, ← hblocker]
      · rw [if_neg h, hblocker]

section
variable {viewer partner : Uuid} {w : Wide Receipts}

def unreadListed (viewer partner : Uuid) (w : Wide Receipts) : Nat :=
  (messagesWhere (fun m c => unreadFrom partner viewer m c && m.deletedAt.isNone) w).length

theorem run_unreadCounts (viewer : Uuid) (w : Wide Receipts) : ∃ counts,
    (unreadCounts viewer).run w = (.ok counts, w) ∧ ∀ partner, counts partner =
      entryOf (if blockBetween w.db viewer partner then 0 else unreadListed viewer partner w) := by
  have hblocked : (WideQuery.onRows (blockedPartnerIds viewer) : WideQuery Receipts _).run w =
      (.ok (blockedPartnersOf w.db viewer), w) :=
    WideQuery.run_onRows_read (Tx.run_query _ _)
  rw [unreadCounts, Tx.run_bind_ok hblocked, Tx.run_bind_ok (Tx.run_query _ _), Tx.run_pure]
  refine ⟨_, rfl, fun partner => ?_⟩
  rw [foldl_countSender]
  congr 1
  rw [List.count_eq_countP, List.countP_map, messagesWhere, List.countP_filter]
  rcases hb : blockBetween w.db viewer partner with _ | _
  · have hfree : partner ∉ blockedPartnersOf w.db viewer := by simp [mem_blockedPartnersOf, hb]
    rw [unreadListed, messagesWhere, ← List.countP_eq_length_filter]
    simp only [Bool.false_eq_true, if_false]
    apply List.countP_congr
    intro m _
    by_cases hm : m.senderId = partner
    · simp [unreadFrom, hm, hfree]
    · simp [unreadFrom, hm]
  · have hin : partner ∈ blockedPartnersOf w.db viewer := mem_blockedPartnersOf.mpr hb
    simp only [if_true]
    apply List.countP_eq_zero.mpr
    intro m _
    by_cases hm : m.senderId = partner
    · simp [hm, hin, List.ne_nil_of_mem hin]
    · simp [hm]

theorem updated_receipt {p : Message → Receipt → Bool} {f : Receipt → Receipt} {m : Message}
    (hm : m ∈ w.db.messages.rows) :
    ((updateReceipts p f).run w).2.columns m.id =
      if p m (w.columns m.id) then f (w.columns m.id) else w.columns m.id := by
  have hin : m.id ∈ (messagesWhere p w).map Message.id ↔ p m (w.columns m.id) = true := by
    simp only [messagesWhere, List.mem_map, List.mem_filter]
    constructor
    · rintro ⟨m', ⟨hm', hp⟩, hid⟩
      rwa [List.inj_on_of_nodup_map w.db.messages.keys_nodup hm' hm hid] at hp
    · exact fun hp => ⟨m, ⟨hm, hp⟩, rfl⟩
  by_cases hp : p m (w.columns m.id) = true
  · rw [if_pos hp]
    exact if_pos (hin.mpr hp)
  · rw [if_neg hp]
    exact if_neg (fun h => hp (hin.mp h))

theorem run_markRead_blocked (h : blockBetween w.db viewer partner = true) (now : Int) :
    (markRead viewer partner now).run w = (.ok 0, w) := by
  rw [markRead, isBlockActiveBetween,
    Tx.run_bind_ok (WideQuery.run_onRows_read (Tx.run_query _ _)), if_pos h, Tx.run_pure]

/-- What `mark_read` leaves unread is what it has not counted. -/
theorem run_markRead_open (h : blockBetween w.db viewer partner = false) (now : Int) : ∃ w',
    (markRead viewer partner now).run w =
      (.ok (messagesWhere (unreadFrom partner viewer) w).length, w') ∧ w'.db = w.db ∧
    ∀ m ∈ w.db.messages.rows, (w'.columns m.id).readAt.isNone =
      ((w.columns m.id).readAt.isNone && !unreadFrom partner viewer m (w.columns m.id)) := by
  rw [markRead, isBlockActiveBetween, Tx.run_bind_ok (WideQuery.run_onRows_read (Tx.run_query _ _)),
    h, if_neg Bool.false_ne_true, Tx.run_bind]
  generalize hw₁ : ((updateReceipts (fun m c => unreadFrom partner viewer m c &&
    c.deliveredAt.isNone) (fun c => { c with deliveredAt := some now })).run w).2 = w₁
  have hdb : w₁.db = w.db := by rw [← hw₁]; rfl
  -- The first update leaves all messages as read or unread as they were.
  have hread : ∀ m ∈ w.db.messages.rows, (w₁.columns m.id).readAt = (w.columns m.id).readAt := by
    intro m hm
    rw [← hw₁, updated_receipt hm]
    split <;> rfl
  have hsame : messagesWhere (unreadFrom partner viewer) w₁ =
      messagesWhere (unreadFrom partner viewer) w := by
    rw [messagesWhere, messagesWhere, hdb]
    apply List.filter_congr
    intro m hm
    simp [unreadFrom, hread m hm]
  refine ⟨((updateReceipts (unreadFrom partner viewer)
    (fun c => { c with readAt := some now })).run w₁).2, ?_, hdb, fun m hm => ?_⟩
  · rw [← hsame, ← hw₁]
    rfl
  · rw [updated_receipt (hdb ▸ hm)]
    have hfrom : unreadFrom partner viewer m (w₁.columns m.id) =
        unreadFrom partner viewer m (w.columns m.id) := by
      simp [unreadFrom, hread m hm]
    rw [hfrom, ← hread m hm]
    rcases unreadFrom partner viewer m (w.columns m.id) with _ | _ <;> simp

end

/-! ## The three counts -/

/-- `mark_read` returns what `unread_counts` has for the partner, which is the number of unread
messages in all pages of the conversation; then there is no entry for the partner any more, and the
entries of the others are what they were. -/
def ReadsAgree (viewer partner : Uuid) (now : Int) (limit : Nat) (w : Wide Receipts) : Prop :=
  ∃ n w' before after conversation,
    (unreadCounts viewer).run w = (.ok before, w) ∧
    readAll (conversationPage viewer partner limit) Message.id w.db.messages.rows.length w.db =
      .ok conversation ∧
    (markRead viewer partner now).run w = (.ok n, w') ∧
    (unreadCounts viewer).run w' = (.ok after, w') ∧
    n = (before partner).getD 0 ∧
    n = conversation.countP (fun m => unreadFrom partner viewer m (w.columns m.id)) ∧
    after partner = none ∧ ∀ other, other ≠ partner → after other = before other

section
variable {viewer partner : Uuid} {w : Wide Receipts} {limit : Nat}

theorem countP_conversation (h : blockBetween w.db viewer partner = false) :
    (newestFirst messageOrder (conversationFor w.db viewer partner)).countP
      (fun m => unreadFrom partner viewer m (w.columns m.id)) = unreadListed viewer partner w := by
  have hperm : (newestFirst messageOrder (conversationFor w.db viewer partner)).Perm
    (conversationFor w.db viewer partner) := List.perm_insertionSort _ _
  rw [hperm.countP_eq, conversationFor, h, if_neg Bool.false_ne_true, conversationOf,
    List.countP_filter, unreadListed, messagesWhere, ← List.countP_eq_length_filter]
  apply List.countP_congr
  intro m _
  by_cases hm : m.senderId = partner ∧ m.recipientId = viewer
  · simp [unreadFrom, isBetween, hm]
  · simp [unreadFrom, hm]

theorem unreadListed_le (viewer partner : Uuid) (w : Wide Receipts) :
    (messagesWhere (unreadFrom partner viewer) w).length = unreadListed viewer partner w ↔
      ∀ m ∈ w.db.messages.rows, unreadFrom partner viewer m (w.columns m.id) = true →
        m.deletedAt = none := by
  have hfilter : messagesWhere (fun m c => unreadFrom partner viewer m c && m.deletedAt.isNone) w =
      (messagesWhere (unreadFrom partner viewer) w).filter (fun m => m.deletedAt.isNone) := by
    simp [messagesWhere, List.filter_filter, Bool.and_comm]
  rw [unreadListed, hfilter, eq_comm, List.length_filter_eq_length_iff]
  simp [messagesWhere]

theorem readsAgree_of_block (hlimit : 1 ≤ limit) (h : blockBetween w.db viewer partner = true)
    (now : Int) : ReadsAgree viewer partner now limit w := by
  obtain ⟨counts, hrun, hcounts⟩ := run_unreadCounts viewer w
  refine ⟨0, w, counts, counts, [], hrun, ?_, run_markRead_blocked h now, hrun, ?_, rfl, ?_,
    fun _ _ => rfl⟩
  · rw [readAll_conversationPage hlimit, conversationFor, if_pos h]
    rfl
  · rw [hcounts, if_pos h]
    rfl
  · rw [hcounts, if_pos h]
    rfl

/-- `mark_read`, `unread_counts` and the conversation agree exactly if the partner is blocked or no
unread message from the partner has been deleted. -/
theorem readsAgree_iff (viewer partner : Uuid) (now : Int) (limit : Nat) (hlimit : 1 ≤ limit)
    (w : Wide Receipts) : ReadsAgree viewer partner now limit w ↔
      blockBetween w.db viewer partner = true ∨
        ∀ m ∈ w.db.messages.rows, m.senderId = partner → m.recipientId = viewer →
          (w.columns m.id).readAt = none → m.deletedAt = none := by
  rcases hb : blockBetween w.db viewer partner with _ | _
  · obtain ⟨before, hbefore, hcounts⟩ := run_unreadCounts viewer w
    obtain ⟨w', hmark, hdb, hread⟩ := run_markRead_open hb now
    obtain ⟨after, hafter, hcounts'⟩ := run_unreadCounts viewer w'
    have hcond : (∀ m ∈ w.db.messages.rows, unreadFrom partner viewer m (w.columns m.id) = true →
        m.deletedAt = none) ↔ ∀ m ∈ w.db.messages.rows, m.senderId = partner →
          m.recipientId = viewer → (w.columns m.id).readAt = none → m.deletedAt = none := by
      simp [unreadFrom]
    rw [← hcond, ← unreadListed_le, or_iff_right Bool.false_ne_true]
    constructor
    · rintro ⟨n, _, counts, _, _, hrun, -, hn, -, hsame, -⟩
      rw [hmark] at hn
      rw [hbefore] at hrun
      cases hn
      cases hrun
      rw [hsame, hcounts, hb, if_neg Bool.false_ne_true, entryOf_getD]
    · intro hsame
      refine ⟨_, w', before, after, _, hbefore, readAll_conversationPage hlimit viewer partner w.db,
        hmark, hafter, ?_, ?_, ?_, fun other hother => ?_⟩
      · rw [hsame, hcounts, hb, if_neg Bool.false_ne_true, entryOf_getD]
      · rw [hsame, countP_conversation hb]
      · rw [hcounts', entryOf_eq_none, hdb, hb, if_neg Bool.false_ne_true, unreadListed,
          List.length_eq_zero_iff, messagesWhere, List.filter_eq_nil_iff, hdb]
        intro m hm
        by_cases hfrom : m.senderId = partner ∧ m.recipientId = viewer
        · simp [unreadFrom, hread m hm, hfrom]
        · simp [unreadFrom, hfrom]
      · rw [hcounts', hcounts, hdb, unreadListed, unreadListed, messagesWhere, messagesWhere, hdb]
        congr 3
        apply List.filter_congr
        intro m hm
        by_cases hfrom : m.senderId = other
        · simp [unreadFrom, hread m hm, hfrom, hother]
        · simp [unreadFrom, hfrom]
  · exact iff_of_true (readsAgree_of_block hlimit hb now) (.inl rfl)

end

/-- Bob (2) has written to Alice (1), who has read nothing yet. -/
def bobWrote (deletedAt : Option Int) : Wide Receipts where
  db := { Db.empty with messages := ⟨[⟨10, 2, 1, "hello", deletedAt, 100⟩], by simp⟩ }
  columns := fun _ => ⟨none, none⟩

theorem readsAgree_iff_live : ReadsAgree 1 2 300 50 (bobWrote none) :=
  (readsAgree_iff 1 2 300 50 (by decide) (bobWrote none)).mpr (.inr (by decide))

/-- Bob has deleted the message: nothing is unread, and yet one message is marked. -/
theorem deleted_marked : ¬ ReadsAgree 1 2 300 50 (bobWrote (some 200)) ∧
    ((markRead 1 2 300).run (bobWrote (some 200))).1 = .ok 1 := by
  refine ⟨?_, by decide⟩
  rintro ⟨n, w', before, after, conversation, hbefore, -, hmark, -, hn, -⟩
  obtain rfl : n = 1 := by
    have hone : ((markRead 1 2 300).run (bobWrote (some 200))).1 = .ok 1 := by decide
    rw [hmark] at hone
    cases hone
    rfl
  have hzero : before = fun _ => none := by
    have hrun : (unreadCounts 1).run (bobWrote (some 200)) =
        (.ok (fun _ => none), bobWrote (some 200)) := rfl
    rw [hrun] at hbefore
    cases hbefore
    rfl
  rw [hzero] at hn
  cases hn

end SyncServer.Messaging
