import SyncServer.Calls.Session
import SyncServer.Federation.Redelivery
import SyncServer.Guild.Suspicion
import SyncServer.Messaging.Direct
import SyncServer.Messaging.Rooms

/-! # What a block cuts off

A block between two users is checked by the handlers for direct messages and for rooms. The inbox
and the sessions do not check it.
-/

namespace SyncServer.Moderation
open Transaction Accounts

/-! ## Nothing passes from one user to another -/

def traffic (d : Db) : Table Uuid Message Message.id × Table Uuid CallRecord CallRecord.id :=
  (d.messages, d.callRecords)

/-- No message and no call from `a` to `b` is new. -/
structure Quiet (a b : Uuid) (d d' : Db) : Prop where
  messages : ∀ m ∈ d'.messages.rows, m.senderId = a → m.recipientId = b → m ∈ d.messages.rows
  calls : ∀ r ∈ d'.callRecords.rows, r.callerId = a → r.calleeId = b →
    ∃ r' ∈ d.callRecords.rows, r'.id = r.id ∧ r'.callerId = a ∧ r'.calleeId = b

/-- Nothing is sent from `a` to `b` either. -/
structure Silent (a b : Uuid) (s s' : Server) : Prop where
  quiet : Quiet a b s.db s'.db
  sent : ∃ new, s'.sent = s.sent ++ new ∧ ∀ o ∈ new, o.passes a b = false

section
variable {a b : Uuid} {d d' d'' : Db} {s s' s'' : Server}

theorem Quiet.of_traffic (h : traffic d' = traffic d) : Quiet a b d d' := by
  obtain ⟨hm, hc⟩ := Prod.mk.inj h
  constructor
  · intro m hm' _ _
    rwa [hm] at hm'
  · intro r hr ha hb
    rw [hc] at hr
    exact ⟨r, hr, rfl, ha, hb⟩

theorem Quiet.refl (a b : Uuid) (d : Db) : Quiet a b d d := .of_traffic rfl

theorem Quiet.trans (h : Quiet a b d d') (h' : Quiet a b d' d'') : Quiet a b d d'' := by
  constructor
  · intro m hm ha hb
    exact h.messages m (h'.messages m hm ha hb) ha hb
  · intro r hr ha hb
    obtain ⟨r', hr', hid, ha', hb'⟩ := h'.calls r hr ha hb
    obtain ⟨r'', hr'', hid', h''⟩ := h.calls r' hr' ha' hb'
    exact ⟨r'', hr'', hid'.trans hid, h''⟩

theorem Silent.of_store (h : (s'.db, s'.sent) = (s.db, s.sent)) : Silent a b s s' := by
  simp only [Prod.mk.injEq] at h
  constructor
  · rw [h.1]
    exact .refl a b s.db
  · exact ⟨[], by simp [h.2], by simp⟩

theorem Silent.refl (a b : Uuid) (s : Server) : Silent a b s s := .of_store rfl

theorem Silent.trans (h : Silent a b s s') (h' : Silent a b s' s'') : Silent a b s s'' := by
  refine ⟨h.quiet.trans h'.quiet, ?_⟩
  obtain ⟨new, hsent, hnew⟩ := h.sent
  obtain ⟨new', hsent', hnew'⟩ := h'.sent
  refine ⟨new ++ new', by rw [hsent', hsent, List.append_assoc], ?_⟩
  intro o ho
  rw [List.mem_append] at ho
  exact ho.elim (hnew o) (hnew' o)

/-- What is sent is not silent if it passes from `a` to `b`. -/
theorem not_silent_of_sent (new : List Outgoing) (hsent : s'.sent = s.sent ++ new)
    (h : ∃ o ∈ new, o.passes a b = true) : ¬ Silent a b s s' := by
  intro hs
  obtain ⟨new', hsent', hnew'⟩ := hs.sent
  obtain ⟨o, ho, hpasses⟩ := h
  rw [hsent, List.append_cancel_left_eq] at hsent'
  subst hsent'
  rw [hnew' o ho] at hpasses
  cases hpasses

end

/-- Whatever the program does, nothing passes from `a` to `b`. -/
def Mute {α : Type} (a b : Uuid) (t : Handler α) : Prop :=
  t.Writes (fun w => ∀ s, Silent a b s (w s))

section
variable {a b : Uuid} {α β : Type}

theorem Mute.silent {t : Handler α} (h : Mute a b t) (s : Server) : Silent a b s (t.run s).2 :=
  Tx.Writes.rel (Silent.refl a b) Silent.trans h s

theorem mute_onDb {q : Query α} (h : q.Writes (fun w => ∀ d, Quiet a b d (w d))) :
    Mute a b (onDb q) :=
  Tx.writes_onPart (fun _ hw s => ⟨hw s.db, [], by simp [Server.setDb], by simp⟩) h

theorem mute_of_keeps {q : Query α} (h : q.Keeps traffic) : Mute a b (onDb q) :=
  mute_onDb (Tx.writes_mono (fun _ hw d => .of_traffic (hw d)) h)

theorem mute_send {o : Outgoing} (h : o.passes a b = false) : Mute a b (send o) :=
  Tx.writes_exec (fun s => ⟨.refl a b s.db, [o], rfl, by simpa using h⟩) _

theorem mute_bind {t : Handler α} {f : α → Handler β} (ht : Mute a b t) (hf : ∀ x, Mute a b (f x)) :
    Mute a b (t >>= f) := Tx.writes_bind ht hf

theorem silent_bind {t : Handler α} {f : α → Handler β} {s : Server}
    (ht : Silent a b s (t.run s).2)
    (hf : ∀ x s', t.run s = (.ok x, s') → Silent a b s' ((f x).run s').2) :
    Silent a b s ((t >>= f).run s).2 := Tx.rel_bind (R := Silent a b) Silent.trans ht hf

theorem mute_done (r : Except AppError α) : Mute a b (Tx.done r) := trivial

theorem quiet_insertMessageConn {m : NewMessage} (h : m.senderId = a → m.recipientId ≠ b) :
    (Guild.insertMessageConn m).Writes (fun w => ∀ d, Quiet a b d (w d)) := by
  refine Query.writes_exec (.refl a b) (fun d saved d' hrun => ?_)
  rcases ht : d.messages.insert m.row with _ | t
  · simp [ht] at hrun
  simp only [ht] at hrun
  split at hrun <;> cases hrun
  constructor
  · intro m' hm' ha hb
    change m' ∈ t.rows at hm'
    rw [Table.rows_of_insert ht, List.mem_append, List.mem_singleton] at hm'
    rcases hm' with hm' | rfl
    · exact hm'
    · exact absurd hb (h ha)
  · intro r hr ha hb
    exact ⟨r, hr, rfl, ha, hb⟩

end

/-! ## Direct messages -/

section
variable {a b : Uuid}

theorem mute_deliver (env : Federation.OutboxEnv) (key : FederationActorKey)
    (activityId senderUsername : String) (payload : Json) (destination : String)
    (attempt : Federation.Attempt) :
    Mute a b (Federation.deliver env key activityId senderUsername payload destination attempt) := by
  apply mute_bind (mute_of_keeps (Federation.keeps_upsertDeliveryPending (fun _ _ => rfl) _ _ _ _))
  intro delivery
  apply mute_bind
  · unfold Federation.postActivitySigned
    split
    · trivial
    · exact mute_bind (mute_send rfl) (fun _ => trivial)
  intro outcome
  apply mute_bind (mute_of_keeps (Federation.keeps_recordOutcome (fun _ _ => rfl) _ _ _))
  intro _
  trivial

theorem mute_deliverDirectMessageToRemote (env : Federation.OutboxEnv) (senderId : Uuid)
    (recipientId recipientServerUrl content : String) (new : Federation.MintedActivity)
    (attempt : Federation.Attempt) : Mute a b (Federation.deliverDirectMessageToRemote env senderId
      recipientId recipientServerUrl content new attempt) := by
  apply mute_bind (mute_of_keeps (Federation.keeps_usernameById _))
  intro username
  apply mute_bind (mute_of_keeps (Federation.keeps_ensureActorKeyMaterial (fun _ _ => rfl) _ _ _))
  intro key
  apply mute_bind (mute_done _)
  intro destination
  apply mute_bind (mute_deliver _ _ _ _ _ _ _)
  intro _
  split
  · split <;> trivial
  · trivial
  · trivial

open Messaging

variable {env : MessageEnv} {call : SendMessageCall}

theorem mute_sendMessageWithGuild {m : NewMessage} (h : m.senderId = a → m.recipientId ≠ b)
    (env : Guild.Env) (now : Int) (audit : Uuid) :
    Mute a b (onDb (Guild.sendMessageWithGuild env m now audit).asStatement) := by
  refine mute_onDb (Tx.writes_asStatement (R := Quiet a b) (.refl a b) (fun d x d' hrun => ?_))
  have hwrites := Guild.writes_sendMessageWithGuild env (π := traffic) (fun _ _ => rfl) (fun _ _ => rfl)
    (fun _ _ => rfl)
    (W := fun w => ∀ d, Quiet a b d (w d)) (fun _ hw d => .of_traffic (hw d))
    (quiet_insertMessageConn h) now audit
  have hquiet := Tx.Writes.rel (R := Quiet a b) (.refl a b) Quiet.trans hwrites d
  rwa [hrun] at hquiet

theorem mute_publishNewMessageEvent (hab : a ≠ b) {senderId recipientId : Uuid} {message : Message}
    (hsender : message.senderId = senderId) (h : senderId = a → recipientId ≠ b) :
    Mute a b (publishNewMessageEvent senderId recipientId message) := by
  apply mute_bind
  · exact mute_send (Outgoing.passes_publish.mpr (fun ha => h (hsender ▸ ha)))
  · intro _
    refine mute_send (Outgoing.passes_publish.mpr ?_)
    rintro rfl
    exact hsender ▸ hab

theorem mute_deliverMessage {recipient : User} {message : Message}
    (h : message.senderId = a → message.recipientId ≠ b) :
    Mute a b (deliverMessage env call recipient message) := by
  unfold deliverMessage
  split
  · exact mute_deliverDirectMessageToRemote _ _ _ _ _ _ _
  · exact mute_send (Outgoing.passes_push.mpr h)

/-- A message to somebody but `b`, or from somebody but `a`, is not one of theirs. -/
theorem silent_sendTo {recipient : User} (hab : a ≠ b)
    (h : call.senderId = a → recipient.id ≠ b) (s : Server) :
    Silent a b s ((sendTo env call recipient).run s).2 := by
  apply silent_bind
  · exact (mute_sendMessageWithGuild (m := messageTo call recipient.id) h _ _ _).silent s
  intro result s₁ hrun
  apply Mute.silent
  cases result with
  | limited guild retryAfterSeconds =>
    apply mute_bind (mute_of_keeps (Guild.keeps_insertAuditLog (fun _ _ => rfl) _))
    intro _
    exact mute_done _
  | sent message =>
    rw [run_onDb, Tx.run_asStatement] at hrun
    have hsent := Tx.atomically_eq_ok.mp (Prod.ext (Prod.mk.inj hrun).1 rfl)
    obtain rfl := Guild.sendMessageWithGuild_sent hsent
    apply mute_bind (mute_publishNewMessageEvent hab rfl h)
    intro _
    apply mute_bind (mute_deliverMessage h)
    intro _
    exact mute_done _

theorem silent_sendMessage (hab : a ≠ b) {s : Server} (hblock : blockBetween s.db a b = true) :
    Silent a b s ((sendMessage env call).run s).2 := by
  apply silent_bind
  · exact Mute.silent (mute_of_keeps (keeps_resolveRecipient (fun _ _ => rfl) env call)) s
  intro recipient s₁ hresolve
  have hblocks : s₁.db.userBlocks = s.db.userBlocks :=
    Tx.Keeps.of_run (keeps_onDb (keeps_resolveRecipient (π := Db.userBlocks) (fun _ _ => rfl) env call))
      hresolve
  have hblock₁ : blockBetween s₁.db a b = true := by
    rwa [blockBetween, hblocks]
  by_cases h : call.senderId = a ∧ recipient.id = b
  · obtain ⟨rfl, rfl⟩ := h
    obtain ⟨e, hrefused⟩ := run_ensureDirectMessageAllowed_blocked hblock₁ call.new.now
    rw [Tx.run_bind_error (run_onDb_eq hrefused)]
    exact .refl _ _ s₁
  · apply silent_bind
    · exact (mute_of_keeps (keeps_ensureDirectMessageAllowed _ _ _)).silent s₁
    · intro _ s₂ _
      exact silent_sendTo hab (fun ha hb => h ⟨ha, hb⟩) s₂

end

/-! ## Room messages -/

section
open Messaging

theorem silent_sendRoomMessage (env : Guild.Env) (call : SendRoomMessageCall) {a b : Uuid}
    {s : Server} (hblock : blockBetween s.db a b = true) :
    Silent a b s ((sendRoomMessage env call).run s).2 := by
  constructor
  · exact .of_traffic (Tx.Keeps.run (keeps_sendRoomMessage (π := traffic) (fun _ _ => rfl)
      (fun _ _ => rfl) (fun _ _ => rfl) (fun _ _ => rfl) env call) s)
  obtain ⟨-, hsent⟩ | ⟨-, hsent⟩ := sendRoomMessage_sent env call s
  · exact ⟨[], by simp [hsent], by simp⟩
  refine ⟨_, hsent, fun o ho => ?_⟩
  have hvisible : ∀ m ∈ (membersOf s.db call.message.roomId).filter
      (fun m => !blockBetween s.db call.message.senderId m), call.message.senderId = a → m ≠ b := by
    rintro m hm rfl rfl
    simp [hblock] at hm
  simp only [roomDeliveries, List.mem_append, List.mem_map] at ho
  rcases ho with ⟨m, hm, rfl⟩ | ⟨m, hm, rfl⟩
  · exact Outgoing.passes_publish.mpr (hvisible m hm)
  · exact Outgoing.passes_push.mpr (hvisible m (List.mem_of_mem_filter hm))

end

/-! ## The inbox -/

section
open Federation

variable {a b : Uuid}

/-- The request brings a note from `a` to `b` that the inbox will take. -/
structure BringsNote (env : FederationEnv) (a b : Uuid) (s : Server) (call : InboxCall)
    (activity : Activity) : Prop where
  carries : Carries env call s activity
  create : activity.activityType = "Create"
  isNote : (noteOf activity.payload).isSome
  fresh : ¬ Recorded activity.id s.db
  unmapped : ¬ Mapped activity.id s.db
  row : s.db.federationInboxActivities.get call.new.activityRow = none
  deliverable : Deliverable env.names activity.actor call.new s.db
  sender : ∃ u, s.db.users.get a = some u ∧ shadowName env.names activity.actor = .ok u.username
  recipient : ∃ u, userByUsername (call.recipient env) s.db = some u ∧ u.id = b

theorem not_silent_of_bringsNote {env : FederationEnv} {s : Server} {call : InboxCall}
    {activity : Activity} (hunique : (s.db.users.rows.map User.username).Nodup)
    (h : BringsNote env a b s call activity) :
    ¬ Silent a b s ((inbox env call).run s).2 := by
  obtain ⟨hno, -⟩ | ⟨activity', s₁, hc, hstore, hr⟩ := inbox_cases env call s
  · exact absurd ⟨activity, h.carries⟩ hno
  obtain rfl := h.carries.unique hc
  have hdb : s₁.db = s.db := congrArg Prod.fst hstore
  have hsent : s₁.sent = s.sent := congrArg Prod.snd hstore
  generalize (inbox env call).run s = out at hr
  cases hr with
  | duplicate recorded => exact absurd (hdb ▸ recorded) h.fresh
  | refused _ _ taken =>
    rw [hdb, h.row] at taken
    cases taken
  | noted _ _ _ silent =>
    have hnote := h.isNote
    rw [hdb] at silent
    rcases silent with hs | hs | hs
    · exact absurd h.create hs
    · simp [hs] at hnote
    · exact absurd hs h.unmapped
  | stuck _ _ _ _ _ _ _ _ _ _ undeliverable => exact absurd (hdb ▸ h.deliverable) undeliverable
  | delivered _ note user account username users _ _ message _ _ _ _ _ _ found name shadow _
      isMessage =>
    obtain ⟨u, hu, huname⟩ := h.sender
    obtain ⟨w, hw, rfl⟩ := h.recipient
    obtain rfl : u.id = a := Table.key_of_get hu
    rw [huname] at name
    cases name
    rw [hdb] at shadow found
    rw [hw] at found
    cases found
    obtain rfl := shadow.eq_of_username hu rfl hunique
    refine not_silent_of_sent [.publish message.recipientId (.newMessage message),
      .push message.recipientId (.newMessage message.senderId message.id message.content)] ?_
      ⟨_, List.mem_cons_self, ?_⟩
    · rw [hsent, List.append_assoc]
      rfl
    · simp [Outgoing.passes, Event.sender, isMessage]

theorem silent_of_not_bringsNote {env : FederationEnv} {s : Server} {call : InboxCall}
    (ha : (s.db.users.get a).isSome) (h : ∀ activity, ¬ BringsNote env a b s call activity) :
    Silent a b s ((inbox env call).run s).2 := by
  obtain ⟨-, e, s', hrun, hstore⟩ | ⟨activity, s₁, hc, hstore, hr⟩ := inbox_cases env call s
  · rw [hrun]
    exact .of_store hstore
  have hdb : s₁.db = s.db := congrArg Prod.fst hstore
  have hsent : s₁.sent = s.sent := congrArg Prod.snd hstore
  generalize (inbox env call).run s = out at hr
  apply Silent.trans (.of_store hstore)
  cases hr with
  | duplicate | refused => exact .refl a b s₁
  | noted | stuck => exact ⟨.of_traffic rfl, [], by simp [Server.setDb], by simp⟩
  | delivered t note user account username users remote messages message fresh inserted create
      isNote unmapped deliverable found name shadow mapped isMessage stored =>
    have hother : message.senderId = a → message.recipientId ≠ b := by
      rintro hfrom hto
      obtain ⟨u, hu⟩ := Option.isSome_iff_exists.mp ha
      have hshadow := shadow.get
      have hold := shadow.old a u (hdb ▸ hu)
      rw [isMessage] at hfrom hto
      rw [show account.id = a from hfrom, hold] at hshadow
      cases hshadow
      rw [hdb] at fresh unmapped deliverable inserted found
      refine h activity ⟨hc, create, by simp [isNote], fresh, unmapped,
        Table.get_eq_none_of_insert inserted, deliverable, ⟨_, hu, ?_⟩, user, found, hto⟩
      rw [name, shadow.name]
    refine ⟨⟨?_, fun r hr ha hb => ⟨r, hr, rfl, ha, hb⟩⟩, _, (List.append_assoc _ _ _), ?_⟩
    · intro m hm ha hb
      rw [Table.rows_of_insert stored, List.mem_append, List.mem_singleton] at hm
      rcases hm with hm | rfl
      · exact hm
      · exact absurd hb (hother ha)
    · intro o ho
      simp only [List.mem_append, List.mem_singleton] at ho
      rcases ho with rfl | rfl
      · exact Outgoing.passes_publish.mpr hother
      · exact Outgoing.passes_push.mpr hother

end

/-! ## Sessions -/

section
open Calls

variable {a b : Uuid} {session : Session} {s : Server}

theorem silent_relayed {channel : Uuid} (event : Event)
    (h : session.publishes = true → event.sender = a → channel ≠ b) (s : Server) :
    Silent a b s (relayed session channel event s) := by
  unfold relayed
  split
  · rename_i hp
    exact ⟨.refl a b s.db, [_], rfl, by simpa using Outgoing.passes_publish.mpr (h hp)⟩
  · exact .refl a b s

theorem not_silent_relayed (hp : session.publishes = true) {event : Event} (he : event.sender = a)
    (s : Server) : ¬ Silent a b s (relayed session b event s) := by
  rw [relayed, if_pos hp]
  exact not_silent_of_sent _ rfl ⟨_, List.mem_singleton_self _, by simp [Outgoing.passes, he]⟩

theorem run_typing (session : Session) (partnerId : Uuid) (isTyping : Bool) (at_ : Moment)
    (s : Server) : ((serve session (.typing partnerId isTyping) at_).run s).2 =
      relayed session partnerId (.typing session.userId partnerId isTyping) s := by
  have hrun : (handleEvent session (.typing partnerId isTyping) at_).run s = (.ok (some session),
      relayed session partnerId (.typing session.userId partnerId isTyping) s) := by
    rw [handleEvent, Tx.run_bind_ok (run_relay _ _ _ _)]
    rfl
  rw [run_serve, hrun]

theorem silent_setStatus (callId : Uuid) (newStatus : String) (now : Int) (s : Server) :
    Silent a b s (s.setDb (setStatus callId newStatus now s.db)) := by
  refine ⟨⟨fun m hm _ _ => hm, ?_⟩, [], by simp [Server.setDb], by simp⟩
  intro r hr ha hb
  obtain ⟨r₀, hr₀, rfl⟩ := List.mem_map.mp hr
  refine ⟨r₀, hr₀, ?_⟩
  split at ha
  · rename_i hid
    rw [if_pos hid] at hb ⊢
    exact ⟨(CallRecord.withStatus_id _ _ r₀).symm, by simpa using ha, by simpa using hb⟩
  · rename_i hid
    rw [if_neg hid] at hb ⊢
    exact ⟨rfl, ha, hb⟩

/-- The clean-up of the session hangs up on `b`. -/
def HangsUpOn (session : Session) (b : Uuid) : Prop :=
  session.publishes = true ∧ ∃ callId, session.activeCall = some (callId, b)

theorem silent_cleanedUp (h : session.userId = a → ¬ HangsUpOn session b) (now : Int)
    (s : Server) : Silent a b s (cleanedUp session now s) := by
  unfold cleanedUp
  split
  · exact .refl a b s
  · rename_i callId peerId hactive
    refine (silent_setStatus callId "ended" now s).trans (silent_relayed _ ?_ _)
    rintro hp ha rfl
    exact h ha ⟨hp, callId, hactive⟩

theorem not_silent_cleanedUp (ha : session.userId = a) (h : HangsUpOn session b) (now : Int)
    {s s' : Server} (hs : s'.sent = s.sent) : ¬ Silent a b s (cleanedUp session now s') := by
  obtain ⟨hp, callId, hactive⟩ := h
  refine not_silent_of_sent [.publish b (.callHangup callId session.userId)] ?_
    ⟨_, List.mem_singleton_self _, by simp [Outgoing.passes, Event.sender, ha]⟩
  simp [cleanedUp, hactive, relayed, hp, Server.setDb, hs]

/-- The offer makes a call that is new to `b`, or it ends the session with a hang-up to `b`. -/
structure ReachesByOffer (a b : Uuid) (s : Server) (session : Session) (calleeId : Uuid)
    (callType : String) (at_ : Moment) : Prop where
  user : session.userId = a
  created : ∃ t, addCall (newCall session calleeId callType at_) s.db =
    .ok (newCall session calleeId callType at_, { s.db with callRecords := t })
  reaches : calleeId = b ∨ at_.delivered = false ∧ HangsUpOn session b

variable {calleeId : Uuid} {callType : String} {at_ : Moment}

theorem cleanedUp_sameParticipants (session : Session) (now : Int) (s : Server) :
    SameParticipants s.db.callRecords (cleanedUp session now s).db.callRecords := by
  unfold cleanedUp
  split
  · exact .refl _
  · rw [relayed_db]
    exact .update _ _ _ _

/-- A new call from `a` to `b` is not silent, whatever becomes of it. -/
theorem not_silent_of_new_call {t : Records} {new : CallRecord} {s' : Server}
    (hins : s.db.callRecords.insert new = some t)
    (hsame : SameParticipants t s'.db.callRecords) : ¬ Silent new.callerId new.calleeId s s' := by
  intro hs
  have hnew : t.get new.id = some new := by
    rw [Table.get_of_insert hins, if_pos rfl]
  obtain ⟨r, hr, hcaller, hcallee⟩ := hsame _ _ hnew
  obtain ⟨hmem, hid⟩ := Table.get_eq_some.mp hr
  obtain ⟨r', hr', hid', -⟩ := hs.quiet.calls r hmem hcaller hcallee
  have hnone := Table.get_eq_none.mp (Table.get_eq_none_of_insert hins)
  exact hnone (List.mem_map.mpr ⟨r', hr', hid'.trans hid⟩)

theorem quiet_of_new_call {d : Db} {t : Records} {new : CallRecord}
    (hins : d.callRecords.insert new = some t) (h : new.callerId = a → new.calleeId ≠ b) :
    Quiet a b d { d with callRecords := t } := by
  refine ⟨fun m hm _ _ => hm, fun r hr ha hb => ?_⟩
  rw [Table.rows_of_insert hins, List.mem_append, List.mem_singleton] at hr
  rcases hr with hr | rfl
  · exact ⟨r, hr, rfl, ha, hb⟩
  · exact absurd hb (h ha)

theorem silent_callOffer_iff (sdpOffer : String) :
    Silent a b s ((serve session (.callOffer calleeId callType sdpOffer) at_).run s).2 ↔
      ¬ ReachesByOffer a b s session calleeId callType at_ := by
  rw [run_serve, handleEvent]
  rcases hadd : addCall (newCall session calleeId callType at_) s.db with e | ⟨r, d⟩
  · rw [run_callOffer_refused hadd]
    refine ⟨fun _ h => ?_, fun _ => .refl a b s⟩
    obtain ⟨t, ht⟩ := h.created
    rw [hadd] at ht
    cases ht
  obtain ⟨rfl, t, hins, rfl⟩ := addCall_ok hadd
  rcases hd : at_.delivered with _ | _
  · rw [run_callOffer_unheard hadd hd]
    dsimp only
    constructor
    · rintro hs ⟨rfl, -, rfl | ⟨-, hang⟩⟩
      · exact not_silent_of_new_call hins (cleanedUp_sameParticipants session at_.now
          (s.setDb { s.db with callRecords := t })) hs
      · refine not_silent_cleanedUp rfl hang at_.now ?_ hs
        rfl
    · intro h
      have hnew : Silent a b s (s.setDb { s.db with callRecords := t }) :=
        ⟨quiet_of_new_call hins (fun ha hb => h ⟨ha, ⟨t, hadd⟩, .inl hb⟩), [],
          by simp [Server.setDb], by simp⟩
      exact hnew.trans (silent_cleanedUp (fun ha hang => h ⟨ha, ⟨t, hadd⟩, .inr ⟨hd, hang⟩⟩) _ _)
  · obtain ⟨name, s', hrun, hdb, hsent⟩ := run_callOffer_heard hadd hd sdpOffer
    rw [hrun]
    dsimp only
    constructor
    · rintro hs ⟨rfl, -, rfl | ⟨hlost, -⟩⟩
      · refine not_silent_of_new_call hins ?_ hs
        rw [hdb]
        exact .refl t
      · rw [hd] at hlost
        cases hlost
    · intro h
      have hother : session.userId = a → calleeId ≠ b := fun ha hb => h ⟨ha, ⟨t, hadd⟩, .inl hb⟩
      obtain ⟨new, hnew, hpasses⟩ := (silent_relayed (.incomingCall at_.callId session.userId
        callType sdpOffer) (fun (_ : session.publishes = true) => hother) s).sent
      refine ⟨?_, new ++ [.push calleeId (.incomingCall session.userId name at_.callId callType)],
        ?_, ?_⟩
      · rw [hdb]
        exact quiet_of_new_call hins hother
      · rw [hsent, hnew, List.append_assoc]
      · intro o ho
        rw [List.mem_append, List.mem_singleton] at ho
        rcases ho with ho | rfl
        · exact hpasses o ho
        · exact Outgoing.passes_push.mpr hother

theorem silent_typing_iff {partnerId : Uuid} (isTyping : Bool) :
    Silent a b s ((serve session (.typing partnerId isTyping) at_).run s).2 ↔
      ¬ (session.userId = a ∧ partnerId = b ∧ session.publishes = true) := by
  rw [run_typing]
  constructor
  · rintro hs ⟨rfl, rfl, hp⟩
    refine not_silent_relayed hp ?_ s hs
    rfl
  · intro h
    apply silent_relayed
    intro hp ha hb
    exact h ⟨ha, hb, hp⟩

end

/-! ## All operations -/

/-- The libraries and the configuration of the operations. -/
structure Env where
  messages : Messaging.MessageEnv
  federation : Federation.FederationEnv

/-- The operations by which something may go from one user to another. -/
inductive Operation where
  | sendMessage (call : Messaging.SendMessageCall)
  | inbox (call : Federation.InboxCall)
  | typing (session : Calls.Session) (partnerId : Uuid) (isTyping : Bool) (at_ : Calls.Moment)
  | callOffer (session : Calls.Session) (calleeId : Uuid) (callType sdpOffer : String)
      (at_ : Calls.Moment)
  | sendRoomMessage (call : Messaging.SendRoomMessageCall)

/-- The server after an operation. -/
def Operation.after (env : Env) (s : Server) : Operation → Server
  | sendMessage call => ((Messaging.sendMessage env.messages call).run s).2
  | inbox call => ((Federation.inbox env.federation call).run s).2
  | typing session partnerId isTyping at_ =>
    ((Calls.serve session (.typing partnerId isTyping) at_).run s).2
  | callOffer session calleeId callType sdpOffer at_ =>
    ((Calls.serve session (.callOffer calleeId callType sdpOffer) at_).run s).2
  | sendRoomMessage call => ((Messaging.sendRoomMessage env.messages.guild call).run s).2

/-- The operation goes from `a` to `b` on a way on which no block is checked. -/
inductive Unguarded (env : Env) (a b : Uuid) (s : Server) : Operation → Prop
  | inbox (call : Federation.InboxCall) (activity : Federation.Activity)
    (brings : BringsNote env.federation a b s call activity) : Unguarded env a b s (.inbox call)
  | typing (session : Calls.Session) (isTyping : Bool) (at_ : Calls.Moment)
    (user : session.userId = a) (publishes : session.publishes = true) :
    Unguarded env a b s (.typing session b isTyping at_)
  | callOffer (session : Calls.Session) (calleeId : Uuid) (callType sdpOffer : String)
    (at_ : Calls.Moment) (reaches : ReachesByOffer a b s session calleeId callType at_) :
    Unguarded env a b s (.callOffer session calleeId callType sdpOffer at_)

/-- Between users with a block, an operation is silent if and only if it does not go from the one
to the other through the inbox or a session. Direct messages and room messages are silent. -/
theorem silent_iff_not_unguarded (env : Env) (s : Server) (a b : Uuid) (hab : a ≠ b)
    (ha : (s.db.users.get a).isSome) (hunique : (s.db.users.rows.map User.username).Nodup)
    (hblock : blockBetween s.db a b = true) (op : Operation) :
    Silent a b s (op.after env s) ↔ ¬ Unguarded env a b s op := by
  cases op with
  | sendMessage call =>
    exact ⟨fun _ h => (by cases h), fun _ => silent_sendMessage hab hblock⟩
  | sendRoomMessage call =>
    exact ⟨fun _ h => (by cases h), fun _ => silent_sendRoomMessage _ call hblock⟩
  | inbox call =>
    constructor
    · rintro hs ⟨⟩
      rename_i activity brings
      exact not_silent_of_bringsNote hunique brings hs
    · intro h
      exact silent_of_not_bringsNote ha (fun activity hb => h (.inbox call activity hb))
  | typing session partnerId isTyping at_ =>
    refine (silent_typing_iff isTyping).trans (not_congr ⟨?_, ?_⟩)
    · rintro ⟨ha, rfl, hp⟩
      exact .typing session isTyping at_ ha hp
    · rintro ⟨⟩
      rename_i user publishes
      exact ⟨user, rfl, publishes⟩
  | callOffer session calleeId callType sdpOffer at_ =>
    refine (silent_callOffer_iff sdpOffer).trans (not_congr ⟨?_, ?_⟩)
    · exact .callOffer session calleeId callType sdpOffer at_
    · rintro ⟨⟩
      assumption

/-! ## Samples -/

/-- Alice has blocked Bob. -/
def blockedPhones : Server :=
  { Calls.phones.server with
    db := { Calls.phones.server.db with userBlocks := ⟨[⟨1, 2⟩], by decide⟩ } }

/-- Bob's session. -/
def bobSession : Calls.Session := ⟨2, true, none⟩

def peerOutbox : Federation.OutboxEnv where
  names := Federation.peerFederation.names
  instanceDomain := "local.example"
  urlPath s := if s = "https://remote.example" then .ok "/" else .error "relative URL without a base"
  withPath _ path := "https://remote.example" ++ path
  maxDeliveryAttempts := 8

def peerEnv : Env where
  messages := ⟨peerOutbox, Guild.asciiEnv, fun _ => none⟩
  federation := Federation.peerFederation

/-- Bob types to Alice, and calls her, although she has blocked him. -/
theorem blocked_user_reaches_blocker :
    blockBetween blockedPhones.db 2 1 = true ∧
      ¬ Silent 2 1 blockedPhones
        ((Operation.typing bobSession 1 true ⟨100, 10, true⟩).after peerEnv blockedPhones) ∧
      ¬ Silent 2 1 blockedPhones ((Operation.callOffer bobSession 1 "voice" "offer"
        ⟨100, 10, true⟩).after peerEnv blockedPhones) := by
  refine ⟨by decide, ?_, ?_⟩
  · exact not_silent_of_sent [.publish 1 (.typing 2 1 true)] rfl
      ⟨_, List.mem_singleton_self _, rfl⟩
  · exact not_silent_of_sent [.publish 1 (.incomingCall 10 2 "voice" "offer"),
      .push 1 (.incomingCall 2 "bob" 10 "voice")] rfl ⟨_, List.mem_cons_self, rfl⟩

/-- Bob's call to Carol does not reach Alice. -/
theorem silent_iff_not_unguarded_carol :
    Silent 2 1 blockedPhones ((Operation.callOffer bobSession 3 "voice" "offer"
      ⟨100, 10, true⟩).after peerEnv blockedPhones) := by
  refine (silent_iff_not_unguarded peerEnv blockedPhones 2 1 (by decide) (by decide) (by decide)
    (by decide) _).mpr ?_
  rintro ⟨⟩
  rename_i reaches
  have hreaches := reaches.reaches
  simp at hreaches

end SyncServer.Moderation
