import SyncServer.Federation.Inbox
import SyncServer.Moderation.Blocks

/-! # Restrictions and the other ways to send

A direct message is refused to a sender with a yellow card, behind a block, under the restriction
to existing contacts, and over the daily limit. `POST /federation/send` and room messages make none
of these checks but that of the block in a room.
-/

namespace SyncServer.Moderation
open Transaction Accounts Messaging Federation

/-! ## Refused direct messages -/

/-- `POST /api/messages` refuses the message, once it has found the recipient. -/
inductive Refuses (env : MessageEnv) (call : SendMessageCall) (recipient : User) (s : Db) : Prop
  | checks (e : AppError)
    (refused : (ensureDirectMessageAllowed call.senderId recipient.id call.new.now).run s =
      (.error e, s))
  | limit (guild : Guild.GuildSnapshot) (retryAfterSeconds : Int)
    (limited : ((Guild.sendMessageWithGuild env.guild (messageTo call recipient.id) call.new.now
      call.new.audit).run s).1 = .ok (.limited guild retryAfterSeconds))

/-- A request that is refused sends nothing, and it is not answered with a message. -/
theorem sendMessage_refused {env : MessageEnv} {call : SendMessageCall} {recipient : User}
    {s : Server} {d : Db} (hresolve : (resolveRecipient env call).run s.db = (.ok recipient, d))
    (h : Refuses env call recipient d) :
    ((sendMessage env call).run s).2.sent = s.sent ∧
      ∀ message, ((sendMessage env call).run s).1 ≠ .ok (.created message) := by
  rw [sendMessage, Tx.run_bind_ok (run_onDb_eq hresolve)]
  cases h with
  | checks e refused =>
    rw [Tx.run_bind_error (run_onDb_eq (s := s.setDb d) refused)]
    exact ⟨rfl, fun _ h => by cases h⟩
  | limit guild retryAfterSeconds limited =>
    rcases hcheck : (ensureDirectMessageAllowed call.senderId recipient.id call.new.now).run d with
      ⟨e | ⟨⟩, d'⟩
    · rw [Tx.run_bind_error (run_onDb_eq (s := s.setDb d) hcheck)]
      exact ⟨rfl, fun _ h => by cases h⟩
    · have hd : d' = d := Tx.Keeps.of_run (π := id) (keeps_ensureDirectMessageAllowed _ _ _) hcheck
      subst hd
      rcases hsend : (Guild.sendMessageWithGuild env.guild (messageTo call recipient.id)
        call.new.now call.new.audit).run d' with ⟨r, d₂⟩
      rw [hsend] at limited
      obtain rfl : r = _ := limited
      have hstatement := (Tx.run_asStatement _ _).trans (Tx.atomically_ok hsend)
      rw [Tx.run_bind_ok (run_onDb_read (s := s.setDb d') hcheck), sendTo,
        Tx.run_bind_ok (run_onDb_eq (s := s.setDb d') hstatement)]
      dsimp only
      rcases Guild.run_insertAuditLog_cases (limitLog call recipient.id guild retryAfterSeconds) d₂
        with ⟨e, hlog⟩ | ⟨t, hlog⟩
      · rw [Tx.run_bind_error (run_onDb_eq (s := (s.setDb d').setDb d₂) hlog)]
        exact ⟨rfl, fun _ h => by cases h⟩
      · rw [Tx.run_bind_ok (run_onDb_eq (s := (s.setDb d').setDb d₂) hlog)]
        exact ⟨rfl, fun _ h => by cases h⟩

/-! ## Text for an inbox -/

def IsInboxOf (env : OutboxEnv) (recipient : User) (destination : String) : Prop :=
  ∃ identity serverUrl, federatedIdentityForUser recipient = some identity ∧
    normalizeRemoteHost env.names serverUrl = .ok identity.remoteHost ∧
    buildRemoteInboxUrl env serverUrl identity.remoteUserId = .ok destination

def IsNoteTo (destination : String) (o : Outgoing) : Prop :=
  ∃ keyId payload, o = .activity destination keyId payload ∧ (noteOf payload).isSome

theorem noteOf_createActivity (env : OutboxEnv) (username : String) (activity object : Uuid)
    {content : String} (h : trim content ≠ "") (inboxes : List String) :
    noteOf (createActivity env username activity object content inboxes).2 =
      some ⟨trim content, some (actorUrl env.instanceDomain username ++ "/objects/" ++
        uuidString object)⟩ := by
  have hobject : (createActivity env username activity object content inboxes).2.get "object" =
      some (.object [("content", .string content), ("id", .string (actorUrl env.instanceDomain
        username ++ "/objects/" ++ uuidString object)), ("type", .string "Note")]) := by
    simp only [createActivity, Json.ofFields, List.foldl, Json.insertField, String.reduceLT,
      String.reduceEq, if_true, if_false]
    simp [Json.get]
  rw [noteOf, hobject]
  simp [Json.get, Json.asStr, h]

/-- `POST /federation/send` takes a text of the user to the inbox of a recipient. -/
def Mails (env : OutboxEnv) (recipient : User) (call : SendCall) (s : Server) : Prop :=
  ∃ new o destination, ((sendToRemote env call).run s).2.sent = s.sent ++ new ∧ o ∈ new ∧
    IsInboxOf env recipient destination ∧ IsNoteTo destination o

/-- The recipient has an inbox, and the sender can sign. -/
structure Mailable (env : OutboxEnv) (sender recipient : User) (s : Db) : Prop where
  inbox : ∃ destination, IsInboxOf env recipient destination
  signs : CanSign env sender.username s

theorem mails_iff_mailable (env : OutboxEnv) {sender : User} (recipient : User) {s : Server}
    (hs : s.db.users.get sender.id = some sender) :
    (∃ call : SendCall, call.senderId = sender.id ∧ Mails env recipient call s) ↔
      Mailable env sender recipient s.db := by
  constructor
  · rintro ⟨call, hcall, new, o, destination, hsent, ho, hinbox, -⟩
    refine ⟨⟨destination, hinbox⟩, ?_⟩
    by_contra hsign
    rw [sendToRemote_unsigned hs hcall hsign] at hsent
    have hnew : new = [] := by simpa using hsent
    simp [hnew] at ho
  · rintro ⟨⟨destination, hinbox⟩, hsign⟩
    obtain ⟨keyRow, hkey⟩ := s.db.federationActorKeys.exists_free
    obtain ⟨row, hrow⟩ := s.db.federationDeliveries.exists_free
    obtain ⟨keyId, hsent⟩ := sendToRemote_sends destination ⟨row, .answered 202, 0⟩ "hi"
      ⟨⟨keyRow, "", ""⟩, 0, 0⟩ hs hsign (by decide) hkey hrow rfl
    refine ⟨_, rfl, _, _, destination, hsent, List.mem_singleton_self _, hinbox, _, _, rfl, ?_⟩
    rw [noteOf_createActivity _ _ _ _ (by decide)]
    rfl

/-! ## Text for a room -/

/-- The sender and the recipient are in a room, and no block separates them. -/
def ShareRoom (sender recipient : Uuid) (s : Db) : Prop :=
  ∃ roomId, (s.rooms.get roomId).isSome ∧ (s.roomMembers.get (roomId, sender)).isSome ∧
    recipient ∈ membersOf s roomId ∧ blockBetween s sender recipient = false

def ReachesInRoom (env : Guild.Env) (recipient : Uuid) (call : SendRoomMessageCall) (s : Server) :
    Prop :=
  ∃ new o, ((sendRoomMessage env call).run s).2.sent = s.sent ++ new ∧ o ∈ new ∧
    o.passes call.message.senderId recipient = true

theorem trim_hi : trim "hi" = "hi" := by decide

theorem ensureTextIsAllowed_hi (unicode : Unicode) (fieldName : String) :
    ensureTextIsAllowed unicode fieldName (trim "hi") = .ok () := by
  have hlower : unicode.toLowercase "hi" = "hi" := by
    rw [unicode.toLowercase_ascii "hi" (by decide)]
    decide
  have hnone : detectBlockedTerm unicode "hi" = none := by
    unfold detectBlockedTerm
    simp only [trim_hi, hlower]
    decide
  rw [trim_hi, ensureTextIsAllowed, hnone]

theorem reachesInRoom_iff (env : Guild.Env) {sender : Uuid} (recipient : Uuid) {s : Server}
    (hs : s.db.userExists sender) :
    (∃ call : SendRoomMessageCall, call.message.senderId = sender ∧
        ReachesInRoom env recipient call s) ↔ ShareRoom sender recipient s.db := by
  constructor
  · rintro ⟨call, rfl, new, o, hsent, ho, hpasses⟩
    obtain ⟨-, hnone⟩ | ⟨h, hall⟩ := sendRoomMessage_sent env call s
    · have hnew : new = [] := by simpa [hnone] using hsent
      simp [hnew] at ho
    · rw [hall, List.append_cancel_left_eq] at hsent
      subst hsent
      have hmem : recipient ∈ (membersOf s.db call.message.roomId).filter
          (fun m => !blockBetween s.db call.message.senderId m) := by
        rcases List.mem_append.mp ho with ho | ho
        · obtain ⟨m, hm, rfl⟩ := List.mem_map.mp ho
          simp only [Outgoing.passes, Bool.and_eq_true, decide_eq_true_eq] at hpasses
          exact hpasses.2 ▸ hm
        · obtain ⟨m, hm, rfl⟩ := List.mem_map.mp ho
          simp only [Outgoing.passes, Bool.and_eq_true, decide_eq_true_eq] at hpasses
          exact hpasses.2 ▸ List.mem_of_mem_filter hm
      obtain ⟨hmember, hblock⟩ := List.mem_filter.mp hmem
      exact ⟨_, h.room, h.member, hmember, by simpa using hblock⟩
  · rintro ⟨roomId, hroom, hmember, hrecipient, hblock⟩
    obtain ⟨id, hid⟩ := s.db.roomMessages.exists_free
    have haccepts : Accepts env.unicode ⟨id, roomId, sender, "hi", 0, 0⟩ s.db :=
      ⟨hroom, hmember, by simp [trim_hi], ensureTextIsAllowed_hi _ _, hid, hs⟩
    refine ⟨⟨⟨id, roomId, sender, "hi", 0, 0⟩, 0, 0, 0⟩, rfl, ?_⟩
    obtain ⟨hno, -⟩ | ⟨-, hall⟩ :=
      sendRoomMessage_sent env ⟨⟨id, roomId, sender, "hi", 0, 0⟩, 0, 0, 0⟩ s
    · exact absurd haccepts hno
    · refine ⟨_, _, hall, List.mem_append_left _ (List.mem_map.mpr
        ⟨recipient, List.mem_filter.mpr ⟨hrecipient, by simp [hblock]⟩, rfl⟩), ?_⟩
      simp [Outgoing.passes, Event.sender, NewRoomMessage.row]

/-! ## The restrictions on all ways -/

/-- A message that is refused does not get to the recipient in another way, and a sender with a
yellow card does not reach anybody in a room. -/
structure RestrictionsHold (env : MessageEnv) (call : SendMessageCall) (sender recipient : User)
    (s : Server) : Prop where
  federation : Refuses env call recipient s.db →
    ∀ other : SendCall, other.senderId = sender.id → ¬ Mails env.outbox recipient other s
  rooms : hasYellowCard sender call.new.now = true →
    ∀ other : SendRoomMessageCall, other.message.senderId = sender.id →
      ¬ ReachesInRoom env.guild recipient.id other s

/-- The restrictions hold if and only if there is no other way: the recipient has no inbox on
another server, or the sender cannot sign, and under a yellow card they share no room. -/
theorem restrictions_hold_iff (env : MessageEnv) (call : SendMessageCall) (sender recipient : User)
    (s : Server) (hs : s.db.users.get call.senderId = some sender) :
    RestrictionsHold env call sender recipient s ↔
      (Refuses env call recipient s.db → ¬ Mailable env.outbox sender recipient s.db) ∧
        (hasYellowCard sender call.new.now = true → ¬ ShareRoom sender.id recipient.id s.db) := by
  have hget : s.db.users.get sender.id = some sender := by
    rw [Table.key_of_get hs, hs]
  have hmail := mails_iff_mailable env.outbox recipient hget
  have hroom := reachesInRoom_iff env.guild recipient.id
    (show s.db.userExists sender.id by rw [Db.userExists, hget]; rfl)
  constructor
  · intro h
    constructor
    · intro hrefuses hmailable
      obtain ⟨other, hother, hmails⟩ := hmail.mpr hmailable
      exact h.federation hrefuses other hother hmails
    · intro hcard hshare
      obtain ⟨other, hother, hreaches⟩ := hroom.mpr hshare
      exact h.rooms hcard other hother hreaches
  · rintro ⟨hfederation, hrooms⟩
    constructor
    · intro hrefuses other hother hmails
      exact hfederation hrefuses (hmail.mp ⟨other, hother, hmails⟩)
    · intro hcard other hother hreaches
      exact hrooms hcard (hroom.mp ⟨other, hother, hreaches⟩)

/-! ## Samples -/

/-- Alice with a yellow card. -/
def cardedAlice : User := { Calls.phoneUser 1 "alice" with yellowCardExpiresAt := some 1000 }

/-- The account of Carol, who is on another server. -/
def carolShadow : User :=
  { deactivated (newShadow peerFederation.names "carol@remote.example" 11).row with }

/-- Alice and Bob are in a room. -/
def cardServer : Server :=
  ⟨{ Db.empty with
      users := ⟨[cardedAlice, Calls.phoneUser 2 "bob", carolShadow], by decide⟩
      rooms := ⟨[⟨5, "room", 1⟩], by decide⟩
      roomMembers := ⟨[⟨5, 1, "owner", none⟩, ⟨5, 2, "member", none⟩], by decide⟩ },
    none, [], [], []⟩

/-- A request to write to somebody. -/
def writeTo (senderId : Uuid) (recipientId : String) (recipientServerUrl : Option String) :
    SendMessageCall :=
  ⟨senderId, recipientId, recipientServerUrl, "hi",
    ⟨100, 20, 21, 22, 23, ⟨⟨24, "", ""⟩, 25, 26⟩, ⟨27, .answered 202, 100⟩⟩⟩

def carolInbox : String := "https://remote.example/users/carol/inbox"

def mailToCarol : SendCall :=
  ⟨1, [(carolInbox, ⟨30, .answered 202, 100⟩)], "hi", ⟨⟨31, "", ""⟩, 32, 33⟩⟩

def wordToRoom : SendRoomMessageCall := ⟨⟨34, 5, 1, "hi", 100, 100⟩, 100, 100, 35⟩

theorem carolInbox_isInbox : IsInboxOf peerOutbox carolShadow carolInbox :=
  ⟨⟨"carol", "remote.example"⟩, "https://remote.example", by decide +kernel, by decide +kernel,
    by decide +kernel⟩

theorem mailToCarol_mails : Mails peerOutbox carolShadow mailToCarol cardServer := by
  have hget : cardServer.db.users.get cardedAlice.id = some cardedAlice := by decide
  have hsign : CanSign peerOutbox cardedAlice.username cardServer.db := .inr (by decide)
  obtain ⟨keyId, hsent⟩ := sendToRemote_sends carolInbox ⟨30, .answered 202, 100⟩ "hi" ⟨⟨31, "", ""⟩, 32, 33⟩
    hget hsign (by decide) rfl rfl rfl
  refine ⟨_, _, carolInbox, hsent, List.mem_singleton_self _, carolInbox_isInbox, _, _, rfl, ?_⟩
  rw [noteOf_createActivity _ _ _ _ (by decide)]
  rfl

theorem wordToRoom_reaches : ReachesInRoom Guild.asciiEnv 2 wordToRoom cardServer := by
  have haccepts : Accepts Guild.asciiEnv.unicode wordToRoom.message cardServer.db :=
    ⟨by decide, by decide, by decide, ensureTextIsAllowed_hi _ _, by decide, by decide⟩
  obtain ⟨hno, -⟩ | ⟨-, hsent⟩ := sendRoomMessage_sent Guild.asciiEnv wordToRoom cardServer
  · exact absurd haccepts hno
  · have hmember : 2 ∈ (membersOf cardServer.db 5).filter (fun m => !blockBetween cardServer.db 1 m) :=
      by decide
    exact ⟨_, _, hsent, List.mem_append_left _ (List.mem_map.mpr ⟨2, hmember, rfl⟩), by decide⟩

/-- Alice may not write to anybody, but her text gets to Carol's server and to Bob. -/
theorem carded_user_writes :
    hasYellowCard cardedAlice 100 = true ∧
      ¬ RestrictionsHold peerEnv.messages (writeTo 1 "carol" (some "https://remote.example"))
        cardedAlice carolShadow cardServer ∧
      ¬ RestrictionsHold peerEnv.messages (writeTo 1 "2" none) cardedAlice
        (Calls.phoneUser 2 "bob") cardServer := by
  have hget : cardServer.db.users.get cardedAlice.id = some cardedAlice := by decide
  refine ⟨by decide, fun h => ?_, fun h => ?_⟩
  · obtain ⟨hno, -⟩ | ⟨-, e, hrefused⟩ := run_ensureDirectMessageAllowed hget carolShadow.id 100
    · exact hno (.yellowCard (by decide))
    · exact h.federation (.checks e hrefused) mailToCarol rfl mailToCarol_mails
  · exact h.rooms (by decide) wordToRoom rfl wordToRoom_reaches

/-- The restrictions hold for Bob, whom Alice has blocked: both are users of this server. -/
theorem restrictions_hold_iff_bob :
    RestrictionsHold peerEnv.messages (writeTo 2 "1" none) (Calls.phoneUser 2 "bob")
      (Calls.phoneUser 1 "alice") blockedPhones := by
  refine (restrictions_hold_iff peerEnv.messages (writeTo 2 "1" none) (Calls.phoneUser 2 "bob")
    (Calls.phoneUser 1 "alice") blockedPhones (by decide)).mpr ⟨fun _ h => ?_, fun h => ?_⟩
  · obtain ⟨destination, identity, serverUrl, hidentity, -⟩ := h.inbox
    rw [show federatedIdentityForUser (Calls.phoneUser 1 "alice") = none by decide] at hidentity
    cases hidentity
  · have hcard : hasYellowCard (Calls.phoneUser 2 "bob") 100 = false := by decide
    rw [show (writeTo 2 "1" none).new.now = 100 from rfl, hcard] at h
    cases h

end SyncServer.Moderation
