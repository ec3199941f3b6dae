import SyncServer.Federation.RemoteDelivery
import SyncServer.Guild.Admission
import SyncServer.Messaging.Contacts

/-! # What a refused message leaves behind

`POST /api/messages` stores a message, counts it and publishes it before it is delivered to another
server. So a delivery that fails is answered with an error, and the message is there.
-/

namespace SyncServer.Messaging
open Transaction Accounts Moderation Federation

/-! ## The recipient -/

/-- The id of the recipient, as the handler reads it. -/
def SendMessageCall.recipient (env : MessageEnv) (call : SendMessageCall) : String :=
  env.outbox.names.unicode.toLowercase (trim call.recipientId)

def FindsLocal (env : MessageEnv) (call : SendMessageCall) (recipient : User) (d d' : Db) : Prop :=
  (∃ id, env.parseUuid (trim (call.recipient env)) = some id ∧ d.users.get id = some recipient) ∧
    d' = d

def FindsRemote (env : MessageEnv) (call : SendMessageCall) (serverUrl : String)
    (recipient : User) (d d' : Db) : Prop :=
  ∃ id host, normalizeRemoteUserId env.outbox.names (call.recipient env) = .ok id ∧
    normalizeRemoteHost env.outbox.names serverUrl = .ok host ∧
    shadowAccount env.outbox.names (federatedShadowUsername id host) call.new.shadow d =
      .ok (recipient, d')

/-- The request names `recipient`, and `d'` is the database with the account. -/
def FindsRecipient (env : MessageEnv) (call : SendMessageCall) (recipient : User) (d d' : Db) :
    Prop :=
  ∃ target, explicitRemoteTarget env call = .ok target ∧
    match target with
    | some (serverUrl, host) =>
      if host = instanceHost env.outbox.names env.outbox.instanceDomain then
        FindsLocal env call recipient d d'
      else FindsRemote env call serverUrl recipient d d'
    | none => FindsLocal env call recipient d d'

section
variable {env : MessageEnv} {call : SendMessageCall} {recipient : User} {d d' : Db}

theorem run_localRecipient_eq_ok :
    (localRecipient env (call.recipient env)).run d = (.ok recipient, d') ↔
      FindsLocal env call recipient d d' := by
  rw [localRecipient, Tx.run_done_bind_eq_ok]
  unfold FindsLocal parseLocalUuid
  rcases env.parseUuid (trim (call.recipient env)) with _ | id
  · simp
  simp only [Except.ok.injEq, exists_eq_left', Option.some.injEq]
  rw [findById, Tx.run_bind_ok (Tx.run_query _ _), Tx.run_okOr_ok]

theorem run_ensureShadow_eq_ok {remoteUserId serverUrl : String} {env : NameEnv} {newId : Uuid} :
    (ensureFederatedShadowUser env remoteUserId serverUrl newId).run d = (.ok recipient, d') ↔
      ∃ id host, normalizeRemoteUserId env remoteUserId = .ok id ∧
        normalizeRemoteHost env serverUrl = .ok host ∧
        shadowAccount env (federatedShadowUsername id host) newId d = .ok (recipient, d') := by
  rcases hid : normalizeRemoteUserId env remoteUserId with e | id
  · rw [ensureFederatedShadowUser, Tx.run_done_bind_eq_ok]
    simp [hid]
  rcases hhost : normalizeRemoteHost env serverUrl with e | host
  · simp [ensureFederatedShadowUser, Tx.run_done_bind_eq_ok, hhost]
  rw [run_ensureShadow hid hhost]
  simp only [Except.ok.injEq, exists_and_left, exists_eq_left']
  rcases shadowAccount env (federatedShadowUsername id host) newId d with e | ⟨u, d₁⟩
  · simp
  · simp

theorem run_resolveRecipient_eq_ok :
    (resolveRecipient env call).run d = (.ok recipient, d') ↔
      trim call.content ≠ "" ∧ call.recipient env ≠ "" ∧
        FindsRecipient env call recipient d d' := by
  rw [resolveRecipient, Query.run_require_bind_eq_ok, decide_eq_true_eq]
  refine and_congr_right fun _ => ?_
  rw [Tx.run_done_bind_eq_ok]
  simp only [Query.run_require_bind_eq_ok, decide_eq_true_eq]
  unfold FindsRecipient
  rw [← exists_and_left]
  refine exists_congr fun target => ?_
  rw [and_left_comm]
  refine and_congr_right fun _ => and_congr_right fun _ => ?_
  cases target with
  | none => exact run_localRecipient_eq_ok
  | some target =>
    obtain ⟨serverUrl, host⟩ := target
    unfold recipientOf
    dsimp only
    by_cases hlocal : host = instanceHost env.outbox.names env.outbox.instanceDomain
    · rw [if_pos hlocal, if_pos hlocal]
      exact run_localRecipient_eq_ok
    · rw [if_neg hlocal, if_neg hlocal]
      exact run_ensureShadow_eq_ok

end

/-! ## The delivery -/

def SendMessageCall.serverUrl (call : SendMessageCall) (target : FederatedIdentity) : String :=
  ((call.recipientServerUrl.map trim).filter (· ≠ "")).getD ("https://" ++ target.remoteHost)

section
variable {env : MessageEnv} {call : SendMessageCall} {recipient sender : User} {message : Message}
  {s : Server}

theorem succeeds_deliverMessage (hu : s.db.users.get call.senderId = some sender) :
    (deliverMessage env call recipient message).Succeeds s ↔
      ∀ target, federatedIdentityForUser recipient = some target →
        DeliveryPasses env.outbox sender target.remoteUserId (call.serverUrl target)
          call.new.activity call.new.attempt s.db := by
  have hid : sender.id = call.senderId := Table.key_of_get hu
  unfold deliverMessage
  rcases federatedIdentityForUser recipient with _ | target
  · exact iff_of_true ⟨(), _, rfl⟩ (fun _ h => by cases h)
  · simp only [Option.some.injEq, forall_eq']
    rw [← hid] at hu ⊢
    exact succeeds_deliverDirectMessageToRemote hu

/-- The delivery touches nothing but the keys and the deliveries of the federation. -/
theorem keeps_deliverMessage_db {τ : Type} {π : Db → τ}
    (hkeys : ∀ s t, π { s with federationActorKeys := t } = π s)
    (hdeliveries : ∀ s t, π { s with federationDeliveries := t } = π s) (env : MessageEnv)
    (call : SendMessageCall) (recipient : User) (message : Message) :
    (deliverMessage env call recipient message).Keeps (fun s : Server => π s.db) := by
  unfold deliverMessage
  split
  · refine Tx.keeps_bind (keeps_onDb (keeps_usernameById _)) (fun username => ?_)
    refine Tx.keeps_bind
      (keeps_onDb (keeps_ensureActorKeyMaterial hkeys _ _ _)) (fun key => ?_)
    refine Tx.keeps_bind (Tx.keeps_done _ _) (fun destination => ?_)
    refine Tx.keeps_bind ?_ (fun _ => ?_)
    · refine Tx.keeps_bind
        (keeps_onDb (keeps_upsertDeliveryPending hdeliveries _ _ _ _)) (fun delivery => ?_)
      refine Tx.keeps_bind ?_ (fun outcome => ?_)
      · unfold postActivitySigned
        split
        · exact Tx.keeps_pure _ _
        · exact Tx.keeps_bind (Tx.writes_exec (fun _ => rfl) _) (fun _ => Tx.keeps_pure _ _)
      · exact Tx.keeps_bind (keeps_onDb (keeps_recordOutcome hdeliveries _ _ _))
          (fun _ => Tx.keeps_pure _ _)
    · split
      · split <;> trivial
      · trivial
      · trivial
  · exact Tx.writes_exec (fun _ => rfl) _

theorem keeps_deliverMessage (env : MessageEnv) (call : SendMessageCall) (recipient : User)
    (message : Message) :
    (deliverMessage env call recipient message).Keeps (fun s : Server => s.db.messages) :=
  keeps_deliverMessage_db (fun _ _ => rfl) (fun _ _ => rfl) env call recipient message

end

/-! ## The message -/

/-- The direct messages among what is sent, with their channels. -/
def directMessage : Outgoing → Option (Uuid × Message)
  | .publish channel (.newMessage message) => some (channel, message)
  | _ => none

/-- From `s` to `s'` no direct message was stored or published, and none counted for the sender. -/
structure NoTrace (sender : Uuid) (s s' : Server) : Prop where
  stored : s'.db.messages = s.db.messages
  published : s'.sent.filterMap directMessage = s.sent.filterMap directMessage
  counted : ∀ day, Guild.bucket s'.db sender .outboundMessage day =
    Guild.bucket s.db sender .outboundMessage day

theorem NoTrace.refl (sender : Uuid) (s : Server) : NoTrace sender s s := ⟨rfl, rfl, fun _ => rfl⟩

theorem NoTrace.trans {sender : Uuid} {s s' s'' : Server} (h : NoTrace sender s s')
    (h' : NoTrace sender s' s'') : NoTrace sender s s'' :=
  ⟨h'.stored.trans h.stored, h'.published.trans h.published,
    fun day => (h'.counted day).trans (h.counted day)⟩

theorem noTrace_onDb {α : Type} {q : Query α} (hmessages : q.Keeps Db.messages)
    (hcounters : q.Keeps Db.dailyActionCounters) (sender : Uuid) (s : Server) :
    NoTrace sender s ((onDb q).run s).2 :=
  ⟨(keeps_onDb hmessages).run s, congrArg (List.filterMap directMessage) ((keeps_sent q).run s),
    fun _ => Guild.bucket_of_counters ((keeps_onDb hcounters).run s) _ _ _⟩

section
variable {env : MessageEnv} {call : SendMessageCall} {recipient sender : User} {s : Server} {d : Db}

theorem sendMessageWithGuild_limited {m : NewMessage} {now : Int} {audit : Uuid}
    {guild : Guild.GuildSnapshot} {retryAfterSeconds : Int}
    (h : (Guild.sendMessageWithGuild env.guild m now audit).run s.db =
      (.ok (.limited guild retryAfterSeconds), d)) : NoTrace m.senderId s (s.setDb d) := by
  obtain ⟨-, d₁, -, hframe, h⟩ := Guild.run_humanOperation_parts h
  rcases Guild.run_sendMessageChecked_ok h with ⟨-, rfl⟩ | ⟨-, saved, d₂, hres, -⟩
  · exact ⟨hframe.messages, rfl, fun _ => hframe.bucket _ _ _⟩
  · cases hres

/-- A message that is not stored leaves no trace. -/
theorem noTrace_sendTo (h : ¬ Guild.MessagePasses env.guild (messageTo call recipient.id)
    call.new.now call.new.audit s.db) :
    NoTrace call.senderId s ((sendTo env call recipient).run s).2 := by
  rcases hquota : (Guild.sendMessageWithGuild env.guild (messageTo call recipient.id) call.new.now
    call.new.audit).run s.db with ⟨e | result, d⟩
  · have hfail := (Tx.run_asStatement _ _).trans (Tx.atomically_of_error hquota)
    rw [sendTo, Tx.run_bind_error (run_onDb_eq hfail)]
    exact .refl _ _
  have hdb := run_onDb_eq (s := s) ((Tx.run_asStatement _ _).trans (Tx.atomically_ok hquota))
  cases result with
  | limited guild retryAfterSeconds =>
    have hlimited : NoTrace call.senderId s (s.setDb d) := sendMessageWithGuild_limited hquota
    refine hlimited.trans ?_
    have hlog := noTrace_onDb
      (Guild.keeps_insertAuditLog (fun _ _ => rfl)
        (limitLog call recipient.id guild retryAfterSeconds))
      (Guild.keeps_insertAuditLog (fun _ _ => rfl) _) call.senderId (s.setDb d)
    rw [sendTo, Tx.run_bind_ok hdb]
    dsimp only
    rcases hrun : (onDb (Guild.insertAuditLog
      (limitLog call recipient.id guild retryAfterSeconds))).run (s.setDb d) with ⟨e | ⟨⟩, s'⟩
    · rw [Tx.run_bind_error hrun]
      rwa [hrun] at hlog
    · rw [Tx.run_bind_ok hrun]
      rwa [hrun] at hlog
  | sent message => exact absurd (Guild.messagePasses_of_sent hquota) h

def publishedTo (call : SendMessageCall) (recipient : Uuid) (message : Message) (s : Server) :
    Server :=
  { s with sent := s.sent ++ [.publish recipient (.newMessage message)] ++
      [.publish call.senderId (.newMessage message)] }

theorem run_publishNewMessageEvent (call : SendMessageCall) (recipient : Uuid) (message : Message)
    (s : Server) : (publishNewMessageEvent call.senderId recipient message).run s =
      (.ok (), publishedTo call recipient message s) := rfl

/-- A message that passes is stored and published, and what is left is its delivery. -/
theorem run_sendTo_passes (hvalid : ∀ r ∈ Guild.statsOf s.db call.senderId, r.Valid)
    (h : Guild.MessagePasses env.guild (messageTo call recipient.id) call.new.now call.new.audit
      s.db) :
    ∃ s', (sendTo env call recipient).run s =
        (deliverMessage env call recipient (messageTo call recipient.id).row >>= fun _ =>
          pure (.created (messageTo call recipient.id).row)).run s' ∧
      s'.db.messages ≠ s.db.messages ∧ s'.db.users = s.db.users ∧
      s'.db.federationActorKeys = s.db.federationActorKeys ∧
      s'.db.federationDeliveries = s.db.federationDeliveries := by
  obtain ⟨d₁, messages, t, hquota, hframe, hinsert, -⟩ :=
    Guild.run_sendMessageWithGuild_passes hvalid h
  have hdb := run_onDb_eq (s := s) ((Tx.run_asStatement _ _).trans (Tx.atomically_ok hquota))
  obtain ⟨stats, logs, rfl, -⟩ := hframe
  generalize hd : ({ s.db with
    userGuildStats := stats, adminAuditLogs := logs, messages := messages,
    dailyActionCounters := t } : Db) = d at hdb
  refine ⟨publishedTo call recipient.id (messageTo call recipient.id).row (s.setDb d), ?_⟩
  subst hd
  refine ⟨?_, ?_, rfl, rfl, rfl⟩
  · rw [sendTo, Tx.run_bind_ok hdb]
    exact Tx.run_bind_ok (run_publishNewMessageEvent _ _ _ _) _
  · intro (hsame : messages = s.db.messages)
    have hnone : s.db.messages.get (messageTo call recipient.id).row.id = none := h.free
    rw [← hsame, Table.get_of_insert hinsert] at hnone
    simp at hnone

end

/-! ## The handler -/

/-- The message of a request is stored for `recipient`, and `d'` is the database with the account
of the recipient. -/
structure Stores (env : MessageEnv) (call : SendMessageCall) (recipient : User) (d d' : Db) :
    Prop where
  content : trim call.content ≠ ""
  recipientId : call.recipient env ≠ ""
  finds : FindsRecipient env call recipient d d'
  allowed : ∃ sender, d'.users.get call.senderId = some sender ∧
    ¬ Refused d' sender recipient.id call.new.now
  passes : Guild.MessagePasses env.guild (messageTo call recipient.id) call.new.now
    call.new.audit d'

/-- A request that is not answered with the message leaves no trace of it. -/
def RefusalsLeaveNoTrace (env : MessageEnv) (call : SendMessageCall) (s : Server) : Prop :=
  ∀ answer s', (sendMessage env call).run s = (answer, s') →
    (∀ message, answer ≠ .ok (.created message)) → NoTrace call.senderId s s'

/-- The message of a request is not stored, or its recipient is a user of this server, or it gets
to the other server. -/
def StoredIsDelivered (env : MessageEnv) (call : SendMessageCall) (d : Db) : Prop :=
  ∀ recipient d' sender target, Stores env call recipient d d' →
    d'.users.get call.senderId = some sender → federatedIdentityForUser recipient = some target →
      DeliveryPasses env.outbox sender target.remoteUserId (call.serverUrl target)
        call.new.activity call.new.attempt d'

section
variable {env : MessageEnv} {call : SendMessageCall} {recipient : User} {s : Server} {d : Db}

theorem Stores.run_resolveRecipient (h : Stores env call recipient s.db d) :
    (resolveRecipient env call).run s.db = (.ok recipient, d) :=
  run_resolveRecipient_eq_ok.mpr ⟨h.content, h.recipientId, h.finds⟩

theorem run_sendMessage_stores (h : Stores env call recipient s.db d) :
    (sendMessage env call).run s = (sendTo env call recipient).run (s.setDb d) := by
  obtain ⟨⟨⟩, d₁, hchecks⟩ := succeeds_ensureDirectMessageAllowed.mpr h.allowed
  obtain rfl := (keeps_ensureDirectMessageAllowed (π := fun d => d) _ _ _).of_run hchecks
  rw [sendMessage, Tx.run_bind_ok (run_onDb_eq h.run_resolveRecipient),
    Tx.run_bind_ok (run_onDb_read (s := s.setDb d₁) hchecks)]

theorem noTrace_sendMessage (h : ∀ recipient d, ¬ Stores env call recipient s.db d) :
    NoTrace call.senderId s ((sendMessage env call).run s).2 := by
  have hresolve := noTrace_onDb (keeps_resolveRecipient (fun _ _ => rfl) env call)
    (keeps_resolveRecipient (fun _ _ => rfl) env call) call.senderId s
  rcases hrun : (resolveRecipient env call).run s.db with ⟨e | recipient, d⟩
  · rw [run_onDb_eq hrun] at hresolve
    rw [sendMessage, Tx.run_bind_error (run_onDb_eq hrun)]
    exact hresolve
  rw [run_onDb_eq hrun] at hresolve
  rw [sendMessage, Tx.run_bind_ok (run_onDb_eq hrun)]
  refine hresolve.trans ?_
  rcases hchecks : (ensureDirectMessageAllowed call.senderId recipient.id call.new.now).run d with
    ⟨e | ⟨⟩, d₁⟩
  · obtain rfl := (keeps_ensureDirectMessageAllowed (π := fun d => d) _ _ _).of_run hchecks
    rw [Tx.run_bind_error (run_onDb_read (s := s.setDb d₁) hchecks)]
    exact .refl _ _
  obtain rfl := (keeps_ensureDirectMessageAllowed (π := fun d => d) _ _ _).of_run hchecks
  rw [Tx.run_bind_ok (run_onDb_read (s := s.setDb d₁) hchecks)]
  refine noTrace_sendTo fun hpasses => h recipient d₁ ?_
  obtain ⟨hcontent, hid, hfinds⟩ := run_resolveRecipient_eq_ok.mp hrun
  exact ⟨hcontent, hid, hfinds, succeeds_ensureDirectMessageAllowed.mp ⟨(), d₁, hchecks⟩, hpasses⟩

end

/-- Refused messages leave no trace if and only if every message that is stored is delivered. -/
theorem refused_send_leaves_no_trace_iff (env : MessageEnv) (call : SendMessageCall) (s : Server)
    (hvalid : ∀ r ∈ Guild.statsOf s.db call.senderId, r.Valid) :
    RefusalsLeaveNoTrace env call s ↔ StoredIsDelivered env call s.db := by
  -- a stored message is answered by what comes of its delivery
  have hstored : ∀ {recipient d sender}, Stores env call recipient s.db d →
      d.users.get call.senderId = some sender → ∃ s₁, (sendMessage env call).run s =
          (deliverMessage env call recipient (messageTo call recipient.id).row >>= fun _ =>
            pure (.created (messageTo call recipient.id).row)).run s₁ ∧
        s₁.db.messages ≠ s.db.messages ∧
        ((deliverMessage env call recipient (messageTo call recipient.id).row).Succeeds s₁ ↔
          ∀ target, federatedIdentityForUser recipient = some target →
            DeliveryPasses env.outbox sender target.remoteUserId (call.serverUrl target)
              call.new.activity call.new.attempt d) := by
    intro recipient d sender hstores hsender
    have hkeeps : d.userGuildStats = s.db.userGuildStats :=
      (keeps_resolveRecipient (fun _ _ => rfl) env call).of_run hstores.run_resolveRecipient
    have hmessages : d.messages = s.db.messages :=
      (keeps_resolveRecipient (fun _ _ => rfl) env call).of_run hstores.run_resolveRecipient
    have hvalid' : ∀ r ∈ Guild.statsOf (s.setDb d).db call.senderId, r.Valid := by
      intro r hr
      refine hvalid r ?_
      rwa [Guild.statsOf, ← hkeeps]
    obtain ⟨s₁, hrun, hnew, husers, hkeys, hdeliveries⟩ := run_sendTo_passes hvalid' hstores.passes
    refine ⟨s₁, (run_sendMessage_stores hstores).trans hrun, ?_, ?_⟩
    · rw [← hmessages]
      exact hnew
    · rw [succeeds_deliverMessage (by rw [husers]; exact hsender)]
      exact forall₂_congr fun target _ =>
        ⟨DeliveryPasses.congr hkeys.symm hdeliveries.symm, DeliveryPasses.congr hkeys hdeliveries⟩
  constructor
  · intro h recipient d sender target hstores hsender htarget
    by_contra hnot
    obtain ⟨s₁, hrun, hnew, hsucceeds⟩ := hstored hstores hsender
    obtain ⟨e, s₂, hfail⟩ := Tx.not_succeeds.mp (fun hok => hnot (hsucceeds.mp hok target htarget))
    have hsame := (keeps_deliverMessage env call recipient _).of_run hfail
    have htrace := h (.error e) s₂ (hrun.trans (Tx.run_bind_error hfail _)) (fun _ => by simp)
    exact hnew (hsame.symm.trans htrace.stored)
  · intro h answer s' hrun hfailed
    by_cases hstores : ∃ recipient d, Stores env call recipient s.db d
    · obtain ⟨recipient, d, hstores⟩ := hstores
      obtain ⟨sender, hsender, -⟩ := hstores.allowed
      obtain ⟨s₁, hsend, -, hsucceeds⟩ := hstored hstores hsender
      obtain ⟨⟨⟩, s₂, hok⟩ := hsucceeds.mpr (fun target => h _ _ _ target hstores hsender)
      rw [hsend, Tx.run_bind_ok hok] at hrun
      exact absurd (Prod.mk.inj hrun).1.symm (hfailed _)
    · have htrace := noTrace_sendMessage fun recipient d hd => hstores ⟨recipient, d, hd⟩
      rwa [hrun] at htrace

/-! ## Samples -/

/-- Alice writes to Bob, who is on another server, which answers with a status. -/
def writeToBob (status : Nat) : SendMessageCall :=
  ⟨1, "Bob", some "https://remote.example", "hi",
    ⟨100, 51, 21, 22, 23, ⟨⟨24, "", ""⟩, 25, 26⟩, ⟨27, .answered status, 100⟩⟩⟩

theorem resolve_bob :
    ((resolveRecipient contactEnv (writeToBob 202)).run contactServer.db).1 = .ok bobContact := by
  decide +kernel

/-- The server of Bob accepts the message. -/
theorem refused_send_bob :
    RefusalsLeaveNoTrace contactEnv (writeToBob 202) contactServer := by
  refine (refused_send_leaves_no_trace_iff contactEnv (writeToBob 202) contactServer
    (by decide)).mpr ?_
  intro recipient d sender target hstores _ htarget
  have hrun := hstores.run_resolveRecipient
  cases (congrArg Prod.fst hrun).symm.trans resolve_bob
  cases (show federatedIdentityForUser bobContact = some ⟨"bob", "remote.example"⟩ by
    decide).symm.trans htarget
  have hkeys : d.federationActorKeys = contactServer.db.federationActorKeys :=
    (keeps_resolveRecipient (fun _ _ => rfl) _ _).of_run hrun
  have hdeliveries : d.federationDeliveries = contactServer.db.federationDeliveries :=
    (keeps_resolveRecipient (fun _ _ => rfl) _ _).of_run hrun
  have hkey : HasKey contactOutbox sender.username (writeToBob 202).new.activity.key
      contactServer.db := .inr ⟨fun k hk => absurd hk List.not_mem_nil, rfl⟩
  refine DeliveryPasses.congr hkeys hdeliveries ⟨hkey, ?_, 202, rfl, rfl⟩
  exact ⟨"https://remote.example/users/bob/inbox", by decide, .inr rfl,
    show (0 : Int) < i32Max by decide⟩

/-- The server of Bob fails, so that Alice gets an error, and the message is stored, published to
both, and counted. -/
theorem refused_send_leaves_message :
    ((sendMessage contactEnv (writeToBob 500)).run contactServer).1 =
        .error (.badRequest "Remote server rejected message with status 500") ∧
      ((sendMessage contactEnv (writeToBob 500)).run contactServer).2.db.messages.rows.length = 1 ∧
      (((sendMessage contactEnv (writeToBob 500)).run contactServer).2.sent.filterMap
        directMessage).map Prod.fst = [51, 1] ∧
      Guild.bucket ((sendMessage contactEnv (writeToBob 500)).run contactServer).2.db 1
        .outboundMessage 0 = 1 ∧
      ¬ RefusalsLeaveNoTrace contactEnv (writeToBob 500) contactServer := by
  have hrun : ((sendMessage contactEnv (writeToBob 500)).run contactServer).1 =
        .error (.badRequest "Remote server rejected message with status 500") ∧
      ((sendMessage contactEnv (writeToBob 500)).run contactServer).2.db.messages.rows.length = 1 ∧
      (((sendMessage contactEnv (writeToBob 500)).run contactServer).2.sent.filterMap
        directMessage).map Prod.fst = [51, 1] ∧
      Guild.bucket ((sendMessage contactEnv (writeToBob 500)).run contactServer).2.db 1
        .outboundMessage 0 = 1 := by
    decide +kernel
  obtain ⟨herror, hone, hsent, hcounted⟩ := hrun
  refine ⟨herror, hone, hsent, hcounted, fun h => ?_⟩
  have hsame := (h _ ((sendMessage contactEnv (writeToBob 500)).run contactServer).2
    (Prod.ext herror rfl) (fun _ => by simp)).stored
  rw [hsame] at hone
  revert hone
  decide

end SyncServer.Messaging
