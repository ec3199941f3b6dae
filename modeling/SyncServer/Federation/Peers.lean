import SyncServer.Federation.Actors
import SyncServer.Federation.KeyIds
import SyncServer.Federation.Redelivery
import SyncServer.Federation.RemoteDelivery

/-! # Two servers

One server delivers a direct message to a person on another one that runs the same program. The
request is signed here and verified there, under the key that the profile of the sender shows. What
the sender records of the delivery is what has become of the message.
-/

namespace SyncServer.Federation
open Transaction Accounts

/-! ## Answers -/

/-- The status of the answer that `error_response` makes of an error. -/
def errorStatus : AppError → Nat
  | .notFound => 404
  | .unauthorized => 401
  | .forbidden => 403
  | .badRequest _ => 400
  | .conflict _ => 409
  | .tooManyRequests _ => 429
  | _ => 500

def answerStatus : Except AppError InboxAnswer → Nat
  | .ok _ => 202
  | .error e => errorStatus e

theorem isSuccess_answerStatus (answer : Except AppError InboxAnswer) :
    isSuccess (answerStatus answer) = answer.isOk := by
  rcases answer with e | answer
  · cases e <;> rfl
  · rfl

/-! ## A message between two servers -/

/-- The server that a message leaves and the server that it is for. -/
structure Peers where
  sender : ActorEnv
  signing : SigningEnv
  receiver : FederationEnv
  /-- Where a request to a URL of the receiver goes. -/
  route : String → Route

/-- A direct message to a person on another server, with what its delivery takes from outside. -/
structure RemoteMessage where
  sender : User
  recipientId : String
  serverUrl : String
  content : String
  new : MintedActivity
  attempt : Uuid
  now : Int

namespace RemoteMessage

/-- The actor that the message comes from. -/
def actor (p : Peers) (m : RemoteMessage) : String := actorUrl p.sender.domain m.sender.username

/-- The activity that carries the message, with its id. -/
def activity (p : Peers) (m : RemoteMessage) (destination : String) : String × Json :=
  createActivity p.sender.outbox m.sender.username m.new.activity m.new.object m.content
    [destination]

def activityId (p : Peers) (m : RemoteMessage) : String :=
  activityIdOf p.sender.outbox m.sender.username m.new.activity

/-- The delivery of the message, if its request is answered so. -/
def deliver (p : Peers) (m : RemoteMessage) (answer : Except AppError InboxAnswer) :
    Handler Unit :=
  deliverDirectMessageToRemote p.sender.outbox m.sender.id m.recipientId m.serverUrl m.content
    m.new ⟨m.attempt, .answered (answerStatus answer), m.now⟩

end RemoteMessage

/-- What the delivery of a message comes to before its request is sent. -/
structure Prepared (p : Peers) (m : RemoteMessage) (s : Server) (key : FederationActorKey)
    (destination : String) : Prop where
  account : s.db.users.get m.sender.id = some m.sender
  key : ∃ d, (ensureActorKeyMaterial p.sender.outbox m.sender.username m.new.key).run s.db =
    (.ok key, d)
  inbox : buildRemoteInboxUrl p.sender.outbox m.serverUrl m.recipientId = .ok destination
  pending : Pending (m.activityId p) destination m.attempt s.db
  counts : ∀ r ∈ s.db.federationDeliveries.rows, IsI32 r.attempts

/-- The request for a message arrives at the inbox as it was sent. -/
structure Arrives (p : Peers) (m : RemoteMessage) (key : FederationActorKey)
    (destination date : String) (r : InboxRequest) : Prop where
  request : ∃ req, signedPost p.signing destination key.keyId key.privateKeyPkcs8 r.body date =
    .ok req ∧ Unmodified req r.request
  /-- The body is read as the activity that was written. -/
  body : p.receiver.parseJson r.body = .ok (m.activity p destination).2
  routed : p.route destination = .inbox r.username

/-- The activity as it is read. -/
def RemoteMessage.received (p : Peers) (m : RemoteMessage) (destination : String) : Activity :=
  ⟨m.activityId p, "Create", m.actor p, (m.activity p destination).2⟩

/-- The message is stored for its recipient as one from the account of its actor, and the recipient
is told of it. -/
structure TakenIn (p : Peers) (m : RemoteMessage) (recipient : String) (s s' : Server) : Prop where
  stored : ∃ user name account message, userByUsername recipient s.db = some user ∧
    shadowName p.receiver.names (m.actor p) = .ok name ∧
    HasShadow name account s.db.users s'.db.users ∧
    s'.db.messages.rows = s.db.messages.rows ++ [message] ∧
    message.senderId = account.id ∧ message.recipientId = user.id ∧
    message.content = trim m.content ∧
    s'.sent = s.sent ++ [.publish user.id (.newMessage message),
      .push user.id (.newMessage account.id message.id message.content)]
  recorded : Recorded (m.activityId p) s'.db

section
variable {p : Peers} {m : RemoteMessage} {destination : String}

/-! ## The activity -/

theorem get_activity (p : Peers) (m : RemoteMessage) (destination : String) :
    (m.activity p destination).2.get "id" = some (.string (m.activityId p)) ∧
    (m.activity p destination).2.get "type" = some (.string "Create") ∧
    (m.activity p destination).2.get "actor" = some (.string (m.actor p)) ∧
    (m.activity p destination).2.get "object" = some (Json.ofFields [
      ("id", .string (m.actor p ++ "/objects/" ++ uuidString m.new.object)),
      ("type", .string "Note"),
      ("content", .string m.content)]) := by
  simp only [RemoteMessage.activity, createActivity, Json.ofFields, List.foldl_cons,
    List.foldl_nil, Json.get_insertField]
  refine ⟨?_, ?_, ?_, ?_⟩ <;> simp <;> rfl

theorem checkActivity_message {env : FederationEnv} {body : List UInt8}
    (h : env.parseJson body = .ok (m.activity p destination).2) :
    checkActivity env body (m.actor p) = .ok (m.received p destination) := by
  obtain ⟨hid, htype, hactor, -⟩ := get_activity p m destination
  have hfield : ∀ {key value : String}, (m.activity p destination).2.get key = some (.string value) →
      stringField key (m.activity p destination).2 = .ok value := by
    intro key value h
    rw [stringField, h]
    rfl
  have hshape : validateActivityShape (m.activity p destination).2 = .ok () := by
    rw [validateActivityShape, ensureActivityType, hfield htype, ok_bind]
    rfl
  have halign : ensureLocalActorAlignment (m.actor p) (m.actor p) = .ok () := if_neg (by simp)
  simp only [checkActivity, h, Except.mapError, hshape, ensureActivityId, ensureActivityType,
    ensureActivityActor, hfield hid, hfield htype, hfield hactor, halign, ok_bind]
  rfl

theorem noteOf_message (h : trim m.content ≠ "") : noteOf (m.activity p destination).2 =
    some ⟨trim m.content, some (m.actor p ++ "/objects/" ++ uuidString m.new.object)⟩ := by
  obtain ⟨-, -, -, hobject⟩ := get_activity p m destination
  simp [noteOf, hobject, Json.ofFields, Json.get_insertField, Json.asStr, h]

end

/-! ## What the receiver does with the activity -/

theorem TakenIn.ne {p : Peers} {m : RemoteMessage} {recipient : String} {s s' : Server}
    (h : TakenIn p m recipient s s') : s'.db.messages ≠ s.db.messages := by
  obtain ⟨-, -, -, message, -, -, -, hrows, -⟩ := h.stored
  intro hsame
  rw [hsame] at hrows
  have hlength := congrArg List.length hrows
  simp at hlength

section
variable {p : Peers} {m : RemoteMessage} {destination : String} {call : InboxCall} {s : Server}

theorem received_of_carries {activity : Activity}
    (hbody : p.receiver.parseJson call.body = .ok (m.activity p destination).2)
    (h : Carries p.receiver call s activity) : activity = m.received p destination := by
  obtain ⟨v, s₁, -, hcheck⟩ := h
  exact checkActivity_unique hcheck (checkActivity_message hbody)

theorem inbox_message_cases
    (hbody : p.receiver.parseJson call.body = .ok (m.activity p destination).2) (s : Server) :
    (∃ e s', (inbox p.receiver call).run s = (.error e, s') ∧ s'.db = s.db) ∨
      ∃ s₁, s₁.db = s.db ∧ s₁.sent = s.sent ∧ Receipt p.receiver.names (call.recipient p.receiver)
        (m.received p destination) call.new s₁ ((inbox p.receiver call).run s) := by
  obtain ⟨-, e, s', hrun, hstore⟩ | ⟨activity, s₁, hcarries, hstore, hreceipt⟩ :=
    inbox_cases p.receiver call s
  · exact .inl ⟨e, s', hrun, congrArg Prod.fst hstore⟩
  · obtain rfl := received_of_carries hbody hcarries
    exact .inr ⟨s₁, congrArg Prod.fst hstore, congrArg Prod.snd hstore, hreceipt⟩

/-- The receiver answers with a success if and only if it takes the message in. -/
theorem isOk_inbox_iff (hbody : p.receiver.parseJson call.body = .ok (m.activity p destination).2)
    (hcontent : trim m.content ≠ "") (hfresh : ¬ Recorded (m.activityId p) s.db)
    (hunmapped : ¬ Mapped (m.activityId p) s.db) :
    (((inbox p.receiver call).run s).1.isOk = true ↔
      TakenIn p m (call.recipient p.receiver) s ((inbox p.receiver call).run s).2) ∧
    (((inbox p.receiver call).run s).1.isOk = false →
      ((inbox p.receiver call).run s).2.db.messages = s.db.messages) := by
  have hrefused : ∀ {e : AppError} {s' : Server}, s'.db.messages = s.db.messages →
      ((Except.error e : Except AppError InboxAnswer).isOk = true ↔
        TakenIn p m (call.recipient p.receiver) s s') ∧
      ((Except.error e : Except AppError InboxAnswer).isOk = false →
        s'.db.messages = s.db.messages) := by
    intro e s' hsame
    refine ⟨iff_of_false Bool.false_ne_true ?_, fun _ => hsame⟩
    exact fun h => h.ne hsame
  obtain ⟨e, s', hrun, hdb⟩ | ⟨s₁, hdb, hsent, hreceipt⟩ := inbox_message_cases hbody s
  · rw [hrun]
    exact hrefused (congrArg Db.messages hdb)
  generalize (inbox p.receiver call).run s = out at hreceipt ⊢
  cases hreceipt with
  | duplicate recorded => exact absurd (hdb ▸ recorded) hfresh
  | refused error fresh taken => exact hrefused (by rw [hdb])
  | noted t fresh inserted silent =>
    rcases silent with hcreate | hnone | hmapped
    · exact absurd rfl hcreate
    · rw [RemoteMessage.received, noteOf_message hcontent] at hnone
      cases hnone
    · exact absurd (hdb ▸ hmapped) hunmapped
  | delivered t note user account name users remote messages message fresh inserted create isNote
      unmapped deliverable found hname shadow mapped isMessage stored =>
    rw [RemoteMessage.received, noteOf_message hcontent] at isNote
    cases isNote
    refine ⟨iff_of_true rfl ⟨⟨user, name, account, message, hdb ▸ found, hname, ?_, ?_, ?_⟩, ?_⟩,
      fun h => absurd h Bool.true_eq_false.mp⟩
    · rw [← hdb]
      exact shadow
    · rw [← hdb]
      exact Table.rows_of_insert stored
    · subst isMessage
      exact ⟨rfl, rfl, rfl, by simp [hsent]⟩
    · exact recorded_of_insert inserted
  | stuck error t note users remote fresh inserted create isNote unmapped undeliverable =>
    exact hrefused (by rw [← hdb]; rfl)

theorem messages_of_recorded
    (hbody : p.receiver.parseJson call.body = .ok (m.activity p destination).2)
    (h : Recorded (m.activityId p) s.db) :
    ((inbox p.receiver call).run s).2.db = s.db := by
  obtain ⟨e, s', hrun, hdb⟩ | ⟨s₁, hdb, -, hreceipt⟩ := inbox_message_cases hbody s
  · rw [hrun]
    exact hdb
  have hrec : Recorded (m.activityId p) s₁.db := hdb ▸ h
  generalize (inbox p.receiver call).run s = out at hreceipt
  cases hreceipt with
  | duplicate recorded => exact hdb
  | refused error fresh taken => exact absurd hrec fresh
  | noted t fresh inserted silent => exact absurd hrec fresh
  | delivered t note user account name users remote messages message fresh => exact absurd hrec fresh
  | stuck error t note users remote fresh => exact absurd hrec fresh

theorem deliveries_of_recorded {calls : List InboxCall}
    (hbody : ∀ call ∈ calls, p.receiver.parseJson call.body = .ok (m.activity p destination).2)
    (h : Recorded (m.activityId p) s.db) : (deliveries p.receiver s calls).db = s.db := by
  induction calls generalizing s with
  | nil => rfl
  | cons call calls ih =>
    have hstep := messages_of_recorded (hbody call List.mem_cons_self) h
    have hrest := ih (s := ((inbox p.receiver call).run s).2)
      (fun c hc => hbody c (List.mem_cons_of_mem _ hc)) (hstep ▸ h)
    exact hrest.trans hstep

end

/-! ## What the sender records -/

section
variable {env : OutboxEnv} {activityId destination : String} {d d' : Db}

theorem succeeds_markDeliveryFailure {r : FederationDelivery}
    (hr : d.federationDeliveries.get r.id = some r) (errorMessage : String)
    (maxAttempts now : Int) : (markDeliveryFailure r.id errorMessage maxAttempts now).Succeeds d := by
  rw [markDeliveryFailure, Tx.succeeds_query_bind, hr]
  exact ⟨(), _, rfl⟩

theorem succeeds_deliver_answered {key : FederationActorKey} {senderUsername : String}
    {payload : Json} {attempt : Attempt} {s : Server} {status : Nat}
    (hu : s.db.users.rows.any (fun u => u.username = senderUsername) = true)
    (ho : attempt.outcome = .answered status)
    (h : Pending activityId destination attempt.id s.db) :
    (deliver env key activityId senderUsername payload destination attempt).Succeeds s := by
  by_cases hsuccess : isSuccess status = true
  · exact (succeeds_deliver hu ho hsuccess).mpr h
  obtain ⟨delivery, d₁, hpending⟩ := (succeeds_upsertDeliveryPending hu).mpr h.row
  have hget : d₁.federationDeliveries.get delivery.id = some delivery :=
    Table.get_eq_some.mpr ⟨(deliveryOf_keys (upsertDeliveryPending_ok hpending).1).1, rfl⟩
  obtain ⟨⟨⟩, d₂, hrecord⟩ : (recordOutcome env delivery.id attempt).Succeeds d₁ := by
    unfold recordOutcome
    simp only [ho, hsuccess]
    exact succeeds_markDeliveryFailure hget _ _ _
  have hpost : ∀ s' : Server, (postActivitySigned destination key.keyId payload
      attempt.outcome).run s' = (.ok attempt.outcome, { s' with
        sent := s'.sent ++ [.activity destination key.keyId payload] }) := by
    intro s'
    rw [ho]
    rfl
  refine Tx.succeeds_bind.mpr ⟨delivery, s.setDb d₁, run_onDb_eq hpending, ?_⟩
  refine Tx.succeeds_bind.mpr ⟨_, _, hpost _, ?_⟩
  exact Tx.succeeds_bind.mpr ⟨(), _, run_onDb_eq hrecord, Tx.succeeds_pure _ _⟩

theorem ensureActorKeyMaterial_ok {username : String} {generated : GeneratedKey}
    {key : FederationActorKey} (hu : d.users.rows.any (fun u => u.username = username) = true)
    (h : (ensureActorKeyMaterial env username generated).run d = (.ok key, d')) :
    actorKeyOf username d' = some key := by
  rcases (succeeds_ensureActorKeyMaterial hu).mp ⟨key, d', h⟩ with hkey | ⟨hnames, hfree⟩
  · obtain ⟨key', hkey⟩ := Option.isSome_iff_exists.mp hkey
    rw [run_ensureActorKeyMaterial_found hkey] at h
    cases h
    exact hkey
  · obtain ⟨key', t, hrun, hkey⟩ := run_ensureActorKeyMaterial_key generated (.inr hnames) hfree hu
    rw [hrun] at h
    cases h
    exact hkey

end

section
variable {p : Peers} {m : RemoteMessage} {key : FederationActorKey} {destination : String}
  {s : Server} {answer : Except AppError InboxAnswer}

theorem Prepared.username (h : Prepared p m s key destination) :
    s.db.users.rows.any (fun u => u.username = m.sender.username) = true :=
  List.any_eq_true.mpr ⟨m.sender, (Table.get_eq_some.mp h.account).1, by simp⟩

theorem Prepared.succeeds_iff (h : Prepared p m s key destination)
    (answer : Except AppError InboxAnswer) :
    (m.deliver p answer).Succeeds s ↔ answer.isOk = true := by
  rw [RemoteMessage.deliver, succeeds_deliverDirectMessageToRemote h.account,
    ← isSuccess_answerStatus answer]
  constructor
  · rintro ⟨-, -, status, ho, hsuccess⟩
    cases ho
    exact hsuccess
  · intro hsuccess
    obtain ⟨d, hkey⟩ := h.key
    exact ⟨(succeeds_ensureActorKeyMaterial h.username).mp ⟨key, d, hkey⟩,
      ⟨destination, h.inbox, h.pending⟩, _, rfl, hsuccess⟩

/-- The delivery is recorded as delivered if and only if the answer is no error. -/
theorem Prepared.recorded (h : Prepared p m s key destination) (answer : Except AppError InboxAnswer) :
    ∃ row, deliveryOf (m.activityId p) destination ((m.deliver p answer).run s).2.db = some row ∧
      (row.status = "delivered" ↔ answer.isOk = true) := by
  obtain ⟨d, hkey⟩ := h.key
  have hkeep : ∀ {τ : Type} {π : Db → τ}, (∀ s t, π { s with federationActorKeys := t } = π s) →
      π d = π s.db := fun hπ =>
    (keeps_ensureActorKeyMaterial hπ p.sender.outbox m.sender.username m.new.key).of_run hkey
  have husers : d.users = s.db.users := hkeep (fun _ _ => rfl)
  have hdeliveries : d.federationDeliveries = s.db.federationDeliveries := hkeep (fun _ _ => rfl)
  have hname : (s.setDb d).db.users.rows.any (fun u => u.username = m.sender.username) = true := by
    rw [← h.username, ← husers]
    rfl
  have hi32 : IsI32 (attemptsOf (m.activityId p) destination d) :=
    attemptsI32_of_rows (hdeliveries ▸ h.counts) _ [(destination, ⟨m.attempt,
      .answered (answerStatus answer), m.now⟩)] _ List.mem_cons_self
  obtain ⟨delivery, s₁, hdeliver⟩ : (Federation.deliver p.sender.outbox key
      (createActivity p.sender.outbox m.sender.username m.new.activity m.new.object m.content
        [destination]).1 m.sender.username (m.activity p destination).2 destination
      ⟨m.attempt, .answered (answerStatus answer), m.now⟩).Succeeds (s.setDb d) :=
    succeeds_deliver_answered hname rfl (h.pending.congr hdeliveries)
  obtain ⟨-, ⟨row, hrow, hrecorded⟩, -⟩ := deliver_ok hi32 hdeliver
  refine ⟨row, ?_, ?_⟩
  · have hrun : ((m.deliver p answer).run s).2 = s₁ := by
      rw [RemoteMessage.deliver, deliverDirectMessageToRemote,
        Tx.run_bind_ok (run_onDb_read (run_usernameById h.account)),
        Tx.run_bind_ok (run_onDb_eq hkey), h.inbox, Tx.run_bind_ok (Tx.run_done _ _)]
      dsimp only
      rw [RemoteMessage.activity] at hdeliver
      rw [Tx.run_bind_ok hdeliver]
      split <;> rfl
    rw [hrun]
    exact hrow
  · rw [hrecorded.status, recordedStatus, isSuccess_answerStatus]
    by_cases hok : answer.isOk = true
    · simp [hok]
    · rw [if_neg hok]
      split <;> simp [hok]

end

/-! ## Agreement -/

/-- Whatever brings the activity of a message to the receiver for the first time, the two servers
agree on it: the delivery succeeds and is recorded as delivered if and only if the message is taken
in, a message that is not taken in leaves no message behind, and one that is taken in is not taken
in again. -/
theorem delivery_agrees (p : Peers) (m : RemoteMessage) (key : FederationActorKey)
    (destination : String) (sA sB : Server) (call : InboxCall)
    (hprepared : Prepared p m sA key destination)
    (hbody : p.receiver.parseJson call.body = .ok (m.activity p destination).2)
    (hcontent : trim m.content ≠ "") (hfresh : ¬ Recorded (m.activityId p) sB.db)
    (hunmapped : ¬ Mapped (m.activityId p) sB.db) :
    let out := (inbox p.receiver call).run sB
    let sent := (m.deliver p out.1).run sA
    let takenIn := TakenIn p m (call.recipient p.receiver) sB out.2
    (sent.1 = .ok () ↔ takenIn) ∧
      (∃ row, deliveryOf (m.activityId p) destination sent.2.db = some row ∧
        (row.status = "delivered" ↔ takenIn)) ∧
      (¬ takenIn → out.2.db.messages = sB.db.messages) ∧
      (takenIn → ∀ again : List InboxCall,
        (∀ c ∈ again, p.receiver.parseJson c.body = .ok (m.activity p destination).2) →
          (deliveries p.receiver out.2 again).db = out.2.db) := by
  intro out sent takenIn
  obtain ⟨htaken, hnot⟩ := isOk_inbox_iff hbody hcontent hfresh hunmapped
  have hsucceeds : sent.1 = .ok () ↔ out.1.isOk = true := by
    rw [← hprepared.succeeds_iff]
    constructor
    · exact fun h => ⟨(), sent.2, Prod.ext h rfl⟩
    · rintro ⟨⟨⟩, s', hrun⟩
      exact congrArg Prod.fst hrun
  obtain ⟨row, hrow, hstatus⟩ := hprepared.recorded out.1
  refine ⟨hsucceeds.trans htaken, ⟨row, hrow, hstatus.trans htaken⟩, fun h => hnot ?_, ?_⟩
  · exact Bool.eq_false_iff.mpr (fun hok => h (htaken.mp hok))
  · exact fun h again hagain => deliveries_of_recorded hagain h.recorded

/-! ## Samples -/

/-- The activity of `aliceWritesBob` as it is sent. -/
def greetingBody : List UInt8 :=
  [123, 34, 64, 99, 111, 110, 116, 101, 120, 116, 34, 58, 34, 104, 116, 116, 112, 115, 58, 47,
    47, 119, 119, 119, 46, 119, 51, 46, 111, 114, 103, 47, 110, 115, 47, 97, 99, 116, 105, 118,
    105, 116, 121, 115, 116, 114, 101, 97, 109, 115, 34, 44, 34, 97, 99, 116, 111, 114, 34, 58, 34,
    104, 116, 116, 112, 115, 58, 47, 47, 108, 111, 99, 97, 108, 46, 101, 120, 97, 109, 112, 108,
    101, 47, 117, 115, 101, 114, 115, 47, 97, 108, 105, 99, 101, 34, 44, 34, 105, 100, 34, 58, 34,
    104, 116, 116, 112, 115, 58, 47, 47, 108, 111, 99, 97, 108, 46, 101, 120, 97, 109, 112, 108,
    101, 47, 117, 115, 101, 114, 115, 47, 97, 108, 105, 99, 101, 47, 97, 99, 116, 105, 118, 105,
    116, 105, 101, 115, 47, 48, 48, 48, 48, 48, 48, 48, 48, 45, 48, 48, 48, 48, 45, 48, 48, 48, 48,
    45, 48, 48, 48, 48, 45, 48, 48, 48, 48, 48, 48, 48, 48, 48, 48, 49, 53, 34, 44, 34, 111, 98,
    106, 101, 99, 116, 34, 58, 123, 34, 99, 111, 110, 116, 101, 110, 116, 34, 58, 34, 104, 105, 34,
    44, 34, 105, 100, 34, 58, 34, 104, 116, 116, 112, 115, 58, 47, 47, 108, 111, 99, 97, 108, 46,
    101, 120, 97, 109, 112, 108, 101, 47, 117, 115, 101, 114, 115, 47, 97, 108, 105, 99, 101, 47,
    111, 98, 106, 101, 99, 116, 115, 47, 48, 48, 48, 48, 48, 48, 48, 48, 45, 48, 48, 48, 48, 45,
    48, 48, 48, 48, 45, 48, 48, 48, 48, 45, 48, 48, 48, 48, 48, 48, 48, 48, 48, 48, 49, 54, 34, 44,
    34, 116, 121, 112, 101, 34, 58, 34, 78, 111, 116, 101, 34, 125, 44, 34, 116, 111, 34, 58, 91,
    34, 104, 116, 116, 112, 115, 58, 47, 47, 114, 101, 109, 111, 116, 101, 46, 101, 120, 97, 109,
    112, 108, 101, 47, 117, 115, 101, 114, 115, 47, 98, 111, 98, 47, 105, 110, 98, 111, 120, 34,
    93, 44, 34, 116, 121, 112, 101, 34, 58, 34, 67, 114, 101, 97, 116, 101, 34, 125]

def greetingDigest : String := "rgxcNn1b4cEHXsOyFNGj3Vzlt6vhPWdLszt2TypV9XI="

def greetingCanonical : String :=
  joinLines ["(request-target): post /users/bob/inbox", "host: remote.example",
    "date: " ++ samplePostDate, "digest: SHA-256=" ++ greetingDigest]

def greetingSignature : List UInt8 :=
  [70, 127, 115, 159, 177, 217, 72, 71, 79, 231, 96, 19, 241, 216, 66, 19, 49, 75, 184, 19, 85,
    19, 22, 9, 23, 42, 14, 150, 137, 85, 129, 2, 175, 221, 20, 164, 113, 246, 126, 24, 203, 165,
    51, 20, 179, 220, 74, 199, 40, 155, 208, 230, 4, 175, 30, 179, 189, 26, 174, 181, 29, 70, 62,
    8]

def greetingSignatureText : String :=
  "Rn9zn7HZSEdP52AT8dhCEzFLuBNVExYJFyoOlolVgQKv3RSkcfZ+GMulMxSz3ErHKJvQ5gSvHrO9Gq61HUY+CA=="

/-- The public key of `samplePkcs8`. -/
def alicePublicKey : List UInt8 :=
  [215, 90, 152, 1, 130, 177, 10, 183, 213, 75, 254, 211, 201, 100, 7, 58, 14, 225, 114, 243,
    218, 166, 35, 37, 175, 2, 26, 104, 247, 7, 81, 26]

def alicePem : String :=
  "-----BEGIN PUBLIC KEY-----\n11qYAYKxCrfVS/7TyWQHOg7hcvPapiMlrwIaaPcHURo=\n" ++
    "-----END PUBLIC KEY-----"

def greetingSha256 (body : List UInt8) : String :=
  if body = greetingBody then greetingDigest else sampleDigest body

def bobSha256 : Sha256 where
  hex s := if s = "alice@local.example" then
      "b6cd1b1ccf00d32fba62ef59a62f2b6a8e087307f3278e68b76238a8eb81795b"
    else sampleSha256.hex s
  length_hex s := by
    split
    · decide
    · exact sampleSha256.length_hex s
  digits_hex s := by
    split
    · decide
    · exact sampleSha256.digits_hex s

def aliceWritesBob : RemoteMessage where
  sender := sampleAccount 1 "alice"
  recipientId := "bob"
  serverUrl := "https://remote.example"
  content := "hi"
  new := ⟨aliceKey, 21, 22⟩
  attempt := 30
  now := 0

/-- The server of Alice and the server of Bob. -/
def aliceAndBobPeers : Peers where
  sender := sampleActors
  signing := { sampleSigning with
    digestSha256Base64 := greetingSha256
    ed25519Sign := fun key message =>
      if key = samplePkcs8 ∧ message = greetingCanonical then some greetingSignature else none
    encodeBase64 := fun bytes => if bytes = greetingSignature then greetingSignatureText else ""
    encodeBase64_quotable := fun bytes => by
      split
      · exact ⟨by decide +kernel, by decide +kernel, by decide +kernel⟩
      · exact ⟨by decide, by decide, by decide⟩ }
  receiver := {
    names := ⟨.ascii, fun s =>
      if s = "https://local.example/users/alice" then
        .ok ⟨"https", some "local.example", none, some ["users", "alice"]⟩
      else if s = "https://local.example" then
        .ok ⟨"https", some "local.example", none, some [""]⟩
      else .error "relative URL without a base", bobSha256⟩
    decodeBase64 := fun s =>
      if s = "11qYAYKxCrfVS/7TyWQHOg7hcvPapiMlrwIaaPcHURo=" then .ok alicePublicKey
      else if s = greetingSignatureText then .ok greetingSignature
      else .error "Invalid padding"
    digestSha256Base64 := greetingSha256
    ed25519Verify := fun key message signature =>
      key = alicePublicKey ∧ message = greetingCanonical ∧ signature = greetingSignature
    parseRfc2822 := fun s => if s = samplePostDate then .ok 1424301369 else .error "invalid format"
    parseJson := fun body =>
      if body = greetingBody then
        .ok (createActivity sampleOutbox "alice" 21 22 "hi" [sampleInbox]).2
      else .error "expected value"
    signatureWindowSecs := 300
    keyCacheTtlSecs := 3600
    denylist := [] }
  route url := if url = sampleInbox then .inbox "bob" else .other

def aliceActorKey : FederationActorKey :=
  ⟨20, "alice", "https://local.example/users/alice#main-key", alicePem, samplePkcs8Text⟩

/-- Alice's server, on which she has a key. -/
def serverOfAlice : Server :=
  sampleServer.setDb { sampleServer.db with federationActorKeys := ⟨[aliceActorKey], by decide⟩ }

theorem prepared_aliceWritesBob :
    Prepared aliceAndBobPeers aliceWritesBob serverOfAlice aliceActorKey sampleInbox where
  account := rfl
  key := ⟨serverOfAlice.db, run_ensureActorKeyMaterial_found rfl _⟩
  inbox := by decide +kernel
  pending := ⟨.inr rfl, by decide⟩
  counts r hr := absurd hr List.not_mem_nil

theorem greeting_read : aliceAndBobPeers.receiver.parseJson greetingBody =
    .ok (aliceWritesBob.activity aliceAndBobPeers sampleInbox).2 := by
  simp only [aliceAndBobPeers, if_true]
  rfl

theorem greeting_new : ¬ Recorded (aliceWritesBob.activityId aliceAndBobPeers) sampleServer.db ∧
    ¬ Mapped (aliceWritesBob.activityId aliceAndBobPeers) sampleServer.db := by
  constructor <;> rintro ⟨r, hr, -⟩ <;> exact absurd hr List.not_mem_nil

theorem bobsInbox_visible : ∀ c ∈ "/users/bob/inbox".toList, 32 < c.toNat := by decide

theorem noHeaders_token : ∀ h ∈ ([] : List (String × HeaderValue)), ∀ c ∈ h.1.toList,
    isTokenChar c = true :=
  List.forall_mem_nil _

/-- The greeting without the headers that it is sent with. -/
def unsignedGreeting : InboxCall where
  request := ⟨"POST", "/users/bob/inbox", [], post_token, bobsInbox_visible, noHeaders_token⟩
  username := "bob"
  body := greetingBody
  now := 1424301369
  fetch := ⟨1424301369, .failed "connection refused", 1424301369⟩
  refetch := ⟨1424301369, .failed "connection refused", 1424301369⟩
  new := ⟨11, 12, 13, 14, 1424301369⟩

/-- Without its headers the greeting is refused, and Alice is told so. -/
theorem delivery_agrees_unsigned :
    ((aliceWritesBob.deliver aliceAndBobPeers ((inbox aliceAndBobPeers.receiver
        unsignedGreeting).run sampleServer).1).run serverOfAlice).1 ≠ .ok () ∧
      ((inbox aliceAndBobPeers.receiver unsignedGreeting).run sampleServer).2.db.messages =
        sampleServer.db.messages := by
  obtain ⟨hagree, -, hnot, -⟩ := delivery_agrees aliceAndBobPeers aliceWritesBob aliceActorKey
    sampleInbox serverOfAlice sampleServer unsignedGreeting prepared_aliceWritesBob greeting_read
    (by decide) greeting_new.1 greeting_new.2
  have hsent : ((aliceWritesBob.deliver aliceAndBobPeers ((inbox aliceAndBobPeers.receiver
      unsignedGreeting).run sampleServer).1).run serverOfAlice).1 ≠ .ok () := by
    decide +kernel
  exact ⟨hsent, hnot (fun h => hsent (hagree.mpr h))⟩

end SyncServer.Federation
