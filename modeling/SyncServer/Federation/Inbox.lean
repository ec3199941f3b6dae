import SyncServer.Accounts.ShadowAccount
import SyncServer.Federation.Signature
import SyncServer.Guild.Service

/-! # The inbox

An authenticated request carries an activity. The inbox records it under its id, and
turns a note into a message from the shadow account of the remote person. The
statements are committed one by one, the record first.
-/

namespace SyncServer.Federation
open Transaction Accounts

/-! ## Activities -/

def stringField (key : String) (activity : Json) : Except AppError String :=
  match (activity.get key).bind Json.asStr with
  | some text => .ok text
  | none => .error (.badRequest ("Activity must contain string " ++ key))

/-- `ensure_activity_id`. -/
def ensureActivityId : Json → Except AppError String := stringField "id"

/-- `ensure_activity_type`. -/
def ensureActivityType : Json → Except AppError String := stringField "type"

/-- `ensure_activity_actor`. -/
def ensureActivityActor : Json → Except AppError String := stringField "actor"

/-- `validate_activity_shape`. -/
def validateActivityShape (activity : Json) : Except AppError Unit := do
  let t ← ensureActivityType activity
  require (t ∈ ["Create", "Follow", "Accept"]) ("Unsupported activity type: " ++ t)

/-- `ensure_local_actor_alignment`. -/
def ensureLocalActorAlignment (activityActor actorUrl : String) : Except AppError Unit :=
  if activityActor ≠ actorUrl then .error .unauthorized else .ok ()

structure Activity where
  id : String
  activityType : String
  actor : String
  payload : Json

/-- The checks of `inbox` on the body of an authenticated request. -/
def checkActivity (env : FederationEnv) (body : List UInt8) (actorUrl : String) :
    Except AppError Activity := do
  let payload ← (env.parseJson body).mapError (fun e => .badRequest ("Invalid JSON body: " ++ e))
  validateActivityShape payload
  let id ← ensureActivityId payload
  let activityType ← ensureActivityType payload
  let actor ← ensureActivityActor payload
  ensureLocalActorAlignment actor actorUrl
  pure ⟨id, activityType, actor, payload⟩

theorem checkActivity_ok {env : FederationEnv} {body : List UInt8} {actorUrl : String}
    {activity : Activity} (h : checkActivity env body actorUrl = .ok activity) :
    env.parseJson body = .ok activity.payload ∧
      ensureActivityId activity.payload = .ok activity.id ∧
      ensureActivityType activity.payload = .ok activity.activityType ∧
      ensureActivityActor activity.payload = .ok activity.actor ∧ activity.actor = actorUrl := by
  unfold checkActivity at h
  rcases hp : env.parseJson body with e | payload
  · simp [hp, bind, Except.bind, Except.mapError] at h
  rcases hv : validateActivityShape payload with e | ⟨⟩
  · simp [hp, hv, bind, Except.bind, Except.mapError] at h
  rcases hid : ensureActivityId payload with e | id
  · simp [hp, hv, hid, bind, Except.bind, Except.mapError] at h
  rcases ht : ensureActivityType payload with e | activityType
  · simp [hp, hv, hid, ht, bind, Except.bind, Except.mapError] at h
  rcases ha : ensureActivityActor payload with e | actor
  · simp [hp, hv, hid, ht, ha, bind, Except.bind, Except.mapError] at h
  rcases hl : ensureLocalActorAlignment actor actorUrl with e | ⟨⟩
  · simp [hp, hv, hid, ht, ha, hl, bind, Except.bind, Except.mapError] at h
  simp only [hp, Except.mapError, hv, hid, ht, ha, hl, ok_bind] at h
  cases h
  refine ⟨rfl, hid, ht, ha, ?_⟩
  unfold ensureLocalActorAlignment at hl
  split at hl
  · cases hl
  · rename_i heq
    exact not_not.mp heq

theorem checkActivity_unique {env : FederationEnv} {body : List UInt8} {url url' : String}
    {a a' : Activity} (h : checkActivity env body url = .ok a)
    (h' : checkActivity env body url' = .ok a') : a = a' := by
  obtain ⟨hp, hid, ht, ha, -⟩ := checkActivity_ok h
  obtain ⟨hp', hid', ht', ha', -⟩ := checkActivity_ok h'
  cases a
  cases a'
  simp only at hp hid ht ha hp' hid' ht' ha'
  rw [hp] at hp'
  cases hp'
  rw [hid] at hid'
  cases hid'
  rw [ht] at ht'
  cases ht'
  rw [ha] at ha'
  cases ha'
  rfl

/-- The text of a note and the id that it has. -/
structure Note where
  content : String
  objectId : Option String
deriving DecidableEq, Repr

/-- The note in an activity, if it has a text. -/
def noteOf (payload : Json) : Option Note := do
  let object ← payload.get "object"
  let objectType := ((object.get "type").bind Json.asStr).getD ""
  let content := (((object.get "content").bind Json.asStr).map trim).getD ""
  if objectType ≠ "Note" then none
  else if content = "" then none
  else some ⟨content, (object.get "id").bind Json.asStr⟩

/-! ## The tables of the inbox -/

def addInboxActivity (row : FederationInboxActivity) (s : Db) : Except DbError (Bool × Db) :=
  if s.federationInboxActivities.rows.any (fun r => r.activityId = row.activityId) then
    .ok (false, s)
  else match s.federationInboxActivities.insert row with
    | none => .error .uniqueViolation
    | some t =>
      if s.users.rows.any (fun u => u.username = row.recipientUsername) then
        .ok (true, { s with federationInboxActivities := t })
      else .error .foreignKeyViolation

/-- `record_inbox_activity`. -/
def recordInboxActivity (row : FederationInboxActivity) : Query Bool :=
  Query.exec (fun _ => []) (addInboxActivity row)

def addRemoteMessage (row : FederationRemoteMessage) (s : Db) : Except DbError (Bool × Db) :=
  if s.federationRemoteMessages.rows.any (fun r => r.activityId = row.activityId) then
    .ok (false, s)
  else match s.federationRemoteMessages.insert row with
    | none => .error .uniqueViolation
    | some t =>
      if s.federationInboxActivities.rows.any (fun r => r.activityId = row.activityId) ∧
          s.users.rows.any (fun u => u.username = row.recipientUsername) then
        .ok (true, { s with federationRemoteMessages := t })
      else .error .foreignKeyViolation

/-! ## Messages of remote people -/

/-- `parse_remote_actor_identity`: the id of a remote person and the address of the server. -/
def parseRemoteActorIdentity (env : NameEnv) (actorUrl : String) :
    Except AppError (String × String) :=
  match env.parseUrl actorUrl with
  | .error e => .error (.badRequest ("Invalid actor url: " ++ e))
  | .ok parsed =>
    match parsed.host with
    | none => .error (.badRequest "Remote actor URL missing host")
    | some host =>
      match ((parsed.pathSegments.bind List.getLast?).map trim).filter (· ≠ "") with
      | none => .error (.badRequest "Remote actor URL missing username path")
      | some segment => .ok (env.unicode.toLowercase segment, parsed.scheme ++ "://" ++ host)

/-- The username that the account of a remote person has. -/
def shadowName (env : NameEnv) (actorUrl : String) : Except AppError String := do
  let (remoteUserId, remoteServerUrl) ← parseRemoteActorIdentity env actorUrl
  let id ← normalizeRemoteUserId env remoteUserId
  let host ← normalizeRemoteHost env remoteServerUrl
  pure (federatedShadowUsername id host)

/-- The ids and the time that the rows of a delivery get. -/
structure Minted where
  activityRow : Uuid
  messageRow : Uuid
  shadow : Uuid
  message : Uuid
  createdAt : Int

def sendNote (env : NameEnv) (actor : String) (recipient : User) (note : Note) (new : Minted) :
    Query Message := do
  let (remoteUserId, remoteServerUrl) ← Tx.done (parseRemoteActorIdentity env actor)
  let shadow ← ensureFederatedShadowUser env remoteUserId remoteServerUrl new.shadow
  Guild.insertMessageConn ⟨new.message, shadow.id, recipient.id, note.content, new.createdAt⟩

/-- `map_create_note_to_local_message`, for an activity with a note. -/
def mapNoteToLocalMessage (env : NameEnv) (activityId activityActor recipientUsername : String)
    (note : Note) (new : Minted) : Query (Option Message) := do
  let inserted ← Query.exec (fun _ => []) (addRemoteMessage
    ⟨new.messageRow, activityId, note.objectId, activityActor, recipientUsername, note.content⟩)
  if ¬ inserted then pure none
  else do
    let found ← findByUsername recipientUsername
    let recipient ← Tx.okOr .notFound found
    let localMessage ← sendNote env activityActor recipient note new
    pure (some localMessage)

/-- `map_create_note_to_local_message`. -/
def mapCreateNoteToLocalMessage (env : NameEnv) (activityId activityActor recipientUsername : String)
    (payload : Json) (new : Minted) : Query (Option Message) :=
  match noteOf payload with
  | none => pure none
  | some note => mapNoteToLocalMessage env activityId activityActor recipientUsername note new

/-- The bodies of the answers with status 202. -/
inductive InboxAnswer where
  | duplicate (activityId : String)
  | accepted (activityId : String)
deriving DecidableEq, Repr

structure InboxCall extends InboxRequest where
  new : Minted

/-- The name under which `inbox` looks for the recipient. -/
def InboxCall.recipient (env : FederationEnv) (call : InboxCall) : String :=
  env.names.unicode.toLowercase call.username

def announce : Option Message → Handler Unit
  | none => pure ()
  | some message => do
    send (.publish message.recipientId (.newMessage message))
    send (.push message.recipientId (.newMessage message.senderId message.id message.content))

/-- What `inbox` does with a new activity that creates something. -/
def createMessage (env : FederationEnv) (recipient : String) (activity : Activity) (new : Minted) :
    Handler InboxAnswer := do
  let maybeMessage ← onDb (mapCreateNoteToLocalMessage env.names activity.id activity.actor recipient
    activity.payload new)
  announce maybeMessage
  pure (.accepted activity.id)

/-- What `inbox` does with the activity of an authenticated request. -/
def receive (env : FederationEnv) (recipient : String) (activity : Activity) (new : Minted) :
    Handler InboxAnswer := do
  let inserted ← onDb (recordInboxActivity ⟨new.activityRow, activity.id, activity.actor, recipient,
    activity.activityType, activity.payload⟩)
  if ¬ inserted then pure (.duplicate activity.id)
  else if activity.activityType = "Create" then createMessage env recipient activity new
  else pure (.accepted activity.id)

/-- `inbox`. -/
def inbox (env : FederationEnv) (call : InboxCall) : Handler InboxAnswer := do
  let verified ← authenticate env call.toInboxRequest
  let activity ← Tx.done (checkActivity env call.body verified.actorUrl)
  receive env (call.recipient env) activity call.new

/-! ## What a delivery does -/

/-- The activity has been recorded. -/
def Recorded (activityId : String) (d : Db) : Prop :=
  ∃ r ∈ d.federationInboxActivities.rows, r.activityId = activityId

/-- There is a message of the activity. -/
def Mapped (activityId : String) (d : Db) : Prop :=
  ∃ r ∈ d.federationRemoteMessages.rows, r.activityId = activityId

/-- Nothing stands against the message of a note: its actor has a valid name, the account is
there or may be inserted, and the ids of the new rows are free. -/
structure Deliverable (env : NameEnv) (actor : String) (new : Minted) (d : Db) : Prop where
  account : ∃ username, shadowName env actor = .ok username ∧
    Available env username new.shadow d.users
  messageRow : d.federationRemoteMessages.get new.messageRow = none
  message : d.messages.get new.message = none

theorem shadowName_ok {env : NameEnv} {actorUrl username : String}
    (h : shadowName env actorUrl = .ok username) :
    ∃ remoteUserId remoteServerUrl id host,
      parseRemoteActorIdentity env actorUrl = .ok (remoteUserId, remoteServerUrl) ∧
      normalizeRemoteUserId env remoteUserId = .ok id ∧
      normalizeRemoteHost env remoteServerUrl = .ok host ∧
      username = federatedShadowUsername id host := by
  unfold shadowName at h
  rcases hparse : parseRemoteActorIdentity env actorUrl with e | ⟨remoteUserId, remoteServerUrl⟩
  · rw [hparse] at h
    cases h
  rw [hparse, ok_bind] at h
  rcases hid : normalizeRemoteUserId env remoteUserId with e | id
  · simp only [hid] at h
    cases h
  rcases hhost : normalizeRemoteHost env remoteServerUrl with e | host
  · simp only [hid, hhost] at h
    cases h
  simp only [hid, hhost, ok_bind] at h
  cases h
  exact ⟨_, _, id, host, rfl, hid, hhost, rfl⟩

section
variable {env : NameEnv} {activityId actor recipient : String} {note : Note} {new : Minted}
variable {d : Db} {u : User}

theorem run_insertMessageConn {message : NewMessage} {t : Table Uuid Message Message.id}
    (ht : d.messages.insert message.row = some t) (hs : d.userExists message.senderId)
    (hr : d.userExists message.recipientId) :
    (Guild.insertMessageConn message).run d = (.ok message.row, { d with messages := t }) := by
  refine Query.run_exec_ok.mpr ?_
  simp [ht, hs, hr]

theorem run_insertMessageConn_taken {message : NewMessage}
    (ht : d.messages.insert message.row = none) :
    (Guild.insertMessageConn message).run d = (.error (.database .uniqueViolation), d) := by
  rw [Guild.insertMessageConn, Query.exec, Tx.run_exec_error]
  simp [ht, Except.mapError]

/-- The message of a note is sent, or the account or the id of the message is wanting. -/
theorem run_sendNote (env : NameEnv) (actor : String) (note : Note) (new : Minted)
    (hu : userByUsername recipient d = some u) :
    (∃ username account users messages, shadowName env actor = .ok username ∧
      Available env username new.shadow d.users ∧ HasShadow username account d.users users ∧
      d.messages.insert ⟨new.message, account.id, u.id, note.content, none, new.createdAt⟩ =
        some messages ∧
      (sendNote env actor u note new).run d =
        (.ok ⟨new.message, account.id, u.id, note.content, none, new.createdAt⟩,
          { d with users := users, messages := messages })) ∨
      (¬ ((∃ username, shadowName env actor = .ok username ∧
        Available env username new.shadow d.users) ∧ d.messages.get new.message = none) ∧
        ∃ e users, (sendNote env actor u note new).run d = (.error e, { d with users := users })) := by
  unfold sendNote
  rcases hparse : parseRemoteActorIdentity env actor with e | ⟨remoteUserId, remoteServerUrl⟩
  · refine .inr ⟨?_, e, d.users, rfl⟩
    rintro ⟨⟨username, hname, -⟩, -⟩
    obtain ⟨_, _, _, _, hp, -⟩ := shadowName_ok hname
    rw [hparse] at hp
    cases hp
  rw [Tx.run_bind_ok (Tx.run_done _ _)]
  dsimp only
  rcases hid : normalizeRemoteUserId env remoteUserId with e | id
  · refine .inr ⟨?_, e, d.users, ?_⟩
    · rintro ⟨⟨username, hname, -⟩, -⟩
      obtain ⟨_, _, _, _, hp, hn, -⟩ := shadowName_ok hname
      rw [hparse] at hp
      cases hp
      rw [hid] at hn
      cases hn
    · rw [ensureFederatedShadowUser, hid]
      rfl
  rcases hhost : normalizeRemoteHost env remoteServerUrl with e | host
  · refine .inr ⟨?_, e, d.users, ?_⟩
    · rintro ⟨⟨username, hname, -⟩, -⟩
      obtain ⟨_, _, _, _, hp, -, hn, -⟩ := shadowName_ok hname
      rw [hparse] at hp
      cases hp
      rw [hhost] at hn
      cases hn
    · rw [ensureFederatedShadowUser, hid, hhost]
      rfl
  have hname : shadowName env actor = .ok (federatedShadowUsername id host) := by
    rw [shadowName, hparse, ok_bind]
    simp only [hid, hhost, ok_bind]
    rfl
  have hensure := run_ensureShadow hid hhost new.shadow d
  by_cases ha : Available env (federatedShadowUsername id host) new.shadow d.users
  · obtain ⟨account, users, hacc, hshadow⟩ := shadowAccount_ok ha
    rw [hacc] at hensure
    rw [Tx.run_bind_ok hensure]
    rcases hins : d.messages.insert (NewMessage.row
        ⟨new.message, account.id, u.id, note.content, new.createdAt⟩) with _ | messages
    · refine .inr ⟨?_, _, users, run_insertMessageConn_taken hins⟩
      rintro ⟨-, hfree⟩
      have hsome : (d.messages.get new.message).isSome := Table.insert_eq_none.mp hins
      rw [hfree] at hsome
      cases hsome
    · refine .inl ⟨_, account, users, messages, hname, ha, hshadow, hins, ?_⟩
      have hrecipient : users.get u.id = some u := by
        apply hshadow.old
        exact Table.get_eq_some.mpr ⟨List.mem_of_find?_eq_some hu, rfl⟩
      exact run_insertMessageConn hins (by simp [Db.userExists, hshadow.get])
        (by simp [Db.userExists, hrecipient])
  · obtain ⟨e, hacc⟩ := shadowAccount_error ha
    rw [hacc] at hensure
    rw [Tx.run_bind_error hensure]
    refine .inr ⟨?_, e, d.users, rfl⟩
    rintro ⟨⟨username, hn, hav⟩, -⟩
    rw [hname] at hn
    cases hn
    exact ha hav

theorem addRemoteMessage_fresh {row : FederationRemoteMessage}
    {t : Table Uuid FederationRemoteMessage FederationRemoteMessage.id}
    (hm : ¬ Mapped row.activityId d) (hrec : Recorded row.activityId d)
    (hu : userByUsername row.recipientUsername d = some u)
    (ht : d.federationRemoteMessages.insert row = some t) :
    addRemoteMessage row d = .ok (true, { d with federationRemoteMessages := t }) := by
  have hmapped : ¬ (d.federationRemoteMessages.rows.any (fun r => r.activityId = row.activityId)) := by
    simpa [Mapped] using hm
  have hexists : d.users.rows.any (fun u => u.username = row.recipientUsername) := by
    have hname : u.username = row.recipientUsername := by simpa using List.find?_some hu
    simpa using ⟨u, List.mem_of_find?_eq_some hu, hname⟩
  have hrecorded : d.federationInboxActivities.rows.any (fun r => r.activityId = row.activityId) := by
    simpa [Recorded] using hrec
  simp only [addRemoteMessage, hmapped, Bool.false_eq_true, if_false, ht, hrecorded, hexists,
    and_self, if_true]

theorem addRemoteMessage_taken {row : FederationRemoteMessage} (hm : ¬ Mapped row.activityId d)
    (ht : d.federationRemoteMessages.insert row = none) :
    addRemoteMessage row d = .error .uniqueViolation := by
  have hmapped : ¬ (d.federationRemoteMessages.rows.any (fun r => r.activityId = row.activityId)) := by
    simpa [Mapped] using hm
  simp only [addRemoteMessage, hmapped, Bool.false_eq_true, if_false, ht]

/-- A recorded note that has no message yet is delivered, or fails half way. -/
theorem run_mapNote (env : NameEnv) (actor : String) (note : Note) (new : Minted)
    (hrec : Recorded activityId d) (hm : ¬ Mapped activityId d)
    (hu : userByUsername recipient d = some u) :
    (Deliverable env actor new d ∧ ∃ username account users remote messages,
      shadowName env actor = .ok username ∧ HasShadow username account d.users users ∧
      d.federationRemoteMessages.insert
        ⟨new.messageRow, activityId, note.objectId, actor, recipient, note.content⟩ = some remote ∧
      d.messages.insert ⟨new.message, account.id, u.id, note.content, none, new.createdAt⟩ =
        some messages ∧
      (mapNoteToLocalMessage env activityId actor recipient note new).run d =
        (.ok (some ⟨new.message, account.id, u.id, note.content, none, new.createdAt⟩),
          { d with users := users, federationRemoteMessages := remote, messages := messages })) ∨
      (¬ Deliverable env actor new d ∧ ∃ e users remote,
        (mapNoteToLocalMessage env activityId actor recipient note new).run d =
          (.error e, { d with users := users, federationRemoteMessages := remote })) := by
  unfold mapNoteToLocalMessage
  rcases ht : d.federationRemoteMessages.insert
      ⟨new.messageRow, activityId, note.objectId, actor, recipient, note.content⟩ with _ | remote
  · have hsome : (d.federationRemoteMessages.get new.messageRow).isSome := Table.insert_eq_none.mp ht
    refine .inr ⟨?_, .database .uniqueViolation, d.users, d.federationRemoteMessages, ?_⟩
    · intro h
      rw [h.messageRow] at hsome
      cases hsome
    · exact Tx.run_bind_error (Query.run_exec_error (addRemoteMessage_taken hm ht)) _
  have hadd : (Query.exec (fun _ => []) (addRemoteMessage ⟨new.messageRow, activityId, note.objectId,
      actor, recipient, note.content⟩)).run d = _ :=
    Query.run_exec_ok.mpr (addRemoteMessage_fresh hm hrec hu ht)
  have hfree : d.federationRemoteMessages.get new.messageRow = none :=
    Table.get_eq_none_of_insert ht
  have hfound : userByUsername recipient { d with federationRemoteMessages := remote } = some u := hu
  rw [Tx.run_bind_ok hadd, if_neg (by simp)]
  simp only [findByUsername, Tx.run_bind_ok (Tx.run_query _ _), hfound, Tx.okOr]
  rw [Tx.run_bind_ok (Tx.run_pure _ _)]
  rcases run_sendNote env actor note new hfound with
    ⟨username, account, users, messages, hname, ha, hshadow, hmsg, hrun⟩ | ⟨hnot, e, users, hrun⟩
  · refine .inl ⟨⟨⟨username, hname, ha⟩, hfree, Table.get_eq_none_of_insert hmsg⟩, username, account,
      users, remote, messages, hname, hshadow, rfl, hmsg, ?_⟩
    rw [Tx.run_bind_ok hrun]
    rfl
  · refine .inr ⟨fun h => hnot ⟨h.account, h.message⟩, e, users, remote, ?_⟩
    rw [Tx.run_bind_error hrun]

end

/-- What `receive` may come to. -/
inductive Receipt (env : NameEnv) (recipient : String) (activity : Activity) (new : Minted)
    (s : Server) : Except AppError InboxAnswer × Server → Prop
  | duplicate (recorded : Recorded activity.id s.db) :
    Receipt env recipient activity new s (.ok (.duplicate activity.id), s)
  | refused (error : AppError) (fresh : ¬ Recorded activity.id s.db)
    (taken : (s.db.federationInboxActivities.get new.activityRow).isSome) :
    Receipt env recipient activity new s (.error error, s)
  | noted (t : Table Uuid FederationInboxActivity FederationInboxActivity.id)
    (fresh : ¬ Recorded activity.id s.db)
    (inserted : s.db.federationInboxActivities.insert ⟨new.activityRow, activity.id, activity.actor,
      recipient, activity.activityType, activity.payload⟩ = some t)
    (silent : activity.activityType ≠ "Create" ∨ noteOf activity.payload = none ∨
      Mapped activity.id s.db) :
    Receipt env recipient activity new s (.ok (.accepted activity.id),
      s.setDb { s.db with federationInboxActivities := t })
  | delivered (t : Table Uuid FederationInboxActivity FederationInboxActivity.id) (note : Note)
    (user account : User) (username : String) (users : Table Uuid User User.id)
    (remote : Table Uuid FederationRemoteMessage FederationRemoteMessage.id)
    (messages : Table Uuid Message Message.id) (message : Message)
    (fresh : ¬ Recorded activity.id s.db)
    (inserted : s.db.federationInboxActivities.insert ⟨new.activityRow, activity.id, activity.actor,
      recipient, activity.activityType, activity.payload⟩ = some t)
    (create : activity.activityType = "Create") (isNote : noteOf activity.payload = some note)
    (unmapped : ¬ Mapped activity.id s.db) (deliverable : Deliverable env activity.actor new s.db)
    (found : userByUsername recipient s.db = some user)
    (name : shadowName env activity.actor = .ok username)
    (shadow : HasShadow username account s.db.users users)
    (mapped : s.db.federationRemoteMessages.insert ⟨new.messageRow, activity.id, note.objectId,
      activity.actor, recipient, note.content⟩ = some remote)
    (isMessage : message = ⟨new.message, account.id, user.id, note.content, none, new.createdAt⟩)
    (stored : s.db.messages.insert message = some messages) :
    Receipt env recipient activity new s (.ok (.accepted activity.id),
      { s with
        db := { s.db with
          federationInboxActivities := t
          users := users
          federationRemoteMessages := remote
          messages := messages }
        sent := s.sent ++ [.publish message.recipientId (.newMessage message)] ++
          [.push message.recipientId (.newMessage message.senderId message.id message.content)] })
  | stuck (error : AppError) (t : Table Uuid FederationInboxActivity FederationInboxActivity.id)
    (note : Note) (users : Table Uuid User User.id)
    (remote : Table Uuid FederationRemoteMessage FederationRemoteMessage.id)
    (fresh : ¬ Recorded activity.id s.db)
    (inserted : s.db.federationInboxActivities.insert ⟨new.activityRow, activity.id, activity.actor,
      recipient, activity.activityType, activity.payload⟩ = some t)
    (create : activity.activityType = "Create") (isNote : noteOf activity.payload = some note)
    (unmapped : ¬ Mapped activity.id s.db)
    (undeliverable : ¬ Deliverable env activity.actor new s.db) :
    Receipt env recipient activity new s (.error error,
      s.setDb { s.db with
        federationInboxActivities := t
        users := users
        federationRemoteMessages := remote })

theorem addInboxActivity_cases (row : FederationInboxActivity) (d : Db)
    (hu : ∃ u, userByUsername row.recipientUsername d = some u) :
    (Recorded row.activityId d ∧ addInboxActivity row d = .ok (false, d)) ∨
      (¬ Recorded row.activityId d ∧ d.federationInboxActivities.insert row = none ∧
        addInboxActivity row d = .error .uniqueViolation) ∨
      (¬ Recorded row.activityId d ∧ ∃ t, d.federationInboxActivities.insert row = some t ∧
        addInboxActivity row d = .ok (true, { d with federationInboxActivities := t })) := by
  have hrecorded : d.federationInboxActivities.rows.any (fun r => r.activityId = row.activityId) ↔
      Recorded row.activityId d := by
    simp [Recorded]
  have hexists : d.users.rows.any (fun u => u.username = row.recipientUsername) := by
    obtain ⟨u, hu⟩ := hu
    have hname : u.username = row.recipientUsername := by simpa using List.find?_some hu
    simpa using ⟨u, List.mem_of_find?_eq_some hu, hname⟩
  unfold addInboxActivity
  by_cases hrec : Recorded row.activityId d
  · exact .inl ⟨hrec, if_pos (hrecorded.mpr hrec)⟩
  rw [if_neg (fun h => hrec (hrecorded.mp h))]
  rcases ht : d.federationInboxActivities.insert row with _ | t
  · exact .inr (.inl ⟨hrec, rfl, rfl⟩)
  · refine .inr (.inr ⟨hrec, t, rfl, ?_⟩)
    simp only [hexists, if_true]

theorem recorded_of_insert {d : Db} {row : FederationInboxActivity}
    {t : Table Uuid FederationInboxActivity FederationInboxActivity.id}
    (h : d.federationInboxActivities.insert row = some t) :
    Recorded row.activityId { d with federationInboxActivities := t } :=
  ⟨row, by simp [Table.rows_of_insert h], rfl⟩

theorem run_mapNote_mapped (env : NameEnv) {activityId : String} (actor recipient : String)
    (note : Note) (new : Minted) {d : Db} (hm : Mapped activityId d) :
    (mapNoteToLocalMessage env activityId actor recipient note new).run d = (.ok none, d) := by
  have hmapped : d.federationRemoteMessages.rows.any (fun r => r.activityId = activityId) := by
    simpa [Mapped] using hm
  have hadd : addRemoteMessage ⟨new.messageRow, activityId, note.objectId, actor, recipient,
      note.content⟩ d = .ok (false, d) := if_pos hmapped
  rw [mapNoteToLocalMessage, Tx.run_bind_ok (Query.run_exec_ok.mpr hadd)]
  rfl

/-- The activity has just been recorded, and it creates something. -/
theorem receive_create {env : FederationEnv} {recipient : String} {activity : Activity}
    {new : Minted} {s : Server} {t : Table Uuid FederationInboxActivity FederationInboxActivity.id}
    (hrec : ¬ Recorded activity.id s.db)
    (ht : s.db.federationInboxActivities.insert ⟨new.activityRow, activity.id, activity.actor,
      recipient, activity.activityType, activity.payload⟩ = some t)
    (hc : activity.activityType = "Create") (hu : ∃ u, userByUsername recipient s.db = some u) :
    Receipt env.names recipient activity new s
      ((createMessage env recipient activity new).run
        (s.setDb { s.db with federationInboxActivities := t })) := by
  obtain ⟨user, hu⟩ := hu
  unfold createMessage mapCreateNoteToLocalMessage
  rcases hn : noteOf activity.payload with _ | note
  · exact .noted t hrec ht (.inr (.inl hn))
  dsimp only
  by_cases hm : Mapped activity.id s.db
  · have hrun := run_onDb_eq (s := s.setDb { s.db with federationInboxActivities := t })
      (run_mapNote_mapped env.names activity.actor recipient note new hm)
    rw [Tx.run_bind_ok hrun]
    exact .noted t hrec ht (.inr (.inr hm))
  rcases run_mapNote env.names activity.actor note new
      (d := { s.db with federationInboxActivities := t }) (recorded_of_insert ht) hm hu with
    ⟨hd, username, account, users, remote, messages, hname, hshadow, hremote, hmsg, hrun⟩ |
      ⟨hd, e, users, remote, hrun⟩
  · have hrun' := run_onDb_eq (s := s.setDb { s.db with federationInboxActivities := t }) hrun
    rw [Tx.run_bind_ok hrun']
    exact .delivered t note user account username users remote messages _ hrec ht hc hn hm
      ⟨hd.account, hd.messageRow, hd.message⟩ hu hname hshadow hremote rfl hmsg
  · have hrun' := run_onDb_eq (s := s.setDb { s.db with federationInboxActivities := t }) hrun
    rw [Tx.run_bind_error hrun']
    exact .stuck e t note users remote hrec ht hc hn hm
      (fun h => hd ⟨h.account, h.messageRow, h.message⟩)

theorem receive_cases (env : FederationEnv) {recipient : String} (activity : Activity) (new : Minted)
    (s : Server) (hu : ∃ u, userByUsername recipient s.db = some u) :
    Receipt env.names recipient activity new s ((receive env recipient activity new).run s) := by
  unfold receive recordInboxActivity
  rcases addInboxActivity_cases ⟨new.activityRow, activity.id, activity.actor, recipient,
    activity.activityType, activity.payload⟩ s.db hu with
    ⟨hrec, hadd⟩ | ⟨hrec, ht, hadd⟩ | ⟨hrec, t, ht, hadd⟩
  · rw [Tx.run_bind_ok (run_onDb_eq (Query.run_exec_ok.mpr hadd))]
    exact .duplicate hrec
  · rw [Tx.run_bind_error (run_onDb_eq (Query.run_exec_error hadd))]
    exact .refused _ hrec (Table.insert_eq_none.mp ht)
  · rw [Tx.run_bind_ok (run_onDb_eq (Query.run_exec_ok.mpr hadd))]
    simp only [not_true_eq_false, if_false]
    by_cases hc : activity.activityType = "Create"
    · rw [if_pos hc]
      exact receive_create hrec ht hc hu
    · rw [if_neg hc]
      exact .noted t hrec ht (.inl hc)

/-! ## Requests -/

def Server.store (s : Server) : Db × List Outgoing := (s.db, s.sent)

theorem keeps_rememberKey (actorUrl pem : String) (fetchedAt : Int) :
    (Tx.exec (fun _ => []) (fun s => .ok ((), rememberKey actorUrl ⟨pem, fetchedAt⟩ s)) :
      Handler Unit).Keeps Server.store :=
  Tx.writes_exec (fun _ => rfl) _

theorem keeps_forgetKey (actorUrl : String) :
    (Tx.exec (fun _ => []) (fun s => .ok ((), forgetKey actorUrl s)) : Handler Unit).Keeps
      Server.store :=
  Tx.writes_exec (fun _ => rfl) _

theorem keeps_fetchActorPublicKey (env : FederationEnv) (actorUrl : String) (fetch : KeyFetch)
    (force : Bool) : (fetchActorPublicKey env actorUrl fetch force).Keeps Server.store := by
  refine Tx.keeps_bind (Tx.keeps_query _ _) (fun cached => ?_)
  split
  · trivial
  · refine Tx.keeps_bind (Tx.keeps_done _ _) (fun pem => ?_)
    exact Tx.keeps_bind (keeps_rememberKey _ _ _) (fun _ => trivial)

theorem keeps_authenticate (env : FederationEnv) (r : InboxRequest) :
    (authenticate env r).Keeps Server.store := by
  refine Tx.keeps_bind (Tx.keeps_done _ _) (fun _ => ?_)
  refine Tx.keeps_bind ⟨fun _ => rfl, fun _ => trivial⟩ (fun found => ?_)
  split
  · trivial
  refine Tx.keeps_bind (Tx.keeps_done _ _) (fun checked => ?_)
  refine Tx.keeps_bind (Tx.keeps_done _ _) (fun canonical => ?_)
  refine Tx.keeps_bind ?_ (fun _ => trivial)
  refine Tx.keeps_bind (keeps_fetchActorPublicKey _ _ _ _) (fun pem => ?_)
  split
  · trivial
  · refine Tx.keeps_bind (keeps_forgetKey _) (fun _ => ?_)
    refine Tx.keeps_bind (keeps_fetchActorPublicKey _ _ _ _) (fun fresh => ?_)
    exact Tx.keeps_bind (Tx.keeps_done _ _) (fun _ => trivial)

theorem authenticate_recipient {env : FederationEnv} {r : InboxRequest} {s s' : Server} {v : Verified}
    (h : (authenticate env r).run s = (.ok v, s')) :
    ∃ u, userByUsername (env.names.unicode.toLowercase r.username) s.db = some u := by
  obtain ⟨⟨⟩, s₁, hsize, h₁⟩ := Tx.run_bind_eq_ok h
  obtain ⟨found, s₂, hfound, h₂⟩ := Tx.run_bind_eq_ok h₁
  have hs₁ : s₁ = s := (Prod.mk.inj hsize).2.symm
  subst hs₁
  split at h₂
  · cases h₂
  rename_i hyes
  rw [run_onDb] at hfound
  have hany : s₁.db.users.rows.any
      (fun u => u.username = env.names.unicode.toLowercase r.username) = found :=
    Except.ok.inj (Prod.mk.inj hfound).1
  rw [← hany, not_not] at hyes
  rw [← Option.isSome_iff_exists, userByUsername, List.find?_isSome]
  simpa using hyes

/-- The request is authenticated and carries a good activity. -/
def Carries (env : FederationEnv) (call : InboxCall) (s : Server) (activity : Activity) : Prop :=
  ∃ v s₁, (authenticate env call.toInboxRequest).run s = (.ok v, s₁) ∧
    checkActivity env call.body v.actorUrl = .ok activity

theorem run_inbox {env : FederationEnv} (call : InboxCall) {s s₁ : Server} {v : Verified}
    {activity : Activity} (hauth : (authenticate env call.toInboxRequest).run s = (.ok v, s₁))
    (hcheck : checkActivity env call.body v.actorUrl = .ok activity) :
    (inbox env call).run s = (receive env (call.recipient env) activity call.new).run s₁ := by
  rw [inbox, Tx.run_bind_ok hauth, hcheck, Tx.run_bind_ok (Tx.run_done _ _)]

theorem Carries.unique {env : FederationEnv} {call : InboxCall} {s : Server} {a a' : Activity}
    (h : Carries env call s a) (h' : Carries env call s a') : a = a' := by
  obtain ⟨v, s₁, hauth, hcheck⟩ := h
  obtain ⟨v', s₁', hauth', hcheck'⟩ := h'
  rw [hauth] at hauth'
  cases hauth'
  rw [hcheck] at hcheck'
  exact Except.ok.inj hcheck'

/-- A request fails before anything is recorded, or its activity is received. -/
theorem inbox_cases (env : FederationEnv) (call : InboxCall) (s : Server) :
    ((¬ ∃ activity, Carries env call s activity) ∧
      ∃ e s', (inbox env call).run s = (.error e, s') ∧ Server.store s' = Server.store s) ∨
      ∃ activity s₁, Carries env call s activity ∧ Server.store s₁ = Server.store s ∧
        Receipt env.names (call.recipient env) activity call.new s₁ ((inbox env call).run s) := by
  have hkeep := (keeps_authenticate env call.toInboxRequest).run s
  rcases hauth : (authenticate env call.toInboxRequest).run s with ⟨e | v, s₁⟩
  · rw [hauth] at hkeep
    refine .inl ⟨?_, e, s₁, Tx.run_bind_error hauth _, hkeep⟩
    rintro ⟨activity, v, s₂, hok, -⟩
    rw [hauth] at hok
    cases hok
  rw [hauth] at hkeep
  rw [inbox, Tx.run_bind_ok hauth]
  rcases hcheck : checkActivity env call.body v.actorUrl with e | activity
  · refine .inl ⟨?_, e, s₁, rfl, hkeep⟩
    rintro ⟨activity, v', s₂, hok, hc⟩
    rw [hauth] at hok
    cases hok
    rw [hcheck] at hc
    cases hc
  · refine .inr ⟨activity, s₁, ⟨v, s₁, hauth, hcheck⟩, hkeep, ?_⟩
    have hdb : s₁.db = s.db := congrArg Prod.fst hkeep
    rw [Tx.run_bind_ok (Tx.run_done _ _)]
    exact receive_cases env activity call.new s₁ (hdb ▸ authenticate_recipient hauth)

end SyncServer.Federation
