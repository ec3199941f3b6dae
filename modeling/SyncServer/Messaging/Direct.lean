import SyncServer.Accounts.ShadowAccount
import SyncServer.Federation.Outbox
import SyncServer.Guild.Rows
import SyncServer.Moderation.Gate

/-! # Direct messages

`POST /api/messages`: the recipient is a local user, or somebody on another server who has a
shadow account. The message is stored for both, and in the second case also sent.
-/

namespace SyncServer.Messaging
open Transaction Accounts Moderation

structure MessageEnv where
  outbox : Federation.OutboxEnv
  guild : Guild.Env
  parseUuid : String → Option Uuid

/-! ## Names of servers -/

/-- `instance_host`. -/
def instanceHost (env : NameEnv) (instanceDomain : String) : String :=
  match env.parseUrl instanceDomain with
  | .ok ⟨_, some host, _, _⟩ => env.unicode.toLowercase host
  | _ => env.unicode.toLowercase ((splitChar ':' instanceDomain).headD instanceDomain)

/-- `normalize_server_url`. -/
def normalizeServerUrl (env : NameEnv) (raw : String) : Except AppError Url :=
  match env.parseUrl (trim raw) with
  | .error e => .error (.badRequest ("Invalid recipient_server_url: " ++ e))
  | .ok parsed =>
    if parsed.host.isNone then .error (.badRequest "recipient_server_url must include host")
    else .ok parsed

/-- `canonical_server_url`. -/
def canonicalServerUrl (url : Url) : String :=
  match url.port with
  | some port => url.scheme ++ "://" ++ url.host.getD "" ++ ":" ++ toString port
  | none => url.scheme ++ "://" ++ url.host.getD ""

/-- `parse_local_uuid`. -/
def parseLocalUuid (env : MessageEnv) (raw : String) : Except AppError Uuid :=
  match env.parseUuid (trim raw) with
  | some id => .ok id
  | none => .error (.badRequest "recipient_id must be a UUID for local chats")

/-! ## The handler -/

/-- What a message takes from outside: the time, the ids of new rows, and what comes of its
delivery to another server. -/
structure MintedMessage where
  now : Int
  shadow : Uuid
  message : Uuid
  audit : Uuid
  limitAudit : Uuid
  activity : Federation.MintedActivity
  attempt : Federation.Attempt
deriving DecidableEq, Repr

structure SendMessageCall where
  senderId : Uuid
  recipientId : String
  recipientServerUrl : Option String
  content : String
  new : MintedMessage
deriving DecidableEq, Repr

inductive SendMessageAnswer where
  | created (message : Message)
  | limited (guild : Guild.GuildSnapshot) (retryAfterSeconds : Int)
deriving DecidableEq, Repr

def explicitRemoteTarget (env : MessageEnv) (call : SendMessageCall) :
    Except AppError (Option (String × String)) :=
  match call.recipientServerUrl.filter (fun raw => trim raw ≠ "") with
  | none => .ok none
  | some raw => do
    let parsed ← normalizeServerUrl env.outbox.names raw
    pure (some (canonicalServerUrl parsed,
      env.outbox.names.unicode.toLowercase (parsed.host.getD "")))

def localRecipient (env : MessageEnv) (recipientId : String) : Query User := do
  let localId ← Tx.done (parseLocalUuid env recipientId)
  let found ← findById localId
  Tx.okOr .notFound found

def recipientOf (env : MessageEnv) (recipientId : String) (target : Option (String × String))
    (shadow : Uuid) : Query User :=
  match target with
  | some (remoteServerUrl, remoteHost) =>
    if remoteHost = instanceHost env.outbox.names env.outbox.instanceDomain then
      localRecipient env recipientId
    else ensureFederatedShadowUser env.outbox.names recipientId remoteServerUrl shadow
  | none => localRecipient env recipientId

def resolveRecipient (env : MessageEnv) (call : SendMessageCall) : Query User := do
  Tx.done (require (trim call.content ≠ "") "Message content cannot be empty")
  let target ← Tx.done (explicitRemoteTarget env call)
  let recipientId := env.outbox.names.unicode.toLowercase (trim call.recipientId)
  Tx.done (require (recipientId ≠ "") "recipient_id cannot be empty")
  recipientOf env recipientId target call.new.shadow

/-- `publish_new_message_event`. -/
def publishNewMessageEvent (senderId recipientId : Uuid) (message : Message) : Handler Unit := do
  send (.publish recipientId (.newMessage message))
  send (.publish senderId (.newMessage message))

def deliverMessage (env : MessageEnv) (call : SendMessageCall) (recipient : User)
    (message : Message) : Handler Unit :=
  match federatedIdentityForUser recipient with
  | some target =>
    let serverUrl := ((call.recipientServerUrl.map trim).filter (· ≠ "")).getD
      ("https://" ++ target.remoteHost)
    Federation.deliverDirectMessageToRemote env.outbox call.senderId target.remoteUserId serverUrl
      message.content call.new.activity call.new.attempt
  | none => send (.push message.recipientId
      (.newMessage message.senderId message.id message.content))

def limitLog (call : SendMessageCall) (recipient : Uuid) (guild : Guild.GuildSnapshot)
    (retryAfterSeconds : Int) : AdminAuditLog where
  id := call.new.limitAudit
  actorUserId := some call.senderId
  action := "guild.blocked_action.outbound_message_limit"
  target := some (uuidString recipient)
  details := Json.ofFields [
    ("retry_after_seconds", Json.ofInt retryAfterSeconds),
    ("level", Json.ofInt guild.level),
    ("rank", .string guild.rank),
    ("daily_outbound_messages_limit",
      Json.ofOption (guild.dailyOutboundMessagesLimit.map Json.ofInt)),
    ("daily_outbound_messages_sent", Json.ofInt guild.dailyOutboundMessagesSent)]

/-- The message to the recipient, for `send_message_with_guild`. -/
def messageTo (call : SendMessageCall) (recipient : Uuid) : NewMessage :=
  ⟨call.new.message, call.senderId, recipient, trim call.content, call.new.now⟩

def sendTo (env : MessageEnv) (call : SendMessageCall) (recipient : User) :
    Handler SendMessageAnswer := do
  let result ← onDb (Guild.sendMessageWithGuild env.guild (messageTo call recipient.id)
    call.new.now call.new.audit).asStatement
  match result with
  | .limited guild retryAfterSeconds => do
    onDb (Guild.insertAuditLog (limitLog call recipient.id guild retryAfterSeconds))
    pure (.limited guild retryAfterSeconds)
  | .sent message => do
    publishNewMessageEvent call.senderId recipient.id message
    deliverMessage env call recipient message
    pure (.created message)

/-- `POST /api/messages`. -/
def sendMessage (env : MessageEnv) (call : SendMessageCall) : Handler SendMessageAnswer := do
  let recipient ← onDb (resolveRecipient env call)
  onDb (ensureDirectMessageAllowed call.senderId recipient.id call.new.now)
  sendTo env call recipient

/-! ## Parts of the handler -/

theorem keeps_localRecipient {τ : Type} {π : Db → τ} (env : MessageEnv) (recipientId : String) :
    (localRecipient env recipientId).Keeps π := by
  apply Tx.keeps_bind (Tx.keeps_done _ _)
  intro localId
  exact Tx.keeps_bind (Tx.keeps_query _ _) (fun found => Tx.keeps_okOr _ _ found)

theorem keeps_resolveRecipient {τ : Type} {π : Db → τ}
    (hπ : ∀ s t, π { s with users := t } = π s) (env : MessageEnv) (call : SendMessageCall) :
    (resolveRecipient env call).Keeps π := by
  apply Tx.keeps_bind (Tx.keeps_done _ _)
  intro _
  apply Tx.keeps_bind (Tx.keeps_done _ _)
  intro target
  apply Tx.keeps_bind (Tx.keeps_done _ _)
  intro _
  unfold recipientOf
  split
  · split
    · exact keeps_localRecipient _ _
    · exact keeps_ensureFederatedShadowUser hπ _ _ _ _
  · exact keeps_localRecipient _ _

-- What is known of it is proved above; to unfold it means to compare strings.
attribute [irreducible] resolveRecipient

end SyncServer.Messaging
