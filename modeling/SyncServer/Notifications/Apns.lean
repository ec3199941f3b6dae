import SyncServer.Base.Http
import SyncServer.Base.Json
import SyncServer.Notifications.Tokens

/-! # Apple's push service

A push is a request for one token. The requests are made one after another, and the answers of
the service decide how far a list of tokens is served.
-/

namespace SyncServer.Notifications
open Transaction

inductive PushDeliveryMode where
  | relay
  | direct
  | hybrid
deriving DecidableEq, Repr

/-- What the configuration says about pushes. -/
structure PushConfig where
  apnsTeamId : Option String
  apnsKeyId : Option String
  apnsBundleId : Option String
  apnsPrivateKeyP8 : Option String
  apnsUseSandbox : Bool
  pushDeliveryMode : PushDeliveryMode
  pushRelaySharedSecret : Option String
deriving DecidableEq, Repr

structure ApnsConfig where
  teamId : String
  keyId : String
  bundleId : String
  privateKeyPem : String
  useSandbox : Bool
deriving DecidableEq, Repr

/-- The libraries, and the texts of their errors. `encodeJwt` makes the token for a key id and a
team, issued at the moment; `debug` is `Debug` of an error, and `causeText` the text of the error
that it was made of. -/
structure PushEnv where
  unicode : Unicode
  decodeBase64 : String → Except String (List UInt8)
  utf8Error : List UInt8 → String
  ecKeyFromPem : String → Except String String
  encodeJwt : String → String → String → Except String String
  statusText : Nat → String
  debug : AppError → String
  causeText : AppError → String
  parseJson : String → Option Json

/-! ## The configuration -/

/-- `str::replace` of a written line feed by a line feed. -/
def unescapeNewlines : List Char → List Char
  | '\\' :: 'n' :: rest => '\n' :: unescapeNewlines rest
  | c :: rest => c :: unescapeNewlines rest
  | [] => []

/-- `normalize_apns_private_key`. -/
def normalizeApnsPrivateKey (env : PushEnv) (raw : String) : Except AppError String :=
  let trimmed := trim raw
  if containsText trimmed "-----BEGIN" then .ok (String.ofList (unescapeNewlines trimmed.toList))
  else do
    let decoded ← (env.decodeBase64 trimmed).mapError
      (fun e => .badRequest ("Invalid APNS_PRIVATE_KEY_P8 base64: " ++ e))
    match String.fromUTF8? ⟨decoded.toArray⟩ with
    | some text => .ok (String.ofList (unescapeNewlines text.toList))
    | none => .error (.badRequest ("Invalid APNS_PRIVATE_KEY_P8 UTF-8: " ++ env.utf8Error decoded))

/-- `parse_apns_config`. -/
def parseApnsConfig (env : PushEnv) (cfg : PushConfig) : Option ApnsConfig := do
  let teamId ← cfg.apnsTeamId.map trim
  let keyId ← cfg.apnsKeyId.map trim
  let bundleId ← cfg.apnsBundleId.map trim
  let privateKeyRaw ← cfg.apnsPrivateKeyP8.map trim
  if teamId = "" ∨ keyId = "" ∨ bundleId = "" ∨ privateKeyRaw = "" then none
  else do
    let privateKeyPem ← (normalizeApnsPrivateKey env privateKeyRaw).toOption
    some ⟨teamId, keyId, bundleId, privateKeyPem, cfg.apnsUseSandbox⟩

/-- `make_apns_jwt`. -/
def makeApnsJwt (env : PushEnv) (cfg : ApnsConfig) : Except AppError String := do
  let key ← (env.ecKeyFromPem cfg.privateKeyPem).mapError
    (fun e => .internal ("Invalid APNs private key: " ++ e))
  (env.encodeJwt cfg.keyId cfg.teamId key).mapError
    (fun e => .internal ("Failed to encode APNs JWT: " ++ e))

/-- With this configuration requests can be made. -/
def PushConfig.usable (env : PushEnv) (cfg : PushConfig) : Bool :=
  (parseApnsConfig env cfg).any (fun apns => (makeApnsJwt env apns).isOk)

/-! ## Pushes -/

/-- The header `apns-push-type`. -/
inductive PushType where
  | alert
  | voip
deriving DecidableEq, Repr

inductive ApnsPayload where
  | message (body : String) (messageId senderId recipientId : Uuid)
  | call (body : String) (callId callerId calleeId : Uuid) (callType : String)
  | voipCall (callId callerId : Uuid) (callerDisplayName : String) (calleeId : Uuid)
      (callType : String)
deriving DecidableEq, Repr

/-- A request to the push service. -/
structure ApnsPush where
  baseUrl : String
  token : String
  authorization : String
  topic : String
  pushType : PushType
  payload : ApnsPayload
deriving DecidableEq, Repr

def ApnsPush.url (push : ApnsPush) : String := push.baseUrl ++ "/3/device/" ++ push.token

/-- The answer to a request, or the error of the client in its two forms. -/
inductive ApnsReply where
  | answered (status : Nat) (body : String)
  | failed (error debug : String)
deriving DecidableEq, Repr

/-- A target of a push as it stands in the payload for a relay. -/
structure PushTarget where
  platform : String
  token : String
  tokenKind : String
deriving DecidableEq, Repr

/-- The payloads of `push_dispatch_service`, as a relay reads them: what one of them lacks is
absent. -/
structure RelayPayload where
  event : String
  recipientId : Option Uuid
  senderId : Option Uuid
  messageId : Option Uuid
  messagePreview : Option String
  callerId : Option Uuid
  callerDisplayName : Option String
  callId : Option Uuid
  callType : Option String
  targets : List PushTarget
deriving DecidableEq, Repr

/-- A request to the relay. -/
structure WebhookPost where
  url : String
  secret : Option String
  payload : RelayPayload
deriving DecidableEq, Repr

/-- The database and the tokens, and the requests that were made. -/
structure PushServer where
  db : Db
  tokens : TokenStore
  pushes : List ApnsPush
  posts : List WebhookPost

abbrev PushHandler (α : Type) := Tx PushServer RowLock AppError α

structure Network where
  apns : List ApnsPush → ApnsPush → ApnsReply
  relay : List WebhookPost → WebhookPost → ApnsReply

def sendPush (net : Network) (push : ApnsPush) : PushHandler ApnsReply :=
  .stmt (fun _ => []) (fun s => { s with pushes := s.pushes ++ [push] })
    (fun s => net.apns s.pushes push) pure

def isSuccess (status : Nat) : Bool := 200 ≤ status && status < 300

structure SendTexts where
  failed : ApnsPush → String → String → String
  refused : Nat → String

def sendEach (env : PushEnv) (net : Network) (texts : SendTexts) (push : String → ApnsPush) :
    List String → List String → PushHandler (List String)
  | [], failures => pure failures
  | token :: tokens, failures => do
    let reply ← sendPush net (push token)
    match reply with
    | .failed error debug => throw (.internal (texts.failed (push token) error debug))
    | .answered status body =>
      sendEach env net texts push tokens (if isSuccess status then failures else failures ++
        ["token=" ++ token ++ " status=" ++ env.statusText status ++ " body=" ++ body])

def sendToTokens (env : PushEnv) (net : Network) (texts : SendTexts) (cfg : ApnsConfig)
    (push : String → String → ApnsPush) (tokens : List String) : PushHandler Unit :=
  if tokens = [] then pure ()
  else do
    let authToken ← Tx.done (makeApnsJwt env cfg)
    let failures ← sendEach env net texts (push authToken) tokens []
    if failures = [] then pure ()
    else throw (.internal
      (texts.refused failures.length ++ String.intercalate " | " failures))

def ApnsConfig.baseUrl (cfg : ApnsConfig) : String :=
  if cfg.useSandbox then "https://api.sandbox.push.apple.com" else "https://api.push.apple.com"

/-- `send_alert_to_tokens`. -/
def sendAlertToTokens (env : PushEnv) (net : Network) (cfg : ApnsConfig) (tokens : List String)
    (recipientId senderId messageId : Uuid) (preview : String) : PushHandler Unit :=
  sendToTokens env net
    { failed := fun push error debug =>
        "APNs send request failed: " ++ error ++ "; debug=" ++ debug ++ "; url=" ++ push.url
      refused := fun n => "APNs returned errors for " ++ toString n ++ " target(s): " } cfg
    (fun authToken token => ⟨cfg.baseUrl, token, "bearer " ++ authToken, cfg.bundleId, .alert,
      .message preview messageId senderId recipientId⟩) tokens

/-- `send_call_alert_to_tokens`. -/
def sendCallAlertToTokens (env : PushEnv) (net : Network) (cfg : ApnsConfig) (tokens : List String)
    (calleeId callerId callId : Uuid) (callType : String) : PushHandler Unit :=
  sendToTokens env net
    { failed := fun _ error _ => "APNs call send failed: " ++ error
      refused := fun n => "APNs call alerts failed for " ++ toString n ++ " target(s): " } cfg
    (fun authToken token => ⟨cfg.baseUrl, token, "bearer " ++ authToken, cfg.bundleId, .alert,
      .call (if asciiLower callType = "video" then "Incoming video call" else "Incoming voice call")
        callId callerId calleeId callType⟩) tokens

/-- `send_voip_call_push_to_tokens`. -/
def sendVoipCallPushToTokens (env : PushEnv) (net : Network) (cfg : ApnsConfig)
    (tokens : List String) (calleeId callerId : Uuid) (callerDisplayName : String) (callId : Uuid)
    (callType : String) : PushHandler Unit :=
  sendToTokens env net
    { failed := fun _ error _ => "APNs VoIP call send failed: " ++ error
      refused := fun n => "APNs VoIP call pushes failed for " ++ toString n ++ " target(s): " } cfg
    (fun authToken token => ⟨cfg.baseUrl, token, "bearer " ++ authToken, cfg.bundleId ++ ".voip",
      .voip, .voipCall callId callerId callerDisplayName calleeId callType⟩) tokens

/-! ## What is sent -/

/-- The server once more requests were made. -/
def PushServer.after (s : PushServer) (pushes : List ApnsPush) (posts : List WebhookPost) :
    PushServer :=
  { s with pushes := s.pushes ++ pushes, posts := s.posts ++ posts }

@[simp] theorem PushServer.after_nil (s : PushServer) : s.after [] [] = s := by
  simp [after]

@[simp] theorem PushServer.after_after (s : PushServer) (l l' : List ApnsPush)
    (m m' : List WebhookPost) : (s.after l m).after l' m' = s.after (l ++ l') (m ++ m') := by
  simp [after]

@[simp] theorem PushServer.after_pushes (s : PushServer) (l : List ApnsPush)
    (m : List WebhookPost) : (s.after l m).pushes = s.pushes ++ l := rfl

/-- A network in which every request succeeds. -/
def Network.up : Network where
  apns _ _ := .answered 200 ""
  relay _ _ := .answered 204 ""

/-- A program that sends pushes of one kind: to none but the given tokens, and to all of them if
every request succeeds. Nothing is sent if the requests cannot be authorised. -/
structure SendsTo (t : Network → PushHandler Unit) (pushType : PushType) (authorised : Bool)
    (tokens : List String) : Prop where
  only : ∀ net s, ∃ r l, (t net).run s = (r, s.after l []) ∧
    ∀ p ∈ l, authorised = true ∧ p.pushType = pushType ∧ p.token ∈ tokens
  all : authorised = true → ∀ s, ∃ l, (t .up).run s = (.ok (), s.after l []) ∧
    ∀ token ∈ tokens, ∃ p ∈ l, p.pushType = pushType ∧ p.token = token
  refused : authorised = false → tokens ≠ [] → ∀ net s, ∃ e, (t net).run s = (.error e, s)

theorem run_sendPush (net : Network) (push : ApnsPush) (s : PushServer) :
    (sendPush net push).run s = (.ok (net.apns s.pushes push), s.after [push] []) := by
  simp only [sendPush, Tx.run_stmt, Tx.run_pure, PushServer.after, List.append_nil]

theorem run_sendEach (env : PushEnv) (net : Network) (texts : SendTexts) (push : String → ApnsPush)
    (tokens failures : List String) (s : PushServer) :
    ∃ r l, (sendEach env net texts push tokens failures).run s = (r, s.after l []) ∧
      ∀ p ∈ l, ∃ token ∈ tokens, p = push token := by
  induction tokens generalizing failures s with
  | nil => exact ⟨.ok failures, [], by simp [sendEach], by simp⟩
  | cons token tokens ih =>
    rw [sendEach, Tx.run_bind_ok (run_sendPush _ _ _)]
    rcases net.apns s.pushes (push token) with ⟨status, body⟩ | ⟨error, debug⟩
    · obtain ⟨r, l, hrun, hl⟩ := ih _ (s.after [push token] [])
      refine ⟨r, push token :: l, by rw [hrun]; simp, ?_⟩
      intro p hp
      rcases List.mem_cons.mp hp with rfl | hp
      · exact ⟨token, List.mem_cons_self, rfl⟩
      · obtain ⟨token', htoken', rfl⟩ := hl p hp
        exact ⟨token', List.mem_cons_of_mem _ htoken', rfl⟩
    · exact ⟨_, [push token], rfl, by simp⟩

theorem run_sendEach_up (env : PushEnv) (texts : SendTexts) (push : String → ApnsPush)
    (tokens failures : List String) (s : PushServer) :
    (sendEach env .up texts push tokens failures).run s =
      (.ok failures, s.after (tokens.map push) []) := by
  induction tokens generalizing s with
  | nil => simp [sendEach]
  | cons token tokens ih =>
    rw [sendEach, Tx.run_bind_ok (run_sendPush _ _ _)]
    change (sendEach env .up texts push tokens failures).run _ = _
    rw [ih]
    simp

theorem sendsTo_sendToTokens (env : PushEnv) (texts : SendTexts) (cfg : ApnsConfig)
    {push : String → String → ApnsPush} {pushType : PushType} (tokens : List String)
    (hpush : ∀ a token, (push a token).pushType = pushType ∧ (push a token).token = token) :
    SendsTo (fun net => sendToTokens env net texts cfg push tokens) pushType
      (makeApnsJwt env cfg).isOk tokens where
  only net s := by
    unfold sendToTokens
    split
    · exact ⟨.ok (), [], by simp, by simp⟩
    rcases hjwt : makeApnsJwt env cfg with e | authToken
    · exact ⟨.error e, [], by rw [Tx.run_bind_error (Tx.run_done _ _)]; simp, by simp⟩
    · rw [Tx.run_bind_ok (Tx.run_done _ _)]
      obtain ⟨r, l, hrun, hl⟩ := run_sendEach env net texts (push authToken) tokens [] s
      have hgood : ∀ p ∈ l, (Except.ok authToken : Except AppError String).isOk = true ∧
          p.pushType = pushType ∧ p.token ∈ tokens := by
        intro p hp
        obtain ⟨token, htoken, rfl⟩ := hl p hp
        obtain ⟨hkind, hto⟩ := hpush authToken token
        exact ⟨rfl, hkind, by rwa [hto]⟩
      rcases r with e | failures
      · exact ⟨.error e, l, by rw [Tx.run_bind_error hrun], hgood⟩
      · rw [Tx.run_bind_ok hrun]
        split
        · exact ⟨_, l, rfl, hgood⟩
        · exact ⟨_, l, rfl, hgood⟩
  all hok s := by
    unfold sendToTokens
    split
    · rename_i hnone
      exact ⟨[], by simp, by simp [hnone]⟩
    rcases hjwt : makeApnsJwt env cfg with e | authToken
    · rw [hjwt] at hok
      cases hok
    · rw [Tx.run_bind_ok (Tx.run_done _ _), Tx.run_bind_ok (run_sendEach_up _ _ _ _ _ _)]
      refine ⟨tokens.map (push authToken), rfl, fun token htoken => ?_⟩
      exact ⟨push authToken token, List.mem_map_of_mem htoken, hpush authToken token⟩
  refused hnot hne net s := by
    unfold sendToTokens
    rw [if_neg hne]
    rcases hjwt : makeApnsJwt env cfg with e | authToken
    · exact ⟨e, Tx.run_bind_error (Tx.run_done _ _) _⟩
    · rw [hjwt] at hnot
      cases hnot

section
variable (env : PushEnv) (cfg : ApnsConfig) (tokens : List String)

theorem sendsTo_alert (recipientId senderId messageId : Uuid) (preview : String) :
    SendsTo (fun net => sendAlertToTokens env net cfg tokens recipientId senderId messageId preview)
      .alert (makeApnsJwt env cfg).isOk tokens :=
  sendsTo_sendToTokens env _ cfg tokens (fun _ _ => ⟨rfl, rfl⟩)

theorem sendsTo_callAlert (calleeId callerId callId : Uuid) (callType : String) :
    SendsTo (fun net => sendCallAlertToTokens env net cfg tokens calleeId callerId callId callType)
      .alert (makeApnsJwt env cfg).isOk tokens :=
  sendsTo_sendToTokens env _ cfg tokens (fun _ _ => ⟨rfl, rfl⟩)

theorem sendsTo_voipCall (calleeId callerId : Uuid) (callerDisplayName : String) (callId : Uuid)
    (callType : String) :
    SendsTo (fun net => sendVoipCallPushToTokens env net cfg tokens calleeId callerId
      callerDisplayName callId callType) .voip (makeApnsJwt env cfg).isOk tokens :=
  sendsTo_sendToTokens env _ cfg tokens (fun _ _ => ⟨rfl, rfl⟩)

end

end SyncServer.Notifications
