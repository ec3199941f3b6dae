import SyncServer.Notifications.Apns

/-! # The dispatch of notifications

`push_dispatch_service` sends the notifications for iOS devices itself, hands them to a relay, or
does the second when the first fails. For calls it tells the kinds of tokens apart.
-/

namespace SyncServer.Notifications
open Transaction

def defaultRelayWebhookUrl : String := "https://push.sync.icyanstudio.net/v1/push/webhook"

def webhookUrl (s : PushServer) : String :=
  (((s.db.adminSettings.get "notification_webhook_url").map AdminSetting.value).filter
    (fun url => trim url ≠ "")).getD defaultRelayWebhookUrl

def PushTarget.ofToken (r : DevicePushToken) : PushTarget := ⟨r.platform, r.token, r.tokenKind⟩

/-- `eq_ignore_ascii_case` with `ios`. -/
def isIos (platform : String) : Bool := asciiLower platform = "ios"

/-- `is_relay_deliverable_platform`. -/
def isRelayDeliverablePlatform (unicode : Unicode) (platform : String) : Bool :=
  unicode.toLowercase (trim platform) ∈ ["android", "fcm"]

def splitTargets (unicode : Unicode) (tokens : List DevicePushToken) :
    List PushTarget × List PushTarget :=
  let (ios, others) := (tokens.map PushTarget.ofToken).partition (fun t => isIos t.platform)
  (ios, others.filter (fun t => isRelayDeliverablePlatform unicode t.platform))

/-! ## Previews -/

/-- `is_encrypted_payload`. -/
def isEncryptedPayload (env : PushEnv) (content : String) : Bool :=
  let trimmed := trim content
  startsWith trimmed "\x7b" &&
    match env.parseJson trimmed with
    | some (.object fields) =>
      let isObject (key : String) : Bool :=
        match (Json.object fields).get key with
        | some (.object _) => true
        | _ => false
      (match (Json.object fields).get "v" with
        | some (.number literal) => literal = "1"
        | _ => false) && isObject "recipient" && isObject "sender"
    | _ => false

/-- `truncate_preview`. -/
def truncatePreview (env : PushEnv) (content : String) (maxChars : Nat) : String :=
  if isEncryptedPayload env content then "Sent you a new message"
  else
    let trimmed := trim content
    if trimmed.toList.length ≤ maxChars then trimmed
    else String.ofList (trimmed.toList.take maxChars) ++ "..."

/-! ## The relay -/

def sendPost (net : Network) (post : WebhookPost) : PushHandler ApnsReply :=
  .stmt (fun _ => []) (fun s => { s with posts := s.posts ++ [post] })
    (fun s => net.relay s.posts post) pure

/-- What `send_webhook_push` and `send_call_webhook_push` have in common. -/
def postPayload (env : PushEnv) (net : Network) (post : WebhookPost) (what : String) :
    PushHandler Unit := do
  let reply ← sendPost net post
  match reply with
  | .failed error _ => throw (.internal (what ++ " send failed: " ++ error))
  | .answered status body =>
    if isSuccess status then pure ()
    else throw (.internal (what ++ " returned " ++ env.statusText status ++ ": " ++ body))

/-- A message that the recipient is told of. -/
structure MessagePush where
  recipientId : Uuid
  senderId : Uuid
  messageId : Uuid
  messageContent : String
deriving DecidableEq, Repr

/-- A call that the callee is told of. -/
structure CallPush where
  calleeId : Uuid
  callerId : Uuid
  callerDisplayName : String
  callId : Uuid
  callType : String
deriving DecidableEq, Repr

def MessagePush.preview (env : PushEnv) (message : MessagePush) : String :=
  truncatePreview env message.messageContent 140

def MessagePush.payload (env : PushEnv) (message : MessagePush) (targets : List PushTarget) :
    RelayPayload where
  event := "new_message"
  recipientId := some message.recipientId
  senderId := some message.senderId
  messageId := some message.messageId
  messagePreview := some (message.preview env)
  callerId := none
  callerDisplayName := none
  callId := none
  callType := none
  targets := targets

def CallPush.payload (call : CallPush) (targets : List PushTarget) : RelayPayload where
  event := "incoming_call"
  recipientId := some call.calleeId
  senderId := none
  messageId := none
  messagePreview := none
  callerId := some call.callerId
  callerDisplayName := some call.callerDisplayName
  callId := some call.callId
  callType := some call.callType
  targets := targets

structure Pending where
  webhookTargets : List PushTarget
  dispatchErrors : List String
deriving DecidableEq, Repr

def finishDispatch (env : PushEnv) (post : List PushTarget → PushHandler Unit) (label : String)
    (pending : Pending) : PushHandler Unit := do
  let posted ← if pending.webhookTargets = [] then pure (.ok ())
    else Tx.attempt (post pending.webhookTargets)
  let dispatchErrors := match posted with
    | .ok () => pending.dispatchErrors
    | .error e => pending.dispatchErrors ++ [label ++ env.debug e]
  if dispatchErrors = [] then pure ()
  else throw (.internal (String.intercalate "; " dispatchErrors))

/-- Whether a function that sends pushes fails; it is not called without tokens. -/
def attemptSend (targets : List PushTarget) (t : List String → PushHandler Unit) :
    PushHandler (Option AppError) := do
  if targets = [] then pure none
  else do
    let sent ← Tx.attempt (t (targets.map PushTarget.token))
    match sent with
    | .ok () => pure none
    | .error e => pure (some e)

/-- What the dispatchers have in common: the targets are read and split, those for Apple's service
are routed, and the relay gets what is left. -/
def dispatch (env : PushEnv) (net : Network) (cfg : PushConfig) (user : Uuid)
    (route : List PushTarget → List PushTarget → PushHandler Pending)
    (payload : List PushTarget → RelayPayload) (what label : String) : PushHandler Unit := do
  let url ← Tx.query webhookUrl
  let tokens ← Tx.query (fun s => s.tokens.listTokensForUser user)
  if tokens = [] then pure ()
  else do
    let targets := splitTargets env.unicode tokens
    let pending ← route targets.1 targets.2
    finishDispatch env (fun targets =>
      postPayload env net ⟨url, cfg.pushRelaySharedSecret, payload targets⟩ what) label pending

/-! ## Messages -/

def MessagePush.alert (env : PushEnv) (net : Network) (apns : ApnsConfig) (message : MessagePush)
    (tokens : List String) : PushHandler Unit :=
  sendAlertToTokens env net apns tokens message.recipientId message.senderId message.messageId
    (message.preview env)

/-- What `dispatch_new_message` does with the targets for Apple's service. -/
def routeMessage (env : PushEnv) (net : Network) (cfg : PushConfig) (message : MessagePush)
    (iosTargets webhookTargets : List PushTarget) : PushHandler Pending :=
  match cfg.pushDeliveryMode with
  | .relay => pure ⟨webhookTargets ++ iosTargets, []⟩
  | .direct =>
    match parseApnsConfig env cfg with
    | none => pure ⟨webhookTargets, []⟩
    | some apns => do
      let failure ← attemptSend iosTargets (message.alert env net apns)
      pure ⟨webhookTargets, failure.toList.map (fun e => "APNs dispatch failed: " ++ env.debug e)⟩
  | .hybrid =>
    match parseApnsConfig env cfg with
    | none => pure ⟨webhookTargets ++ iosTargets, []⟩
    | some apns => do
      let failure ← attemptSend iosTargets (message.alert env net apns)
      pure ⟨if failure.isSome then webhookTargets ++ iosTargets else webhookTargets, []⟩

/-- `dispatch_new_message`. -/
def dispatchNewMessage (env : PushEnv) (net : Network) (cfg : PushConfig) (message : MessagePush) :
    PushHandler Unit :=
  dispatch env net cfg message.recipientId (routeMessage env net cfg message) (message.payload env)
    "Push webhook" "Webhook dispatch failed: "

/-! ## Calls -/

/-- The targets of a call for Apple's service, those of kind `voip` first; the other ones are
dropped if there is one of these. -/
def splitKinds (iosTargets : List PushTarget) : List PushTarget × List PushTarget :=
  let (voip, default) := iosTargets.partition (fun t => t.tokenKind = "voip")
  (voip, if voip = [] then default else [])

def CallPush.voip (env : PushEnv) (net : Network) (apns : ApnsConfig) (call : CallPush)
    (tokens : List String) : PushHandler Unit :=
  sendVoipCallPushToTokens env net apns tokens call.calleeId call.callerId call.callerDisplayName
    call.callId call.callType

def CallPush.alert (env : PushEnv) (net : Network) (apns : ApnsConfig) (call : CallPush)
    (tokens : List String) : PushHandler Unit :=
  sendCallAlertToTokens env net apns tokens call.calleeId call.callerId call.callId call.callType

/-- What `dispatch_incoming_call` does with the targets for Apple's service. -/
def routeCall (env : PushEnv) (net : Network) (cfg : PushConfig) (call : CallPush)
    (voipTargets defaultTargets webhookTargets : List PushTarget) : PushHandler Pending :=
  match cfg.pushDeliveryMode, parseApnsConfig env cfg with
  | .relay, _ => pure ⟨webhookTargets ++ voipTargets ++ defaultTargets, []⟩
  | .direct, none => pure ⟨webhookTargets, []⟩
  | .hybrid, none => pure ⟨webhookTargets ++ voipTargets ++ defaultTargets, []⟩
  | mode, some apns => do
    let voipFailure ← attemptSend voipTargets (call.voip env net apns)
    let failure ← attemptSend defaultTargets (call.alert env net apns)
    if mode = .direct then
      pure ⟨webhookTargets,
        voipFailure.toList.map (fun e => "APNs VoIP call dispatch failed: " ++ env.debug e) ++
          failure.toList.map (fun e => "APNs call dispatch failed: " ++ env.debug e)⟩
    else
      pure ⟨webhookTargets ++ (if voipFailure.isSome then voipTargets else []) ++
        (if failure.isSome then defaultTargets else []), []⟩

/-- `dispatch_incoming_call`. -/
def dispatchIncomingCall (env : PushEnv) (net : Network) (cfg : PushConfig) (call : CallPush) :
    PushHandler Unit :=
  dispatch env net cfg call.calleeId
    (fun iosTargets webhookTargets => routeCall env net cfg call (splitKinds iosTargets).1
      (splitKinds iosTargets).2 webhookTargets)
    call.payload "Call push webhook" "Webhook call dispatch failed: "

/-! ## The parts of a dispatch -/

theorem mem_splitTargets {unicode : Unicode} {tokens : List DevicePushToken} {t : PushTarget} :
    t ∈ (splitTargets unicode tokens).1 ↔
      ∃ r ∈ tokens, isIos r.platform = true ∧ t = .ofToken r := by
  simp only [splitTargets, List.partition_eq_filter_filter, List.mem_filter, List.mem_map]
  constructor
  · rintro ⟨⟨r, hr, rfl⟩, hios⟩
    exact ⟨r, hr, hios, rfl⟩
  · rintro ⟨r, hr, hios, rfl⟩
    exact ⟨⟨r, hr, rfl⟩, hios⟩

theorem not_isIos_of_mem {unicode : Unicode} {tokens : List DevicePushToken} {t : PushTarget}
    (h : t ∈ (splitTargets unicode tokens).2) : isIos t.platform = false := by
  simp only [splitTargets, List.partition_eq_filter_filter, List.mem_filter, Function.comp_apply,
    Bool.not_eq_true'] at h
  exact h.1.2

abbrev Sends (send : Network → List String → PushHandler Unit) (pushType : PushType)
    (authorised : Bool) : Prop :=
  ∀ tokens, SendsTo (fun net => send net tokens) pushType authorised tokens

theorem sends_message (env : PushEnv) (apns : ApnsConfig) (message : MessagePush) :
    Sends (fun net => message.alert env net apns) .alert (makeApnsJwt env apns).isOk :=
  fun tokens => sendsTo_alert env apns tokens _ _ _ _

theorem sends_voipCall (env : PushEnv) (apns : ApnsConfig) (call : CallPush) :
    Sends (fun net => call.voip env net apns) .voip (makeApnsJwt env apns).isOk :=
  fun tokens => sendsTo_voipCall env apns tokens _ _ _ _ _

theorem sends_callAlert (env : PushEnv) (apns : ApnsConfig) (call : CallPush) :
    Sends (fun net => call.alert env net apns) .alert (makeApnsJwt env apns).isOk :=
  fun tokens => sendsTo_callAlert env apns tokens _ _ _ _

theorem mem_splitKinds_voip {iosTargets : List PushTarget} {t : PushTarget} :
    t ∈ (splitKinds iosTargets).1 ↔ t ∈ iosTargets ∧ t.tokenKind = "voip" := by
  simp [splitKinds, List.partition_eq_filter_filter]

theorem mem_splitKinds_default {iosTargets : List PushTarget} {t : PushTarget} :
    t ∈ (splitKinds iosTargets).2 ↔ (t ∈ iosTargets ∧ t.tokenKind ≠ "voip") ∧
      ∀ t' ∈ iosTargets, t'.tokenKind ≠ "voip" := by
  simp only [splitKinds, List.partition_eq_filter_filter]
  split
  · rename_i hnone
    rw [List.filter_eq_nil_iff] at hnone
    simpa using fun _ _ => hnone
  · rename_i hsome
    rw [List.filter_eq_nil_iff] at hsome
    simpa using fun _ _ => hsome

section
variable {send : Network → List String → PushHandler Unit} {pushType : PushType}
  {authorised : Bool} (targets : List PushTarget)

theorem run_attemptSend (h : Sends send pushType authorised) (net : Network) (s : PushServer) :
    ∃ failure l, (attemptSend targets (send net)).run s = (.ok failure, s.after l []) ∧
      ∀ p ∈ l, authorised = true ∧ p.pushType = pushType ∧ ∃ t ∈ targets, t.token = p.token := by
  unfold attemptSend
  split
  · exact ⟨none, [], by simp, by simp⟩
  obtain ⟨r, l, hrun, hl⟩ := (h (targets.map PushTarget.token)).only net s
  have hgood : ∀ p ∈ l, authorised = true ∧ p.pushType = pushType ∧
      ∃ t ∈ targets, t.token = p.token := by
    intro p hp
    obtain ⟨hok, hkind, htoken⟩ := hl p hp
    exact ⟨hok, hkind, List.mem_map.mp htoken⟩
  rw [Tx.run_bind_ok (Tx.run_attempt _ _), hrun]
  rcases r with e | ⟨⟩
  · exact ⟨some e, l, rfl, hgood⟩
  · exact ⟨none, l, rfl, hgood⟩

theorem run_attemptSend_up (h : Sends send pushType authorised) (hok : authorised = true)
    (s : PushServer) :
    ∃ l, (attemptSend targets (send .up)).run s = (.ok none, s.after l []) ∧
      ∀ t ∈ targets, ∃ p ∈ l, p.pushType = pushType ∧ p.token = t.token := by
  unfold attemptSend
  split
  · rename_i hnone
    exact ⟨[], by simp, by simp [hnone]⟩
  obtain ⟨l, hrun, hl⟩ := (h (targets.map PushTarget.token)).all hok s
  rw [Tx.run_bind_ok (Tx.run_attempt _ _), hrun]
  exact ⟨l, rfl, fun t ht => hl t.token (List.mem_map_of_mem ht)⟩

theorem run_attemptSend_refused {targets : List PushTarget} (h : Sends send pushType authorised)
    (hnot : authorised = false) (hne : targets ≠ []) (net : Network) (s : PushServer) :
    ∃ e, (attemptSend targets (send net)).run s = (.ok (some e), s) := by
  obtain ⟨e, hrun⟩ := (h (targets.map PushTarget.token)).refused hnot (by simpa using hne) net s
  unfold attemptSend
  rw [if_neg hne, Tx.run_bind_ok (Tx.run_attempt _ _), hrun]
  exact ⟨e, rfl⟩

end

theorem run_postPayload (env : PushEnv) (net : Network) (post : WebhookPost) (what : String)
    (s : PushServer) : ∃ r, (postPayload env net post what).run s = (r, s.after [] [post]) := by
  have hpost : (sendPost net post).run s = (.ok (net.relay s.posts post), s.after [] [post]) := by
    simp only [sendPost, Tx.run_stmt, Tx.run_pure, PushServer.after, List.append_nil]
  rw [postPayload, Tx.run_bind_ok hpost]
  rcases net.relay s.posts post with ⟨status, body⟩ | ⟨error, debug⟩
  · dsimp only
    split <;> exact ⟨_, rfl⟩
  · exact ⟨_, rfl⟩

theorem run_finishDispatch (env : PushEnv) (net : Network) (post : List PushTarget → WebhookPost)
    (what label : String) (pending : Pending) (s : PushServer) :
    ∃ r, (finishDispatch env (fun targets => postPayload env net (post targets) what) label
        pending).run s =
      (r, s.after []
        (if pending.webhookTargets = [] then [] else [post pending.webhookTargets])) := by
  unfold finishDispatch
  by_cases hnone : pending.webhookTargets = []
  · rw [if_pos hnone, if_pos hnone, Tx.run_bind_ok (Tx.run_pure _ _), PushServer.after_nil]
    dsimp only
    split <;> exact ⟨_, rfl⟩
  · obtain ⟨posted, hrun⟩ := run_postPayload env net (post pending.webhookTargets) what s
    rw [if_neg hnone, if_neg hnone, Tx.run_bind_ok (Tx.run_attempt _ _), hrun]
    rcases posted with e | ⟨⟩
    all_goals
      dsimp only
      split <;> exact ⟨_, rfl⟩

theorem run_dispatch_nil {env : PushEnv} {net : Network} {cfg : PushConfig} {user : Uuid}
    {s : PushServer} (hnone : s.tokens.listTokensForUser user = [])
    (route : List PushTarget → List PushTarget → PushHandler Pending)
    (payload : List PushTarget → RelayPayload) (what label : String) :
    (dispatch env net cfg user route payload what label).run s = (.ok (), s) := by
  rw [dispatch, Tx.run_bind_ok (Tx.run_query _ _), Tx.run_bind_ok (Tx.run_query _ _), if_pos hnone]
  rfl

theorem run_dispatch_route {env : PushEnv} (net : Network) (cfg : PushConfig) {user : Uuid}
    {route : List PushTarget → List PushTarget → PushHandler Pending} {pending : Pending}
    {l : List ApnsPush} {s : PushServer} (hne : s.tokens.listTokensForUser user ≠ [])
    (h : (route (splitTargets env.unicode (s.tokens.listTokensForUser user)).1
        (splitTargets env.unicode (s.tokens.listTokensForUser user)).2).run s =
      (.ok pending, s.after l []))
    (payload : List PushTarget → RelayPayload) (what label : String) :
    ∃ r, (dispatch env net cfg user route payload what label).run s =
      (r, s.after l (if pending.webhookTargets = [] then []
        else [⟨webhookUrl s, cfg.pushRelaySharedSecret, payload pending.webhookTargets⟩])) := by
  obtain ⟨r, hfinish⟩ := run_finishDispatch env net (fun targets =>
    ⟨webhookUrl s, cfg.pushRelaySharedSecret, payload targets⟩) what label pending (s.after l [])
  rw [PushServer.after_after, List.append_nil, List.nil_append] at hfinish
  refine ⟨r, ?_⟩
  rw [dispatch, Tx.run_bind_ok (Tx.run_query _ _), Tx.run_bind_ok (Tx.run_query _ _), if_neg hne,
    Tx.run_bind_ok h]
  exact hfinish

end SyncServer.Notifications
