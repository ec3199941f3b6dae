import SyncServer.Notifications.Dispatch

/-! # The relay

The server that is named in the settings of others sends their notifications to Apple's service.
-/

namespace SyncServer.Notifications
open Transaction

def PushConfig.admits (cfg : PushConfig) (req : HttpRequest) : Bool :=
  match cfg.pushRelaySharedSecret with
  | none => true
  | some expectedSecret =>
    ((req.header "x-sync-push-secret").bind (fun v => v.toStr.toOption)).getD "" = expectedSecret

/-- The tokens for Apple's service among the targets of a payload. -/
def RelayPayload.iosTokens (body : RelayPayload) (kind : String → Bool) : List String :=
  (body.targets.filter (fun item => isIos item.platform && kind item.tokenKind &&
    trim item.token ≠ "")).map (fun item => trim item.token)

def relayConfigMissing : AppError := .internal "Relay APNs config is missing"

/-- `Display` of an error, which hides what is internal. -/
def displayError (env : PushEnv) : AppError → String
  | .database e => "Database error: " ++ env.causeText (.database e)
  | .pool => "Connection pool error: " ++ env.causeText .pool
  | .notFound => "Not found"
  | .unauthorized => "Unauthorized"
  | .forbidden => "Forbidden"
  | .badRequest message => "Bad request: " ++ message
  | .conflict message => "Conflict: " ++ message
  | .tooManyRequests message => "Too many requests: " ++ message
  | .internal _ | .panicked => "Internal server error"

/-- `incoming_call_webhook`. -/
def incomingCallWebhook (env : PushEnv) (net : Network) (cfg : PushConfig) (body : RelayPayload) :
    PushHandler Unit := do
  let voipTokens := body.iosTokens (fun kind => kind = "voip")
  let defaultTokens := body.iosTokens (fun kind => kind ≠ "voip")
  if voipTokens = [] ∧ defaultTokens = [] then pure ()
  else do
    let apns ← Tx.okOr relayConfigMissing (parseApnsConfig env cfg)
    let recipientId := body.recipientId.getD 0
    let callerId := body.callerId.getD 0
    let callId := body.callId.getD 0
    let callType := body.callType.getD "voice"
    let callerDisplayName := body.callerDisplayName.getD ""
    -- nothing is sent to an empty list of tokens
    let voip ← Tx.attempt (sendVoipCallPushToTokens env net apns voipTokens recipientId callerId
      callerDisplayName callId callType)
    let alert ← Tx.attempt (sendCallAlertToTokens env net apns defaultTokens recipientId callerId
      callId callType)
    let errors := [voip, alert].filterMap (fun sent => match sent with
      | .ok () => none
      | .error e => some (displayError env e))
    if errors = [] then pure () else throw (.internal (String.intercalate "; " errors))

/-- What `webhook` does with a new message. -/
def newMessageWebhook (env : PushEnv) (net : Network) (cfg : PushConfig) (body : RelayPayload) :
    PushHandler Unit := do
  let iosTokens := body.iosTokens (fun _ => true)
  if iosTokens = [] then pure ()
  else do
    let apns ← Tx.okOr relayConfigMissing (parseApnsConfig env cfg)
    sendAlertToTokens env net apns iosTokens (body.recipientId.getD 0) (body.senderId.getD 0)
      (body.messageId.getD 0) (body.messagePreview.getD "You have a new message")

/-- `webhook`. -/
def webhook (env : PushEnv) (net : Network) (cfg : PushConfig) (req : HttpRequest)
    (body : RelayPayload) : PushHandler Unit :=
  if cfg.admits req = false then throw .unauthorized
  else if trim body.event = "new_message" then newMessageWebhook env net cfg body
  else if trim body.event = "incoming_call" then incomingCallWebhook env net cfg body
  else pure ()

/-! ## What the relay sends -/

/-- A relay, and the request that brings it a payload. -/
structure Relay where
  server : PushServer
  cfg : PushConfig
  req : HttpRequest

def Relay.ready (env : PushEnv) (relay : Relay) : Bool :=
  relay.cfg.admits relay.req && relay.cfg.usable env

/-- The server before any request. -/
def PushServer.fresh (s : PushServer) : PushServer := { s with pushes := [], posts := [] }

def Relay.pushes (env : PushEnv) (net : Network) (relay : Relay) (body : RelayPayload) :
    List ApnsPush :=
  ((webhook env net relay.cfg relay.req body).run relay.server.fresh).2.pushes

theorem mem_iosTokens {body : RelayPayload} {kind : String → Bool} {token : String} :
    token ∈ body.iosTokens kind ↔ ∃ t ∈ body.targets, isIos t.platform = true ∧
      kind t.tokenKind = true ∧ trim t.token ≠ "" ∧ trim t.token = token := by
  simp only [RelayPayload.iosTokens, List.mem_map, List.mem_filter, Bool.and_eq_true,
    decide_eq_true_eq]
  constructor
  · rintro ⟨t, ⟨ht, ⟨hios, hkind⟩, hne⟩, rfl⟩
    exact ⟨t, ht, hios, hkind, hne, rfl⟩
  · rintro ⟨t, ht, hios, hkind, hne, rfl⟩
    exact ⟨t, ⟨ht, ⟨hios, hkind⟩, hne⟩, rfl⟩

section
variable {env : PushEnv} {cfg : PushConfig} {apns : ApnsConfig}

theorem usable_of_config (h : parseApnsConfig env cfg = some apns) :
    cfg.usable env = (makeApnsJwt env apns).isOk := by
  rw [PushConfig.usable, h, Option.any_some]

theorem not_usable_of_none (h : parseApnsConfig env cfg = none) : cfg.usable env = false := by
  rw [PushConfig.usable, h, Option.any_none]

theorem run_newMessageWebhook (env : PushEnv) (cfg : PushConfig) (net : Network)
    (body : RelayPayload) (s : PushServer) :
    ∃ r l, (newMessageWebhook env net cfg body).run s = (r, s.after l []) ∧
      ∀ p ∈ l, cfg.usable env = true ∧ p.pushType = .alert ∧
        p.token ∈ body.iosTokens (fun _ => true) := by
  unfold newMessageWebhook
  dsimp only
  split
  · exact ⟨.ok (), [], by simp, by simp⟩
  rcases hcfg : parseApnsConfig env cfg with _ | apns
  · exact ⟨.error relayConfigMissing, [], by rw [PushServer.after_nil]; rfl, by simp⟩
  · rw [usable_of_config hcfg]
    exact (sendsTo_alert env apns _ _ _ _ _).only net s

theorem run_newMessageWebhook_up (h : cfg.usable env = true) (body : RelayPayload)
    (s : PushServer) :
    ∃ l, (newMessageWebhook env .up cfg body).run s = (.ok (), s.after l []) ∧
      ∀ token ∈ body.iosTokens (fun _ => true), ∃ p ∈ l, p.pushType = .alert ∧ p.token = token := by
  unfold newMessageWebhook
  dsimp only
  split
  · rename_i hnone
    exact ⟨[], by simp, by simp [hnone]⟩
  rcases hcfg : parseApnsConfig env cfg with _ | apns
  · rw [not_usable_of_none hcfg] at h
    cases h
  · rw [usable_of_config hcfg] at h
    exact (sendsTo_alert env apns _ _ _ _ _).all h s

/-- What is sent for a call: each kind of push to its own kind of token. -/
theorem run_incomingCallWebhook (env : PushEnv) (cfg : PushConfig) (net : Network)
    (body : RelayPayload) (s : PushServer) :
    ∃ r l, (incomingCallWebhook env net cfg body).run s = (r, s.after l []) ∧
      ∀ p ∈ l, cfg.usable env = true ∧
        (p.pushType = .voip ∧ p.token ∈ body.iosTokens (fun kind => kind = "voip") ∨
          p.pushType = .alert ∧ p.token ∈ body.iosTokens (fun kind => kind ≠ "voip")) := by
  unfold incomingCallWebhook
  dsimp only
  split
  · exact ⟨.ok (), [], by simp, by simp⟩
  rcases hcfg : parseApnsConfig env cfg with _ | apns
  · exact ⟨.error relayConfigMissing, [], by rw [PushServer.after_nil]; rfl, by simp⟩
  · obtain ⟨r, l, hvoip, hl⟩ := (sendsTo_voipCall env apns
      (body.iosTokens (fun kind => kind = "voip")) (body.recipientId.getD 0) (body.callerId.getD 0)
      (body.callerDisplayName.getD "") (body.callId.getD 0) (body.callType.getD "voice")).only net s
    obtain ⟨r', l', halert, hl'⟩ := (sendsTo_callAlert env apns
      (body.iosTokens (fun kind => kind ≠ "voip")) (body.recipientId.getD 0) (body.callerId.getD 0)
      (body.callId.getD 0) (body.callType.getD "voice")).only net (s.after l [])
    rw [PushServer.after_after] at halert
    rw [Tx.run_bind_ok (Tx.run_okOr _ _ _), Tx.run_bind_ok (Tx.run_attempt _ _), hvoip,
      Tx.run_bind_ok (Tx.run_attempt _ _), halert]
    have hgood : ∀ p ∈ l ++ l', cfg.usable env = true ∧
        (p.pushType = .voip ∧ p.token ∈ body.iosTokens (fun kind => kind = "voip") ∨
          p.pushType = .alert ∧ p.token ∈ body.iosTokens (fun kind => kind ≠ "voip")) := by
      intro p hp
      rw [usable_of_config hcfg]
      rcases List.mem_append.mp hp with hp | hp
      · exact ⟨(hl p hp).1, .inl (hl p hp).2⟩
      · exact ⟨(hl' p hp).1, .inr (hl' p hp).2⟩
    split <;> exact ⟨_, l ++ l', rfl, hgood⟩

theorem run_incomingCallWebhook_up (h : cfg.usable env = true) (body : RelayPayload)
    (s : PushServer) :
    ∃ r l, (incomingCallWebhook env .up cfg body).run s = (r, s.after l []) ∧
      ∀ token ∈ body.iosTokens (fun kind => kind ≠ "voip"),
        ∃ p ∈ l, p.pushType = .alert ∧ p.token = token := by
  unfold incomingCallWebhook
  dsimp only
  split
  · rename_i hnone
    exact ⟨.ok (), [], by simp, by simp only [hnone.2]; simp⟩
  rcases hcfg : parseApnsConfig env cfg with _ | apns
  · rw [not_usable_of_none hcfg] at h
    cases h
  · rw [usable_of_config hcfg] at h
    obtain ⟨l, hvoip, -⟩ := (sendsTo_voipCall env apns
      (body.iosTokens (fun kind => kind = "voip")) (body.recipientId.getD 0) (body.callerId.getD 0)
      (body.callerDisplayName.getD "") (body.callId.getD 0) (body.callType.getD "voice")).all h s
    obtain ⟨l', halert, hl'⟩ := (sendsTo_callAlert env apns
      (body.iosTokens (fun kind => kind ≠ "voip")) (body.recipientId.getD 0) (body.callerId.getD 0)
      (body.callId.getD 0) (body.callType.getD "voice")).all h (s.after l [])
    rw [PushServer.after_after] at halert
    rw [Tx.run_bind_ok (Tx.run_okOr _ _ _), Tx.run_bind_ok (Tx.run_attempt _ _), hvoip,
      Tx.run_bind_ok (Tx.run_attempt _ _), halert]
    refine ⟨.ok (), l ++ l', rfl, fun token htoken => ?_⟩
    obtain ⟨p, hp, hto⟩ := hl' token htoken
    exact ⟨p, List.mem_append_right _ hp, hto⟩

end

section
variable {env : PushEnv} {net : Network} {relay : Relay} {body : RelayPayload}

theorem trim_event_message : trim "new_message" = "new_message" := by decide

theorem trim_event_call : trim "incoming_call" = "incoming_call" := by decide

theorem mem_pushes_message (hevent : body.event = "new_message") {p : ApnsPush}
    (h : p ∈ relay.pushes env net body) : relay.ready env = true ∧ p.pushType = .alert ∧
      p.token ∈ body.iosTokens (fun _ => true) := by
  unfold Relay.pushes webhook at h
  unfold Relay.ready
  rw [hevent, trim_event_message] at h
  rcases hadmits : relay.cfg.admits relay.req with _ | _
  · rw [if_pos hadmits] at h
    cases h
  · rw [if_neg (by simp [hadmits]), if_pos rfl] at h
    obtain ⟨r, l, hrun, hl⟩ := run_newMessageWebhook env relay.cfg net body relay.server.fresh
    rw [hrun] at h
    simpa using hl p (by simpa [PushServer.fresh] using h)

theorem pushes_message_up (body : RelayPayload) (hready : relay.ready env = true)
    (hevent : body.event = "new_message") {token : String}
    (h : token ∈ body.iosTokens (fun _ => true)) :
    ∃ p ∈ relay.pushes env .up body, p.pushType = .alert ∧ p.token = token := by
  obtain ⟨hadmits, husable⟩ := (Bool.and_eq_true _ _).mp hready
  obtain ⟨l, hrun, hl⟩ := run_newMessageWebhook_up husable body relay.server.fresh
  have hpushes : relay.pushes env .up body = l := by
    unfold Relay.pushes webhook
    rw [hevent, trim_event_message, if_neg (by simp [hadmits]), if_pos rfl, hrun]
    rfl
  rw [hpushes]
  exact hl token h

theorem mem_pushes_call (hevent : body.event = "incoming_call") {p : ApnsPush}
    (h : p ∈ relay.pushes env net body) : relay.ready env = true ∧
      (p.pushType = .voip ∧ p.token ∈ body.iosTokens (fun kind => kind = "voip") ∨
        p.pushType = .alert ∧ p.token ∈ body.iosTokens (fun kind => kind ≠ "voip")) := by
  unfold Relay.pushes webhook at h
  unfold Relay.ready
  rw [hevent, trim_event_call] at h
  rcases hadmits : relay.cfg.admits relay.req with _ | _
  · rw [if_pos hadmits] at h
    cases h
  · rw [if_neg (by simp [hadmits]), if_neg (by decide), if_pos rfl] at h
    obtain ⟨r, l, hrun, hl⟩ := run_incomingCallWebhook env relay.cfg net body relay.server.fresh
    rw [hrun] at h
    obtain ⟨husable, hkind⟩ := hl p (by simpa [PushServer.fresh] using h)
    exact ⟨by rw [husable, Bool.and_true], hkind⟩

theorem pushes_call_up (body : RelayPayload) (hready : relay.ready env = true)
    (hevent : body.event = "incoming_call") {token : String}
    (h : token ∈ body.iosTokens (fun kind => kind ≠ "voip")) :
    ∃ p ∈ relay.pushes env .up body, p.pushType = .alert ∧ p.token = token := by
  obtain ⟨hadmits, husable⟩ := (Bool.and_eq_true _ _).mp hready
  obtain ⟨r, l, hrun, hl⟩ := run_incomingCallWebhook_up husable body relay.server.fresh
  have hpushes : relay.pushes env .up body = l := by
    unfold Relay.pushes webhook
    rw [hevent, trim_event_call, if_neg (by simp [hadmits]), if_neg (by decide), if_pos rfl, hrun]
    rfl
  rw [hpushes]
  exact hl token h

end

end SyncServer.Notifications
