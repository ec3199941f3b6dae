import Mathlib.Algebra.Group.Int.Defs
import SyncServer.Accounts.Users
import SyncServer.Base.Clock
import SyncServer.Server

/-! # Deliveries to other servers

An activity is sent with the key of its actor, and the table of the deliveries keeps what became
of it. What the other server answers is an input.
-/

namespace SyncServer.Federation
open Transaction

/-- The libraries and the configuration of outgoing deliveries. -/
structure OutboxEnv where
  names : Accounts.NameEnv
  instanceDomain : String
  /-- The path of a URL. -/
  urlPath : String → Except String String
  /-- The text of a URL with another path, without query and fragment. -/
  withPath : String → String → String
  maxDeliveryAttempts : Int

/-! ## Names -/

def instanceBase (domain : String) : String := "https://" ++ domain

def actorUrl (domain username : String) : String := instanceBase domain ++ "/users/" ++ username

def keyId (domain username : String) : String := actorUrl domain username ++ "#main-key"

/-- `str::trim_end_matches` for a character. -/
def trimEndMatches (c : Char) (s : String) : String :=
  String.ofList (s.toList.reverse.dropWhile (· = c)).reverse

/-- `build_remote_inbox_url`. -/
def buildRemoteInboxUrl (env : OutboxEnv) (remoteServerUrl remoteUserId : String) :
    Except AppError String :=
  match env.urlPath (trim remoteServerUrl) with
  | .error e => .error (.badRequest ("Invalid recipient_server_url: " ++ e))
  | .ok path =>
    let normalizedUser := env.names.unicode.toLowercase (trim remoteUserId)
    if normalizedUser = "" then .error (.badRequest "recipient_id cannot be empty")
    else .ok (env.withPath (trim remoteServerUrl)
      (trimEndMatches '/' path ++ "/users/" ++ normalizedUser ++ "/inbox"))

/-! ## Keys of local actors -/

/-- A generated pair of keys, with the id of its row. -/
structure GeneratedKey where
  id : Uuid
  publicKeyPem : String
  privateKeyPkcs8 : String
deriving DecidableEq, Repr

/-- The row of a new key. -/
def GeneratedKey.row (env : OutboxEnv) (username : String) (g : GeneratedKey) :
    FederationActorKey :=
  ⟨g.id, username, keyId env.instanceDomain username, g.publicKeyPem, g.privateKeyPkcs8⟩

def actorKeyOf (username : String) (s : Db) : Option FederationActorKey :=
  s.federationActorKeys.rows.find? (fun k => k.actorUsername = username)

/-- `get_actor_key`. -/
def getActorKey (username : String) : Query (Option FederationActorKey) :=
  Tx.query (actorKeyOf username)

def addActorKey (row : FederationActorKey) (s : Db) : Except DbError (Unit × Db) :=
  if s.federationActorKeys.rows.any (fun k =>
      k.actorUsername = row.actorUsername || k.keyId = row.keyId) then .error .uniqueViolation
  else match s.federationActorKeys.insert row with
    | none => .error .uniqueViolation
    | some t =>
      if s.users.rows.any (fun u => u.username = row.actorUsername) then
        .ok ((), { s with federationActorKeys := t })
      else .error .foreignKeyViolation

/-- `ensure_actor_key`. -/
def ensureActorKey (row : FederationActorKey) : Query FederationActorKey := do
  let existing ← getActorKey row.actorUsername
  match existing with
  | some found => pure found
  | none => do
    Query.exec (fun _ => []) (addActorKey row)
    let found ← getActorKey row.actorUsername
    Tx.okOr (.database .notFound) found

/-- `ensure_actor_key_material`. -/
def ensureActorKeyMaterial (env : OutboxEnv) (username : String) (generated : GeneratedKey) :
    Query FederationActorKey := do
  let found ← getActorKey username
  match found with
  | some found => pure found
  | none => ensureActorKey (generated.row env username)

/-! ## Deliveries -/

def pendingAgain (r : FederationDelivery) : FederationDelivery :=
  { r with status := "pending", lastError := none, nextAttemptAt := none }

theorem pendingAgain_id (r : FederationDelivery) : (pendingAgain r).id = r.id := rfl

/-- The delivery of an activity to a destination. -/
def deliveryOf (activityId destination : String) (s : Db) : Option FederationDelivery :=
  s.federationDeliveries.rows.find? (fun r =>
    r.activityId = activityId && r.destination = destination)

def addDelivery (row : FederationDelivery) (s : Db) : Except DbError (Unit × Db) :=
  match deliveryOf row.activityId row.destination s with
  | some r => .ok ((), { s with
      federationDeliveries := s.federationDeliveries.update r.id pendingAgain pendingAgain_id })
  | none =>
    match s.federationDeliveries.insert row with
    | none => .error .uniqueViolation
    | some t =>
      if s.users.rows.any (fun u => u.username = row.senderUsername) then
        .ok ((), { s with federationDeliveries := t })
      else .error .foreignKeyViolation

/-- `upsert_delivery_pending`. -/
def upsertDeliveryPending (id : Uuid) (activityId senderUsername destination : String) :
    Query FederationDelivery := do
  Query.exec (fun _ => []) (addDelivery
    ⟨id, activityId, senderUsername, destination, "pending", 0, none, none, none⟩)
  let found ← Tx.query (deliveryOf activityId destination)
  Tx.okOr (.database .notFound) found

def delivered (now : Int) (r : FederationDelivery) : FederationDelivery :=
  { r with
    status := "delivered"
    attempts := r.attempts + 1
    deliveredAt := some now
    nextAttemptAt := none
    lastError := none }

theorem delivered_id (now : Int) (r : FederationDelivery) : (delivered now r).id = r.id := rfl

/-- `mark_delivery_success`. -/
def markDeliverySuccess (deliveryId : Uuid) (now : Int) : Query Unit :=
  Query.exec (fun _ => []) (fun s =>
    if (s.federationDeliveries.get deliveryId).all (fun r => decide (r.attempts < i32Max)) then
      .ok ((), { s with
        federationDeliveries :=
          s.federationDeliveries.update deliveryId (delivered now) (delivered_id now) })
    else .error .numericOutOfRange)

/-- What `mark_delivery_failure` sets, from the delivery that it has read. -/
def withFailure (delivery : FederationDelivery) (errorMessage : String) (maxAttempts now : Int)
    (r : FederationDelivery) : FederationDelivery :=
  let nextAttempt := i32 (delivery.attempts + 1)
  let status := if maxAttempts ≤ nextAttempt then "dead_letter" else "failed"
  let baseSecs : Int := 2 ^ (min nextAttempt 10).toNat
  let jitter : Int := delivery.id % 17
  { r with
    status := status
    attempts := nextAttempt
    lastError := some errorMessage
    nextAttemptAt := if status = "dead_letter" then none
      else some (now + Duration.seconds (baseSecs + jitter)) }

theorem withFailure_id (delivery : FederationDelivery) (errorMessage : String)
    (maxAttempts now : Int) (r : FederationDelivery) :
    (withFailure delivery errorMessage maxAttempts now r).id = r.id := rfl

/-- `mark_delivery_failure`. -/
def markDeliveryFailure (deliveryId : Uuid) (errorMessage : String) (maxAttempts now : Int) :
    Query Unit := do
  let found ← Tx.query (fun s => s.federationDeliveries.get deliveryId)
  let delivery ← Tx.okOr (.database .notFound) found
  Query.exec (fun _ => []) (fun s => .ok ((), { s with
    federationDeliveries := s.federationDeliveries.update deliveryId
      (withFailure delivery errorMessage maxAttempts now)
      (withFailure_id delivery errorMessage maxAttempts now) }))

/-- `permanent_failure_reason`. -/
def permanentFailureReason (status : Nat) : Option String :=
  if 400 ≤ status ∧ status < 500 ∧ status ≠ 429 then some "permanent remote 4xx response" else none

/-! ## Requests -/

/-- What comes of a signed request: an answer of the other server, or an error and its text, before
or after the request has been sent. -/
inductive PostOutcome where
  | answered (status : Nat)
  | failed (error : AppError) (text : String)
  | unsent (error : AppError) (text : String)
deriving DecidableEq, Repr

/-- `post_activity_signed`. -/
def postActivitySigned (destination keyId : String) (payload : Json) (outcome : PostOutcome) :
    Handler PostOutcome :=
  match outcome with
  | .unsent error text => pure (.unsent error text)
  | outcome => do
    send (.activity destination keyId payload)
    pure outcome

/-- The new row of a delivery, the outcome of its request, and the time after it. -/
structure Attempt where
  id : Uuid
  outcome : PostOutcome
  now : Int
deriving DecidableEq, Repr

def isSuccess (status : Nat) : Bool := 200 ≤ status && status < 300

def attemptLimit (env : OutboxEnv) (status : Nat) : Int :=
  if (permanentFailureReason status).isSome then 1 else env.maxDeliveryAttempts

def recordOutcome (env : OutboxEnv) (deliveryId : Uuid) (attempt : Attempt) : Query Unit :=
  match attempt.outcome with
  | .answered status =>
    if isSuccess status then markDeliverySuccess deliveryId attempt.now
    else markDeliveryFailure deliveryId ("remote status " ++ toString status)
      (attemptLimit env status) attempt.now
  | .failed _ text | .unsent _ text =>
    markDeliveryFailure deliveryId ("transport error: " ++ text) env.maxDeliveryAttempts attempt.now

/-- A delivery of an activity: it is made pending, the request is sent, and its outcome recorded. -/
def deliver (env : OutboxEnv) (key : FederationActorKey) (activityId senderUsername : String)
    (payload : Json) (destination : String) (attempt : Attempt) : Handler FederationDelivery := do
  let delivery ← onDb (upsertDeliveryPending attempt.id activityId senderUsername destination)
  let outcome ← postActivitySigned destination key.keyId payload attempt.outcome
  onDb (recordOutcome env delivery.id { attempt with outcome := outcome })
  pure delivery

def createActivity (env : OutboxEnv) (username : String) (activity object : Uuid) (content : String)
    (inboxes : List String) : String × Json :=
  let actor := actorUrl env.instanceDomain username
  let id := actor ++ "/activities/" ++ uuidString activity
  (id, Json.ofFields [
    ("@context", .string "https://www.w3.org/ns/activitystreams"),
    ("id", .string id),
    ("type", .string "Create"),
    ("actor", .string actor),
    ("object", Json.ofFields [
      ("id", .string (actor ++ "/objects/" ++ uuidString object)),
      ("type", .string "Note"),
      ("content", .string content)]),
    ("to", .array (inboxes.map Json.string))])

def usernameById (userId : Uuid) : Query String := do
  let found ← Accounts.findById userId
  let user ← Tx.okOr (.database .notFound) found
  pure user.username

/-- What a delivery takes from outside. -/
structure MintedActivity where
  key : GeneratedKey
  activity : Uuid
  object : Uuid
deriving DecidableEq, Repr

/-- `deliver_direct_message_to_remote`. -/
def deliverDirectMessageToRemote (env : OutboxEnv) (senderId : Uuid)
    (recipientId recipientServerUrl content : String) (new : MintedActivity) (attempt : Attempt) :
    Handler Unit := do
  let senderUsername ← onDb (usernameById senderId)
  let key ← onDb (ensureActorKeyMaterial env senderUsername new.key)
  let destination ← Tx.done (buildRemoteInboxUrl env recipientServerUrl recipientId)
  let activity := createActivity env senderUsername new.activity new.object content [destination]
  let _ ← deliver env key activity.1 senderUsername activity.2 destination attempt
  match attempt.outcome with
  | .answered status =>
    if isSuccess status then pure ()
    else throw (.badRequest
      ("Remote server rejected message with status " ++ toString status))
  | .failed error _ | .unsent error _ => throw error

/-! ## `POST /federation/send` -/

structure DeliveryResult where
  destination : String
  status : String
  attempts : Int
  detail : Option String
deriving DecidableEq, Repr

/-- What `send_to_remote` reports of a delivery. -/
def deliveryResult (destination : String) (delivery : FederationDelivery) (outcome : PostOutcome) :
    DeliveryResult :=
  match outcome with
  | .answered status =>
    if isSuccess status then ⟨destination, "delivered", i32 (delivery.attempts + 1), none⟩
    else ⟨destination, if (permanentFailureReason status).isSome then "dead_letter" else "failed",
      i32 (delivery.attempts + 1), some ("remote status " ++ toString status)⟩
  | .failed _ text | .unsent _ text =>
    ⟨destination, "failed", i32 (delivery.attempts + 1), some ("transport error: " ++ text)⟩

/-- A request to `send_to_remote`: the user, the body with the attempt for each inbox, and what
the delivery takes from outside. -/
structure SendCall where
  senderId : Uuid
  toInboxes : List (String × Attempt)
  content : String
  new : MintedActivity

/-- The loop of `send_to_remote`. -/
def deliverAll (env : OutboxEnv) (key : FederationActorKey) (activityId senderUsername : String)
    (payload : Json) : List (String × Attempt) → Handler (List DeliveryResult)
  | [] => pure []
  | (destination, attempt) :: rest => do
    let delivery ← deliver env key activityId senderUsername payload destination attempt
    let results ← deliverAll env key activityId senderUsername payload rest
    pure (deliveryResult destination delivery attempt.outcome :: results)

/-- `send_to_remote`. -/
def sendToRemote (env : OutboxEnv) (call : SendCall) : Handler (String × List DeliveryResult) := do
  Tx.done (require (call.toInboxes ≠ []) "to_inboxes cannot be empty")
  Tx.done (require (trim call.content ≠ "") "content cannot be empty")
  let senderUsername ← onDb (usernameById call.senderId)
  let key ← onDb (ensureActorKeyMaterial env senderUsername call.new.key)
  let activity := createActivity env senderUsername call.new.activity call.new.object call.content
    (call.toInboxes.map Prod.fst)
  let results ← deliverAll env key activity.1 senderUsername activity.2 call.toInboxes
  pure (activity.1, results)

/-! ## What the statements leave alone -/

section
variable {τ : Type} {π : Db → τ}

theorem keeps_usernameById (userId : Uuid) : (usernameById userId).Keeps π := by
  apply Tx.keeps_bind (Tx.keeps_query _ _)
  intro found
  exact Tx.keeps_bind (Tx.keeps_okOr _ _ _) (fun _ => Tx.keeps_pure _ _)

theorem keeps_ensureActorKeyMaterial (hπ : ∀ s t, π { s with federationActorKeys := t } = π s)
    (env : OutboxEnv) (username : String) (generated : GeneratedKey) :
    (ensureActorKeyMaterial env username generated).Keeps π := by
  apply Tx.keeps_bind (Tx.keeps_query _ _)
  intro found
  cases found with
  | some found => exact Tx.keeps_pure _ _
  | none =>
    apply Tx.keeps_bind (Tx.keeps_query _ _)
    intro existing
    cases existing with
    | some existing => exact Tx.keeps_pure _ _
    | none =>
      apply Tx.keeps_bind
      · refine Query.keeps_exec (fun s a s' h => ?_)
        unfold addActorKey at h
        split at h
        · cases h
        split at h
        · cases h
        split at h <;> cases h
        exact hπ s _
      · intro _
        exact Tx.keeps_bind (Tx.keeps_query _ _) (fun found => Tx.keeps_okOr _ _ found)

variable (hπ : ∀ s t, π { s with federationDeliveries := t } = π s)
include hπ

theorem keeps_upsertDeliveryPending (id : Uuid) (activityId senderUsername destination : String) :
    (upsertDeliveryPending id activityId senderUsername destination).Keeps π := by
  apply Tx.keeps_bind
  · refine Query.keeps_exec (fun s a s' h => ?_)
    unfold addDelivery at h
    split at h
    · cases h
      exact hπ s _
    split at h
    · cases h
    split at h <;> cases h
    exact hπ s _
  · intro _
    exact Tx.keeps_bind (Tx.keeps_query _ _) (fun found => Tx.keeps_okOr _ _ found)

theorem keeps_markDeliveryFailure (deliveryId : Uuid) (errorMessage : String)
    (maxAttempts now : Int) :
    (markDeliveryFailure deliveryId errorMessage maxAttempts now).Keeps π := by
  apply Tx.keeps_bind (Tx.keeps_query _ _)
  intro found
  apply Tx.keeps_bind (Tx.keeps_okOr _ _ found)
  intro delivery
  refine Query.keeps_exec (fun s a s' h => ?_)
  cases h
  exact hπ s _

theorem keeps_recordOutcome (env : OutboxEnv) (deliveryId : Uuid) (attempt : Attempt) :
    (recordOutcome env deliveryId attempt).Keeps π := by
  unfold recordOutcome
  split
  · split
    · refine Query.keeps_exec (fun s a s' h => ?_)
      split at h <;> cases h
      exact hπ s _
    · exact keeps_markDeliveryFailure hπ _ _ _ _
  · exact keeps_markDeliveryFailure hπ _ _ _ _
  · exact keeps_markDeliveryFailure hπ _ _ _ _

end

/-! ## Deliveries that are sent -/

def CanSign (env : OutboxEnv) (username : String) (d : Db) : Prop :=
  (actorKeyOf username d).isSome ∨
    ∀ k ∈ d.federationActorKeys.rows, k.keyId ≠ keyId env.instanceDomain username

section
variable {env : OutboxEnv} {username : String} {generated : GeneratedKey} {d : Db}

theorem addActorKey_ok {row : FederationActorKey} (hnone : actorKeyOf row.actorUsername d = none)
    (hname : ∀ k ∈ d.federationActorKeys.rows, k.keyId ≠ row.keyId)
    (hfree : d.federationActorKeys.get row.id = none)
    (hu : d.users.rows.any (fun u => u.username = row.actorUsername) = true) :
    ∃ t, addActorKey row d = .ok ((), { d with federationActorKeys := t }) ∧
      actorKeyOf row.actorUsername { d with federationActorKeys := t } = some row := by
  have hclash : d.federationActorKeys.rows.any (fun k =>
      k.actorUsername = row.actorUsername || k.keyId = row.keyId) = false := by
    rw [actorKeyOf, List.find?_eq_none] at hnone
    rw [List.any_eq_false]
    intro k hk
    have hactor := hnone k hk
    simpa [hname k hk] using hactor
  rcases ht : d.federationActorKeys.insert row with _ | t
  · have htaken := Table.insert_eq_none.mp ht
    rw [hfree] at htaken
    cases htaken
  refine ⟨t, ?_, ?_⟩
  · unfold addActorKey
    simp only [hclash, Bool.false_eq_true, if_false, ht, hu, if_true]
  · rw [actorKeyOf] at hnone ⊢
    change t.rows.find? _ = _
    rw [Table.rows_of_insert ht, List.find?_append, hnone]
    simp

theorem run_ensureActorKeyMaterial_found {key : FederationActorKey}
    (h : actorKeyOf username d = some key) (generated : GeneratedKey) :
    (ensureActorKeyMaterial env username generated).run d = (.ok key, d) := by
  unfold ensureActorKeyMaterial getActorKey
  rw [Tx.run_bind_ok (Tx.run_query _ _), h]
  rfl

theorem run_ensureActorKeyMaterial_key (generated : GeneratedKey) (h : CanSign env username d)
    (hfree : d.federationActorKeys.get generated.id = none)
    (hu : d.users.rows.any (fun u => u.username = username) = true) :
    ∃ key t, (ensureActorKeyMaterial env username generated).run d =
        (.ok key, { d with federationActorKeys := t }) ∧
      actorKeyOf username { d with federationActorKeys := t } = some key := by
  rcases hfind : actorKeyOf username d with _ | key
  · have hname := h.resolve_left (by simp [hfind])
    obtain ⟨t, hadd, hget⟩ : ∃ t, addActorKey (generated.row env username) d =
        .ok ((), { d with federationActorKeys := t }) ∧
      actorKeyOf username { d with federationActorKeys := t } =
        some (generated.row env username) := addActorKey_ok hfind hname hfree hu
    refine ⟨generated.row env username, t, ?_, hget⟩
    unfold ensureActorKeyMaterial getActorKey
    rw [Tx.run_bind_ok (Tx.run_query _ _), hfind]
    dsimp only
    unfold ensureActorKey getActorKey
    rw [Tx.run_bind_ok (Tx.run_query _ _), GeneratedKey.row, hfind]
    dsimp only
    rw [GeneratedKey.row] at hadd hget
    rw [Tx.run_bind_ok (Query.run_exec_ok.mpr hadd), Tx.run_bind_ok (Tx.run_query _ _), hget]
    rfl
  · exact ⟨key, _, run_ensureActorKeyMaterial_found hfind generated, hfind⟩

theorem run_ensureActorKeyMaterial (generated : GeneratedKey) (h : CanSign env username d)
    (hfree : d.federationActorKeys.get generated.id = none)
    (hu : d.users.rows.any (fun u => u.username = username) = true) :
    ∃ key t, (ensureActorKeyMaterial env username generated).run d =
      (.ok key, { d with federationActorKeys := t }) := by
  obtain ⟨key, t, hrun, -⟩ := run_ensureActorKeyMaterial_key generated h hfree hu
  exact ⟨key, t, hrun⟩

theorem run_ensureActorKeyMaterial_error (generated : GeneratedKey)
    (h : ¬ CanSign env username d) :
    ∃ e, (ensureActorKeyMaterial env username generated).run d = (.error e, d) := by
  obtain ⟨hnot, hname⟩ := not_or.mp h
  have hnone : actorKeyOf username d = none := by simpa using hnot
  push Not at hname
  obtain ⟨k, hk, hname⟩ := hname
  have hadd : addActorKey (generated.row env username) d = .error .uniqueViolation := by
    rw [addActorKey, if_pos]
    rw [List.any_eq_true]
    exact ⟨k, hk, by simp [hname, GeneratedKey.row]⟩
  refine ⟨.database .uniqueViolation, ?_⟩
  unfold ensureActorKeyMaterial getActorKey
  rw [Tx.run_bind_ok (Tx.run_query _ _), hnone]
  dsimp only
  unfold ensureActorKey getActorKey
  rw [GeneratedKey.row] at hadd ⊢
  rw [Tx.run_bind_ok (Tx.run_query _ _), hnone]
  dsimp only
  rw [Tx.run_bind_error (Query.run_exec_error hadd)]

theorem run_upsertDeliveryPending {id : Uuid} (activityId : String) {senderUsername : String}
    (destination : String) (hfree : (deliveryOf activityId destination d).isSome ∨
      d.federationDeliveries.get id = none)
    (hu : d.users.rows.any (fun u => u.username = senderUsername) = true) :
    ∃ delivery t, (upsertDeliveryPending id activityId senderUsername destination).run d =
      (.ok delivery, { d with federationDeliveries := t }) := by
  obtain ⟨t, delivery, hadd, hget⟩ : ∃ t delivery,
      addDelivery ⟨id, activityId, senderUsername, destination, "pending", 0, none, none, none⟩ d =
        .ok ((), { d with federationDeliveries := t }) ∧
      deliveryOf activityId destination { d with federationDeliveries := t } = some delivery := by
    unfold addDelivery
    rcases hold : deliveryOf activityId destination d with _ | r
    · rcases ht : d.federationDeliveries.insert ⟨id, activityId, senderUsername, destination,
          "pending", 0, none, none, none⟩ with _ | t
      · have htaken := Table.insert_eq_none.mp ht
        rw [hfree.resolve_left (by simp [hold])] at htaken
        cases htaken
      refine ⟨t, ⟨id, activityId, senderUsername, destination, "pending", 0, none, none, none⟩,
        ?_, ?_⟩
      · simp only [hu, if_true]
      · rw [deliveryOf] at hold ⊢
        change t.rows.find? _ = _
        rw [Table.rows_of_insert ht, List.find?_append, hold]
        simp
    · refine ⟨_, pendingAgain r, rfl, ?_⟩
      rw [deliveryOf] at hold ⊢
      change (d.federationDeliveries.rows.map _).find? _ = _
      have hsame : (fun x : FederationDelivery =>
          x.activityId = activityId && x.destination = destination) ∘
            (fun x => if x.id = r.id then pendingAgain x else x) =
          fun x => x.activityId = activityId && x.destination = destination := by
        funext x
        simp only [Function.comp_apply]
        split <;> rfl
      rw [List.find?_map, hsame, hold]
      simp
  refine ⟨delivery, t, ?_⟩
  rw [upsertDeliveryPending, Tx.run_bind_ok (Query.run_exec_ok.mpr hadd),
    Tx.run_bind_ok (Tx.run_query _ _), hget]
  rfl

end

theorem deliver_sends {env : OutboxEnv} {key : FederationActorKey}
    {activityId senderUsername destination : String} {attempt : Attempt} {s : Server}
    (hfree : s.db.federationDeliveries.get attempt.id = none)
    (hu : s.db.users.rows.any (fun u => u.username = senderUsername) = true) {status : Nat}
    (houtcome : attempt.outcome = .answered status) (payload : Json) :
    ((deliver env key activityId senderUsername payload destination attempt).run s).2.sent =
      s.sent ++ [.activity destination key.keyId payload] := by
  obtain ⟨delivery, t, hpending⟩ := run_upsertDeliveryPending activityId destination (.inr hfree) hu
  have hpost : ∀ s' : Server, (postActivitySigned destination key.keyId payload attempt.outcome).run s' =
      (.ok attempt.outcome, { s' with
        sent := s'.sent ++ [.activity destination key.keyId payload] }) := by
    intro s'
    rw [houtcome]
    rfl
  rw [deliver, Tx.run_bind_ok (run_onDb_eq hpending), Tx.run_bind_ok (hpost _)]
  have hkeeps : ((onDb (recordOutcome env delivery.id { attempt with outcome := attempt.outcome })) >>=
      fun _ => pure delivery : Handler FederationDelivery).Keeps Server.sent :=
    Tx.keeps_bind (keeps_sent _) (fun _ => Tx.keeps_pure _ _)
  exact hkeeps.run _

theorem run_usernameById {user : User} {d : Db} (hu : d.users.get user.id = some user) :
    (usernameById user.id).run d = (.ok user.username, d) := by
  rw [usernameById, Accounts.findById, Tx.run_bind_ok (Tx.run_query _ _), hu]
  rfl

theorem sendToRemote_sends {env : OutboxEnv} {s : Server} {user : User} (destination : String)
    (attempt : Attempt) (content : String) (new : MintedActivity)
    (hu : s.db.users.get user.id = some user) (hsign : CanSign env user.username s.db)
    (hcontent : trim content ≠ "") (hkey : s.db.federationActorKeys.get new.key.id = none)
    (hfree : s.db.federationDeliveries.get attempt.id = none) {status : Nat}
    (houtcome : attempt.outcome = .answered status) :
    ∃ keyId, ((sendToRemote env ⟨user.id, [(destination, attempt)], content, new⟩).run s).2.sent =
      s.sent ++ [.activity destination keyId (createActivity env user.username new.activity new.object
        content [destination]).2] := by
  have hname : s.db.users.rows.any (fun u => u.username = user.username) = true := by
    rw [List.any_eq_true]
    exact ⟨user, (Table.get_eq_some.mp hu).1, by simp⟩
  obtain ⟨key, t, hensure⟩ := run_ensureActorKeyMaterial new.key hsign hkey hname
  refine ⟨key.keyId, ?_⟩
  unfold sendToRemote
  simp only [require, hcontent, ne_eq, not_false_eq_true, decide_true, if_true, List.cons_ne_nil]
  rw [Tx.run_bind_ok (Tx.run_done _ _), Tx.run_bind_ok (Tx.run_done _ _),
    Tx.run_bind_ok (run_onDb_read (run_usernameById hu)), Tx.run_bind_ok (run_onDb_eq hensure)]
  -- what comes after the delivery only builds the answer
  refine (Tx.run_bind_keeps (π := Server.sent) _ (fun _ => Tx.keeps_pure _ _) _).trans ?_
  rw [deliverAll]
  refine (Tx.run_bind_keeps (π := Server.sent) _
    (fun _ => Tx.keeps_bind (Tx.keeps_pure _ _) (fun _ => Tx.keeps_pure _ _)) _).trans ?_
  exact deliver_sends (s := s.setDb { s.db with federationActorKeys := t }) hfree hname houtcome _

theorem sendToRemote_unsigned {env : OutboxEnv} {s : Server} {user : User} {call : SendCall}
    (hu : s.db.users.get user.id = some user) (hcall : call.senderId = user.id)
    (hsign : ¬ CanSign env user.username s.db) :
    ((sendToRemote env call).run s).2.sent = s.sent := by
  obtain ⟨e, hensure⟩ := run_ensureActorKeyMaterial_error call.new.key hsign
  unfold sendToRemote
  rw [hcall]
  rcases require (call.toInboxes ≠ []) "to_inboxes cannot be empty" with _ | ⟨⟩
  · rfl
  rcases require (trim call.content ≠ "") "content cannot be empty" with _ | ⟨⟩
  · rfl
  rw [Tx.run_bind_ok (Tx.run_done _ _), Tx.run_bind_ok (Tx.run_done _ _),
    Tx.run_bind_ok (run_onDb_read (run_usernameById hu)), Tx.run_bind_error (run_onDb_read hensure)]

end SyncServer.Federation
