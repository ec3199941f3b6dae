import SyncServer.Federation.Outbox
import SyncServer.Transaction.Autocommit

/-! # Deliveries and their retries, interleaved

Any number of requests that send activities, or record the failure of deliveries that are due,
one statement at a time. If no statement changes a delivery that is delivered or given up, and
a failure is recorded with the attempts that are in the table, then the columns of every
delivery agree with its status and with the attempts that were made.
-/

namespace SyncServer.Federation
open Transaction Autocommit

/-! ## The retry of deliveries -/

/-- `deliveries_due_for_retry`. -/
def deliveriesDueForRetry (now : Int) : Query (List FederationDelivery) :=
  Tx.query (fun s => s.federationDeliveries.rows.filter (fun r =>
    r.status = "failed" && r.nextAttemptAt.any (fun t => t ≤ now)))

/-- A request to `retry_due_deliveries`: the clock, also when a failure is recorded. -/
structure RetryCall where
  now : Int
  markedAt : Uuid → Int

def retryMessage : Option FederationActorKey → String
  | none => "missing local actor key"
  | some key => "retry payload unavailable for " ++ key.keyId

def retryDelivery (env : OutboxEnv) (call : RetryCall) (d : FederationDelivery) : Query Bool := do
  let key ← getActorKey d.senderUsername
  markDeliveryFailure d.id (retryMessage key) env.maxDeliveryAttempts (call.markedAt d.id)
  pure key.isSome

/-- The loop of `retry_due_deliveries`. -/
def retryAll (env : OutboxEnv) (call : RetryCall) : List FederationDelivery → Query Nat
  | [] => pure 0
  | d :: rest => do
    let counted ← retryDelivery env call d
    let retried ← retryAll env call rest
    pure (if counted then retried + 1 else retried)

/-- `retry_due_deliveries`. -/
def retryDueDeliveries (env : OutboxEnv) (call : RetryCall) : Handler Nat := do
  let due ← onDb (deliveriesDueForRetry call.now)
  onDb (retryAll env call due)

inductive DeliveryRequest where
  | send (call : SendCall)
  | retryDue (call : RetryCall)

def DeliveryRequest.handler (env : OutboxEnv) : DeliveryRequest → Handler Unit
  | .send call => sendToRemote env call >>= fun _ => pure ()
  | .retryDue call => retryDueDeliveries env call >>= fun _ => pure ()

/-! ## The phases of the handlers -/

/-- What `send_to_remote` has made of its request. -/
structure SendJob where
  key : FederationActorKey
  activityId : String
  senderUsername : String
  payload : Json

/-- The statements in front of the loop of `send_to_remote`. -/
def prepareSend (env : OutboxEnv) (call : SendCall) : Query (String × FederationActorKey) := do
  let senderUsername ← usernameById call.senderId
  let key ← ensureActorKeyMaterial env senderUsername call.new.key
  pure (senderUsername, key)

def SendCall.job (env : OutboxEnv) (call : SendCall) (prepared : String × FederationActorKey) :
    SendJob :=
  let activity := createActivity env prepared.1 call.new.activity call.new.object call.content
    (call.toInboxes.map Prod.fst)
  ⟨prepared.2, activity.1, prepared.1, activity.2⟩

/-- The row of a new delivery. -/
def SendJob.row (job : SendJob) (destination : String) (attempt : Attempt) : FederationDelivery :=
  ⟨attempt.id, job.activityId, job.senderUsername, destination, "pending", 0, none, none, none⟩

inductive Todo where
  | send (job : SendJob) (rest : List (String × Attempt))
  | retry (call : RetryCall) (rest : List FederationDelivery)

inductive DeliveryPhase : Type 1 where
  | prepare (call : SendCall) {ρ : Type} (locks : Db → List RowLock) (write : Db → Db)
      (answer : Db → ρ) (next : ρ → Query (String × FederationActorKey))
      (keeps : (Tx.stmt locks write answer next).Keeps Db.federationDeliveries)
  | upsert (job : SendJob) (destination : String) (attempt : Attempt)
      (rest : List (String × Attempt))
  | readBack (job : SendJob) (destination : String) (attempt : Attempt)
      (rest : List (String × Attempt))
  | post (job : SendJob) (destination : String) (attempt : Attempt) (deliveryId : Uuid)
      (rest : List (String × Attempt))
  | succeed (deliveryId : Uuid) (now : Int) (todo : Todo)
  | readFailed (deliveryId : Uuid) (message : String) (permanent : Bool) (now : Int) (todo : Todo)
  | fail (delivery : FederationDelivery) (message : String) (permanent : Bool) (now : Int)
      (todo : Todo)
  | loadDue (call : RetryCall)
  | lookupKey (call : RetryCall) (d : FederationDelivery) (rest : List FederationDelivery)
  | done (result : Except AppError Unit)

def limitOf (env : OutboxEnv) (permanent : Bool) : Int :=
  if permanent then 1 else env.maxDeliveryAttempts

/-- The loop of `send_to_remote` without its results. -/
def deliverEach (env : OutboxEnv) (job : SendJob) : List (String × Attempt) → Handler Unit
  | [] => pure ()
  | (destination, attempt) :: rest =>
    deliver env job.key job.activityId job.senderUsername job.payload destination attempt >>=
      fun _ => deliverEach env job rest

/-- The loop of `retry_due_deliveries` without its count. -/
def retryEach (env : OutboxEnv) (call : RetryCall) : List FederationDelivery → Handler Unit
  | [] => pure ()
  | d :: rest => onDb (retryDelivery env call d) >>= fun _ => retryEach env call rest

def Todo.program (env : OutboxEnv) : Todo → Handler Unit
  | send job rest => deliverEach env job rest
  | retry call rest => retryEach env call rest

/-- The last statement of `mark_delivery_failure`. -/
def setFailure (delivery : FederationDelivery) (message : String) (maxAttempts now : Int) :
    Query Unit :=
  Query.exec (fun _ => []) (fun s => .ok ((), { s with
    federationDeliveries := s.federationDeliveries.update delivery.id
      (withFailure delivery message maxAttempts now)
      (withFailure_id delivery message maxAttempts now) }))

namespace DeliveryPhase

/-- What is left of a handler. -/
def program (env : OutboxEnv) : DeliveryPhase → Handler Unit
  | prepare call locks write answer next _ =>
    onDb (.stmt locks write answer next) >>= fun prepared =>
      deliverEach env (call.job env prepared) call.toInboxes
  | upsert job destination attempt rest => deliverEach env job ((destination, attempt) :: rest)
  | readBack job destination attempt rest =>
    onDb (Tx.query (deliveryOf job.activityId destination)) >>= fun found =>
      onDb (Tx.okOr (.database .notFound) found) >>= fun delivery =>
        postActivitySigned destination job.key.keyId job.payload attempt.outcome >>= fun outcome =>
          onDb (recordOutcome env delivery.id { attempt with outcome := outcome }) >>= fun _ =>
            deliverEach env job rest
  | post job destination attempt deliveryId rest =>
    send (.activity destination job.key.keyId job.payload) >>= fun _ =>
      onDb (recordOutcome env deliveryId attempt) >>= fun _ => deliverEach env job rest
  | succeed deliveryId now todo =>
    onDb (markDeliverySuccess deliveryId now) >>= fun _ => todo.program env
  | readFailed deliveryId message permanent now todo =>
    onDb (markDeliveryFailure deliveryId message (limitOf env permanent) now) >>= fun _ =>
      todo.program env
  | fail delivery message permanent now todo =>
    onDb (setFailure delivery message (limitOf env permanent) now) >>= fun _ => todo.program env
  | loadDue call => retryDueDeliveries env call >>= fun _ => pure ()
  | lookupKey call d rest => retryEach env call (d :: rest)
  | done result => .done result

end DeliveryPhase

def Todo.phase : Todo → DeliveryPhase
  | send _ [] => .done (.ok ())
  | send job ((destination, attempt) :: rest) => .upsert job destination attempt rest
  | retry _ [] => .done (.ok ())
  | retry call (d :: rest) => .lookupKey call d rest

/-- The phase in front of the loop of `send_to_remote`. -/
def prepared (env : OutboxEnv) (call : SendCall) :
    (q : Query (String × FederationActorKey)) → q.Keeps Db.federationDeliveries → DeliveryPhase
  | .done (.ok prepared), _ => (Todo.send (call.job env prepared) call.toInboxes).phase
  | .done (.error e), _ => .done (.error e)
  | .stmt locks write answer next, keeps => .prepare call locks write answer next keeps

def recording (deliveryId : Uuid) (attempt : Attempt) (todo : Todo) : DeliveryPhase :=
  match attempt.outcome with
  | .answered status =>
    if isSuccess status then .succeed deliveryId attempt.now todo
    else .readFailed deliveryId ("remote status " ++ toString status)
      (permanentFailureReason status).isSome attempt.now todo
  | .failed _ text | .unsent _ text =>
    .readFailed deliveryId ("transport error: " ++ text) false attempt.now todo

def posting (job : SendJob) (destination : String) (attempt : Attempt) (deliveryId : Uuid)
    (rest : List (String × Attempt)) : DeliveryPhase :=
  match attempt.outcome with
  | .unsent _ _ => recording deliveryId attempt (.send job rest)
  | _ => .post job destination attempt deliveryId rest

/-- One statement of a handler. -/
def DeliveryPhase.next (env : OutboxEnv) : DeliveryPhase → Server → Option (DeliveryPhase × Server)
  | prepare call _ write answer next keeps, s =>
    some (prepared env call (next (answer s.db)) (Tx.keeps_next keeps _), s.setDb (write s.db))
  | upsert job destination attempt rest, s =>
    match addDelivery (job.row destination attempt) s.db with
    | .error e => some (.done (.error (.database e)), s)
    | .ok (_, d) => some (.readBack job destination attempt rest, s.setDb d)
  | readBack job destination attempt rest, s =>
    match deliveryOf job.activityId destination s.db with
    | none => some (.done (.error (.database .notFound)), s)
    | some delivery => some (posting job destination attempt delivery.id rest, s)
  | post job destination attempt deliveryId rest, s =>
    some (recording deliveryId attempt (.send job rest),
      { s with sent := s.sent ++ [.activity destination job.key.keyId job.payload] })
  | succeed deliveryId now todo, s =>
    if (s.db.federationDeliveries.get deliveryId).all (fun r => decide (r.attempts < i32Max)) then
      some (todo.phase, s.setDb { s.db with
        federationDeliveries :=
          s.db.federationDeliveries.update deliveryId (delivered now) (delivered_id now) })
    else some (.done (.error (.database .numericOutOfRange)), s)
  | readFailed deliveryId message permanent now todo, s =>
    match s.db.federationDeliveries.get deliveryId with
    | none => some (.done (.error (.database .notFound)), s)
    | some delivery => some (.fail delivery message permanent now todo, s)
  | fail delivery message permanent now todo, s =>
    some (todo.phase, s.setDb { s.db with
      federationDeliveries := s.db.federationDeliveries.update delivery.id
        (withFailure delivery message (limitOf env permanent) now)
        (withFailure_id delivery message (limitOf env permanent) now) })
  | loadDue call, s =>
    some ((Todo.retry call (s.db.federationDeliveries.rows.filter (fun r =>
      r.status = "failed" && r.nextAttemptAt.any (fun t => t ≤ call.now)))).phase, s)
  | lookupKey call d rest, s =>
    some (.readFailed d.id (retryMessage (actorKeyOf d.senderUsername s.db)) false
      (call.markedAt d.id) (.retry call rest), s)
  | done _, _ => none

/-! ## The phases are those of the handlers -/

theorem deliverAll_eq (env : OutboxEnv) (job : SendJob) (rest : List (String × Attempt)) :
    (deliverAll env job.key job.activityId job.senderUsername job.payload rest >>= fun _ =>
      (pure () : Handler Unit)) = deliverEach env job rest := by
  induction rest with
  | nil => rfl
  | cons first rest ih =>
    rw [deliverAll, deliverEach, Tx.bind_assoc, ← ih]
    congr 1
    funext delivery
    rw [Tx.bind_assoc]
    rfl

theorem retryAll_eq (env : OutboxEnv) (call : RetryCall) (rest : List FederationDelivery) :
    (onDb (retryAll env call rest) >>= fun _ => (pure () : Handler Unit)) =
      retryEach env call rest := by
  induction rest with
  | nil => rfl
  | cons d rest ih =>
    rw [retryAll, retryEach, onDb_bind, Tx.bind_assoc, ← ih]
    congr 1
    funext counted
    rw [onDb_bind, Tx.bind_assoc]
    rfl

theorem program_phase (env : OutboxEnv) (todo : Todo) :
    todo.phase.program env = todo.program env := by
  cases todo with
  | send job rest =>
    cases rest with
    | nil => rfl
    | cons first rest => rfl
  | retry call rest =>
    cases rest with
    | nil => rfl
    | cons d rest => rfl

theorem program_prepared (env : OutboxEnv) (call : SendCall)
    (q : Query (String × FederationActorKey)) (h : q.Keeps Db.federationDeliveries) :
    (prepared env call q h).program env =
      onDb q >>= fun prepared => deliverEach env (call.job env prepared) call.toInboxes := by
  cases q with
  | done r =>
    cases r with
    | ok x => exact program_phase env _
    | error e => rfl
  | stmt locks write answer next => rfl

theorem program_recording (env : OutboxEnv) (deliveryId : Uuid) (attempt : Attempt) (todo : Todo) :
    (recording deliveryId attempt todo).program env =
      onDb (recordOutcome env deliveryId attempt) >>= fun _ => todo.program env := by
  unfold recording recordOutcome
  cases attempt.outcome with
  | answered status =>
    dsimp only
    split <;> rfl
  | failed error text => rfl
  | unsent error text => rfl

theorem program_posting (env : OutboxEnv) (job : SendJob) (destination : String)
    (attempt : Attempt) (deliveryId : Uuid) (rest : List (String × Attempt)) :
    (posting job destination attempt deliveryId rest).program env =
      postActivitySigned destination job.key.keyId job.payload attempt.outcome >>= fun outcome =>
        onDb (recordOutcome env deliveryId { attempt with outcome := outcome }) >>= fun _ =>
          deliverEach env job rest := by
  unfold posting postActivitySigned
  obtain ⟨id, outcome, now⟩ := attempt
  cases outcome with
  | answered status =>
    change _ = (send _ >>= fun _ => pure _) >>= _
    rw [Tx.bind_assoc]
    rfl
  | failed error text =>
    change _ = (send _ >>= fun _ => pure _) >>= _
    rw [Tx.bind_assoc]
    rfl
  | unsent error text => exact program_recording env deliveryId _ _

section
variable {α β : Type} (s : Server)

theorem step_onDb_query (q : Db → α) (k : α → Handler β) :
    (onDb (Tx.query q) >>= k).step s = some (k (q s.db), s) := rfl

theorem step_onDb_exec (locks : Db → List RowLock) (f : Db → Except DbError (α × Db))
    (k : α → Handler β) :
    (onDb (Query.exec locks f) >>= k).step s =
      match f s.db with
      | .error e => some (.done (.error (.database e)), s)
      | .ok (a, d) => some (k a, s.setDb d) := by
  rcases h : f s.db with e | ⟨a, d⟩
  all_goals
    change some (Tx.bind (Tx.onPart _ _ (Tx.done (Tx.outcome _ s.db))) k, s.setDb (Tx.effect _ s.db)) = _
    simp only [Tx.outcome, Tx.effect, h]
    rfl

end

theorem DeliveryPhase.step_program (env : OutboxEnv) (f : DeliveryPhase) (s : Server) :
    (f.program env).step s = (f.next env s).map (Prod.map (DeliveryPhase.program env) id) := by
  cases f with
  | prepare call locks write answer next keeps =>
    exact congrArg (fun t => some (t, s.setDb (write s.db)))
      (program_prepared env call (next (answer s.db)) (Tx.keeps_next keeps _)).symm
  | upsert job destination attempt rest =>
    rw [program, deliverEach, deliver, upsertDeliveryPending, onDb_bind, Tx.bind_assoc,
      Tx.bind_assoc, step_onDb_exec, DeliveryPhase.next, SendJob.row]
    rcases addDelivery _ s.db with e | ⟨⟨⟩, d⟩
    · rfl
    · have hrest : (onDb (Tx.query (deliveryOf job.activityId destination) >>= fun found =>
          Tx.okOr (.database .notFound) found) >>= fun delivery =>
            (postActivitySigned destination job.key.keyId job.payload attempt.outcome >>=
              fun outcome => onDb (recordOutcome env delivery.id { attempt with outcome := outcome })
                >>= fun _ => pure delivery) >>= fun _ => deliverEach env job rest) =
          (readBack job destination attempt rest).program env := by
        rw [onDb_bind, Tx.bind_assoc, program]
        congr 1
        funext found
        congr 1
        funext delivery
        rw [Tx.bind_assoc]
        congr 1
        funext outcome
        rw [Tx.bind_assoc]
        rfl
      exact congrArg (fun t => some (t, s.setDb d)) hrest
  | readBack job destination attempt rest =>
    rw [DeliveryPhase.next, program, step_onDb_query]
    rcases deliveryOf job.activityId destination s.db with _ | delivery
    · rfl
    · exact congrArg (fun t => some (t, s)) (program_posting env job destination attempt _ rest).symm
  | post job destination attempt deliveryId rest =>
    exact congrArg (fun t => some (t, { s with
      sent := s.sent ++ [Outgoing.activity destination job.key.keyId job.payload] }))
        (program_recording env deliveryId attempt (.send job rest)).symm
  | succeed deliveryId now todo =>
    rw [program, markDeliverySuccess, step_onDb_exec, DeliveryPhase.next]
    by_cases hroom : (s.db.federationDeliveries.get deliveryId).all
        (fun r => decide (r.attempts < i32Max)) = true
    · rw [if_pos hroom, if_pos hroom]
      exact congrArg (fun t => some (t, _)) (program_phase env todo).symm
    · rw [if_neg hroom, if_neg hroom]
      rfl
  | readFailed deliveryId message permanent now todo =>
    rw [program, markDeliveryFailure, onDb_bind, Tx.bind_assoc, step_onDb_query,
      DeliveryPhase.next]
    rcases hfound : s.db.federationDeliveries.get deliveryId with _ | delivery
    · rfl
    · have hid : delivery.id = deliveryId := Table.key_of_get hfound
      rw [← hid]
      rfl
  | fail delivery message permanent now todo =>
    exact congrArg (fun t => some (t, _)) (program_phase env todo).symm
  | loadDue call =>
    rw [program, retryDueDeliveries, Tx.bind_assoc, deliveriesDueForRetry, step_onDb_query,
      DeliveryPhase.next, retryAll_eq]
    exact congrArg (fun t => some (t, s)) (program_phase env (.retry call _)).symm
  | lookupKey call d rest =>
    rw [program, retryEach, retryDelivery, onDb_bind, Tx.bind_assoc, getActorKey, step_onDb_query,
      DeliveryPhase.next, onDb_bind, Tx.bind_assoc]
    rfl
  | done result => rfl

def deliveryPhases (env : OutboxEnv) : Phases DeliveryPhase Server RowLock AppError Unit :=
  ⟨DeliveryPhase.program env, DeliveryPhase.next env, DeliveryPhase.step_program env⟩

theorem keeps_prepareSend (env : OutboxEnv) (call : SendCall) :
    (prepareSend env call).Keeps Db.federationDeliveries := by
  apply Tx.keeps_bind (keeps_usernameById _)
  intro senderUsername
  apply Tx.keeps_bind (keeps_ensureActorKeyMaterial (fun _ _ => rfl) env _ _)
  exact fun _ => Tx.keeps_pure _ _

/-- The checks of `send_to_remote`. -/
def checkSend (call : SendCall) : Except AppError Unit := do
  require (call.toInboxes ≠ []) "to_inboxes cannot be empty"
  require (trim call.content ≠ "") "content cannot be empty"

def DeliveryRequest.phase (env : OutboxEnv) : DeliveryRequest → DeliveryPhase
  | send call =>
    match checkSend call with
    | .error e => .done (.error e)
    | .ok () => prepared env call (prepareSend env call) (keeps_prepareSend env call)
  | retryDue call => .loadDue call

theorem program_request (env : OutboxEnv) (request : DeliveryRequest) :
    (request.phase env).program env = request.handler env := by
  cases request with
  | retryDue call => rfl
  | send call =>
    rw [DeliveryRequest.handler, sendToRemote, DeliveryRequest.phase, checkSend]
    rcases require (call.toInboxes ≠ []) "to_inboxes cannot be empty" with e | ⟨⟩
    · rfl
    rcases require (trim call.content ≠ "") "content cannot be empty" with e | ⟨⟩
    · rfl
    rw [ok_bind]
    dsimp only
    rw [program_prepared, prepareSend, onDb_bind, Tx.bind_assoc]
    change _ = (onDb (usernameById call.senderId) >>= fun senderUsername =>
      onDb (ensureActorKeyMaterial env senderUsername call.new.key) >>= fun key =>
        deliverAll env key _ _ _ _ >>= fun _ => pure _) >>= _
    rw [Tx.bind_assoc]
    congr 1
    funext senderUsername
    rw [onDb_bind, Tx.bind_assoc, Tx.bind_assoc]
    congr 1
    funext key
    rw [Tx.bind_assoc]
    exact (deliverAll_eq env (call.job env (senderUsername, key)) call.toInboxes).symm

end SyncServer.Federation
