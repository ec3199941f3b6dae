import SyncServer.Calls.Service
import SyncServer.Server

/-! # Sessions

A session is a WebSocket connection of a user. It serves the events that its client sends, one
after another, and remembers the call that it takes part in, which it ends when the connection
is lost. The statuses of the calls are shared by all sessions; what a session remembers is its
own.
-/

namespace SyncServer.Calls
open Transaction Accounts

/-- The events of a client. -/
inductive ClientEvent where
  | ping
  | typing (partnerId : Uuid) (isTyping : Bool)
  | callOffer (calleeId : Uuid) (callType sdpOffer : String)
  | callAnswer (callId callerId : Uuid) (sdpAnswer : String)
  | callReject (callId callerId : Uuid)
  | callHangup (callId peerId : Uuid)
  | iceCandidate (callId peerId : Uuid) (candidate : String) (sdpMid : Option String)
      (sdpMlineIndex : Option Nat)
deriving DecidableEq, Repr

/-- What `run_ws_session` keeps: whether there is a connection for publishing, and the call and
the peer that are cleaned up after the loop. -/
structure Session where
  userId : Uuid
  publishes : Bool
  activeCall : Option (Uuid × Uuid)
deriving DecidableEq, Repr

/-- What the server takes from outside while it serves an event: the time, an id for a new call,
and whether the answer reaches the client. -/
structure Moment where
  now : Int
  callId : Uuid
  delivered : Bool
deriving DecidableEq, Repr

/-- Publish an event to the mailbox of a user. -/
def relay (session : Session) (channel : Uuid) (event : Event) : Handler Unit :=
  if session.publishes then send (.publish channel event) else pure ()

def updateStatusBy (callId : Uuid) (newStatus : Option String) (now : Int) : Query Unit :=
  match newStatus with
  | some newStatus => updateStatus callId newStatus now
  | none => pure ()

/-- What the sessions do on a signal for a call: they check that the user takes part in the call,
set its status, and pass the signal on to the user that the client names. -/
def signal (session : Session) (callId peer : Uuid) (newStatus : Option String)
    (activeCall : Option (Uuid × Uuid)) (event : Event) (now : Int) : Handler Session := do
  let participant ← onDb (isCallParticipant callId session.userId)
  if ¬ participant then pure session
  else do
    let _ ← Tx.attempt (onDb (updateStatusBy callId newStatus now))
    relay session peer event
    pure { session with activeCall := activeCall }

/-- `CallAnswer`. -/
def callAnswer (session : Session) (callId callerId : Uuid) (sdpAnswer : String) (now : Int) :
    Handler Session :=
  signal session callId callerId (some "answered") (some (callId, callerId))
    (.callAnswered callId session.userId sdpAnswer) now

/-- `CallReject`. -/
def callReject (session : Session) (callId callerId : Uuid) (now : Int) : Handler Session :=
  signal session callId callerId (some "rejected") none (.callRejected callId session.userId) now

/-- `CallHangup`. -/
def callHangup (session : Session) (callId peerId : Uuid) (now : Int) : Handler Session :=
  signal session callId peerId (some "ended") none (.callHangup callId session.userId) now

/-- `IceCandidate`. -/
def iceCandidate (session : Session) (callId peerId : Uuid) (candidate : String)
    (sdpMid : Option String) (sdpMlineIndex : Option Nat) (now : Int) : Handler Session :=
  signal session callId peerId none session.activeCall
    (.iceCandidate callId session.userId candidate sdpMid sdpMlineIndex) now

/-- What `CallOffer` does with a new call, once the client knows of it. -/
def announceCall (session : Session) (callId calleeId : Uuid) (callType sdpOffer : String) :
    Handler Session := do
  let session := { session with activeCall := some (callId, calleeId) }
  relay session calleeId (.incomingCall callId session.userId callType sdpOffer)
  let caller ← onDb (findById session.userId)
  let callerDisplayName := (caller.map User.username).getD ""
  send (.push calleeId (.incomingCall session.userId callerDisplayName callId callType))
  pure session

/-- `CallOffer`; there is no session if the client cannot be told of the call. -/
def callOffer (session : Session) (calleeId : Uuid) (callType sdpOffer : String) (at_ : Moment) :
    Handler (Option Session) := do
  let record ← Tx.attempt (onDb (create at_.callId session.userId calleeId callType))
  match record with
  | .error _ => pure (some session)
  | .ok record =>
    if at_.delivered then do
      let session ← announceCall session record.id calleeId callType sdpOffer
      pure (some session)
    else pure none

def handleEvent (session : Session) (event : ClientEvent) (at_ : Moment) :
    Handler (Option Session) :=
  match event with
  | .ping => pure (if at_.delivered then some session else none)
  | .typing partnerId isTyping => do
    relay session partnerId (.typing session.userId partnerId isTyping)
    pure (some session)
  | .callOffer calleeId callType sdpOffer => callOffer session calleeId callType sdpOffer at_
  | .callAnswer callId callerId sdpAnswer =>
    some <$> callAnswer session callId callerId sdpAnswer at_.now
  | .callReject callId callerId => some <$> callReject session callId callerId at_.now
  | .callHangup callId peerId => some <$> callHangup session callId peerId at_.now
  | .iceCandidate callId peerId candidate sdpMid sdpMlineIndex =>
    some <$> iceCandidate session callId peerId candidate sdpMid sdpMlineIndex at_.now

/-- What `run_ws_session` does after the loop. -/
def cleanUp (session : Session) (now : Int) : Handler Unit :=
  match session.activeCall with
  | none => pure ()
  | some (callId, peerId) => do
    let _ ← Tx.attempt (onDb (updateStatus callId "ended" now))
    relay session peerId (.callHangup callId session.userId)

/-- An event of the client, and the end of the session if it comes to that. -/
def serve (session : Session) (event : ClientEvent) (at_ : Moment) : Handler (Option Session) := do
  let next ← handleEvent session event at_
  match next with
  | some session => pure (some session)
  | none => do
    cleanUp session at_.now
    pure none

/-! ## All sessions -/

/-- The server with its sessions. -/
structure Live where
  server : Server
  sessions : Nat → Option Session

inductive Step where
  | connect (sid : Nat) (userId : Uuid) (publishes : Bool)
  | event (sid : Nat) (event : ClientEvent) (at_ : Moment)
  | disconnect (sid : Nat) (now : Int)
deriving DecidableEq, Repr

namespace Live

def records (live : Live) : Records := live.server.db.callRecords

/-- A session connects under a number that is free, serves an event, or loses its connection. -/
def step (live : Live) : Step → Live
  | .connect sid userId publishes =>
    match live.sessions sid with
    | none => { live with
        sessions := Function.update live.sessions sid (some ⟨userId, publishes, none⟩) }
    | some _ => live
  | .event sid event at_ =>
    match live.sessions sid with
    | none => live
    | some session =>
      match (serve session event at_).run live.server with
      | (.ok next, server) => ⟨server, Function.update live.sessions sid next⟩
      | (.error _, server) => ⟨server, live.sessions⟩
  | .disconnect sid now =>
    match live.sessions sid with
    | none => live
    | some session =>
      ⟨((cleanUp session now).run live.server).2, Function.update live.sessions sid none⟩

def run (live : Live) (steps : List Step) : Live := steps.foldl step live

@[simp] theorem run_nil (live : Live) : live.run [] = live := rfl

@[simp] theorem run_cons (live : Live) (step : Step) (steps : List Step) :
    live.run (step :: steps) = (live.step step).run steps := rfl

theorem run_append (live : Live) (steps steps' : List Step) :
    live.run (steps ++ steps') = (live.run steps).run steps' := List.foldl_append

/-- Every step of a run meets a condition on the state that it finds. -/
def Throughout (P : Live → Step → Prop) : Live → List Step → Prop
  | _, [] => True
  | live, step :: steps => P live step ∧ Throughout P (live.step step) steps

instance Throughout.decidable (P : Live → Step → Prop) [∀ live step, Decidable (P live step)] :
    (live : Live) → (steps : List Step) → Decidable (Throughout P live steps)
  | _, [] => isTrue trivial
  | live, step :: steps =>
    haveI := Throughout.decidable P (live.step step) steps
    inferInstanceAs (Decidable (P live step ∧ Throughout P (live.step step) steps))

theorem Throughout.run {P : Live → Step → Prop} {R : Live → Live → Prop} (hrefl : ∀ live, R live live)
    (htrans : ∀ {a b c}, R a b → R b c → R a c) (hstep : ∀ live step, P live step → R live (live.step step))
    {live : Live} {steps : List Step} (h : Throughout P live steps) : R live (live.run steps) := by
  induction steps generalizing live with
  | nil => exact hrefl live
  | cons step steps ih => exact htrans (hstep live step h.1) (ih h.2)

theorem Throughout.append {P : Live → Step → Prop} {live : Live} {steps steps' : List Step}
    (h : Throughout P live (steps ++ steps')) :
    Throughout P live steps ∧ Throughout P (live.run steps) steps' := by
  induction steps generalizing live with
  | nil => exact ⟨trivial, h⟩
  | cons step steps ih =>
    obtain ⟨hbefore, hafter⟩ := ih h.2
    exact ⟨⟨h.1, hbefore⟩, hafter⟩

end Live

/-! ## What an event does -/

def relayed (session : Session) (channel : Uuid) (event : Event) (s : Server) : Server :=
  if session.publishes then { s with sent := s.sent ++ [.publish channel event] } else s

theorem run_relay (session : Session) (channel : Uuid) (event : Event) (s : Server) :
    (relay session channel event).run s = (.ok (), relayed session channel event s) := by
  unfold relay relayed
  split <;> rfl

@[simp] theorem relayed_db (session : Session) (channel : Uuid) (event : Event) (s : Server) :
    (relayed session channel event s).db = s.db := by
  unfold relayed
  split <;> rfl

theorem run_updateStatus {newStatus : String}
    (h : newStatus = "answered" ∨ newStatus ∈ CallRecord.finalStatuses) (callId : Uuid) (now : Int)
    (d : Db) : (updateStatus callId newStatus now).run d = (.ok (), setStatus callId newStatus now d) := by
  rw [updateStatus, if_pos h]
  rfl

theorem run_signal_outsider {session : Session} {callId : Uuid} {s : Server}
    (h : (s.db.callRecords.get callId).any (·.hasParticipant session.userId) = false) (peer : Uuid)
    (newStatus : Option String) (activeCall : Option (Uuid × Uuid)) (event : Event) (now : Int) :
    (signal session callId peer newStatus activeCall event now).run s = (.ok session, s) := by
  have hcheck : (isCallParticipant callId session.userId).run s.db = (.ok false, s.db) := by
    rw [isCallParticipant, Tx.run_query, h]
  rw [signal, Tx.run_bind_ok (run_onDb_eq hcheck)]
  rfl

def withNewStatus (callId : Uuid) (newStatus : Option String) (now : Int) (d : Db) : Db :=
  match newStatus with
  | some newStatus => setStatus callId newStatus now d
  | none => d

theorem run_signal {session : Session} {callId : Uuid} {s : Server}
    (h : (s.db.callRecords.get callId).any (·.hasParticipant session.userId) = true) (peer : Uuid)
    {newStatus : Option String}
    (hstatus : ∀ st ∈ newStatus, st = "answered" ∨ st ∈ CallRecord.finalStatuses)
    (activeCall : Option (Uuid × Uuid)) (event : Event) (now : Int) :
    (signal session callId peer newStatus activeCall event now).run s =
      (.ok { session with activeCall := activeCall },
        relayed session peer event (s.setDb (withNewStatus callId newStatus now s.db))) := by
  have hcheck : (isCallParticipant callId session.userId).run s.db = (.ok true, s.db) := by
    rw [isCallParticipant, Tx.run_query, h]
  rw [signal, Tx.run_bind_ok (run_onDb_eq hcheck), if_neg (by simp)]
  have hset : (onDb (updateStatusBy callId newStatus now)).run s =
      (.ok (), s.setDb (withNewStatus callId newStatus now s.db)) := by
    cases newStatus with
    | none => rfl
    | some st => exact run_onDb_eq (run_updateStatus (hstatus st rfl) _ _ _)
  have hsame : s.setDb s.db = s := rfl
  rw [hsame]
  rw [Tx.run_bind, Tx.run_attempt, hset]
  dsimp only
  rw [Tx.run_bind_ok (run_relay _ _ _ _)]
  rfl

/-- The call and the user that a signal names. -/
def ClientEvent.names : ClientEvent → Option (Uuid × Uuid)
  | .callAnswer callId callerId _ => some (callId, callerId)
  | .callReject callId callerId => some (callId, callerId)
  | .callHangup callId peerId => some (callId, peerId)
  | .iceCandidate callId peerId _ _ _ => some (callId, peerId)
  | _ => none

def ClientEvent.newStatus : ClientEvent → Option String
  | .callAnswer .. => some "answered"
  | .callReject .. => some "rejected"
  | .callHangup .. => some "ended"
  | _ => none

def cleanedUp (session : Session) (now : Int) (s : Server) : Server :=
  match session.activeCall with
  | none => s
  | some (callId, peerId) => relayed session peerId (.callHangup callId session.userId)
      (s.setDb (setStatus callId "ended" now s.db))

theorem run_cleanUp (session : Session) (now : Int) (s : Server) :
    (cleanUp session now).run s = (.ok (), cleanedUp session now s) := by
  unfold cleanUp cleanedUp
  split
  · rfl
  rename_i callId peerId _
  have hset := run_onDb_eq (s := s)
    (run_updateStatus (.inr (by decide : "ended" ∈ CallRecord.finalStatuses)) callId now s.db)
  rw [Tx.run_bind, Tx.run_attempt, hset]
  exact run_relay _ _ _ _

def newCall (session : Session) (calleeId : Uuid) (callType : String) (at_ : Moment) : CallRecord :=
  ⟨at_.callId, session.userId, calleeId, callType, "initiated", none, none⟩

/-- What may come of an event. -/
inductive Served (session : Session) (at_ : Moment) (s : Server) :
    ClientEvent → Except AppError (Option Session) × Server → Prop
  | ignored (event : ClientEvent)
    (outside : ∀ callId peer, event.names = some (callId, peer) →
      (s.db.callRecords.get callId).any (·.hasParticipant session.userId) = false) :
    Served session at_ s event (.ok (some session), s)
  | unheard (lost : at_.delivered = false) : Served session at_ s .ping (.ok none, s)
  | typed (partnerId : Uuid) (isTyping : Bool) :
    Served session at_ s (.typing partnerId isTyping) (.ok (some session),
      relayed session partnerId (.typing session.userId partnerId isTyping) s)
  | unannounced (calleeId : Uuid) (callType sdpOffer : String) (t : Records)
    (lost : at_.delivered = false)
    (created : addCall (newCall session calleeId callType at_) s.db =
      .ok (newCall session calleeId callType at_, { s.db with callRecords := t }))
    (inserted : s.db.callRecords.insert (newCall session calleeId callType at_) = some t) :
    Served session at_ s (.callOffer calleeId callType sdpOffer)
      (.ok none, s.setDb { s.db with callRecords := t })
  | offered (calleeId : Uuid) (callType sdpOffer : String) (t : Records) (name : String)
    (inserted : s.db.callRecords.insert (newCall session calleeId callType at_) = some t)
    (s' : Server) (db : s'.db = { s.db with callRecords := t })
    (sent : s'.sent = (relayed session calleeId
        (.incomingCall at_.callId session.userId callType sdpOffer) s).sent ++
      [.push calleeId (.incomingCall session.userId name at_.callId callType)]) :
    Served session at_ s (.callOffer calleeId callType sdpOffer)
      (.ok (some { session with activeCall := some (at_.callId, calleeId) }), s')
  | signalled (event : ClientEvent) (callId peer : Uuid) (activeCall : Option (Uuid × Uuid))
    (out : Event) (names : event.names = some (callId, peer))
    (participant : (s.db.callRecords.get callId).any (·.hasParticipant session.userId) = true)
    (kind : out.signal = some (callId, session.userId))
    (memory : activeCall = none ∨ activeCall = some (callId, peer) ∨
      activeCall = session.activeCall) :
    Served session at_ s event (.ok (some { session with activeCall := activeCall }),
      relayed session peer out (s.setDb (withNewStatus callId event.newStatus at_.now s.db)))

theorem run_map_ok {α β : Type} {t : Handler α} {s s' : Server} {a : α} (g : α → β)
    (h : t.run s = (.ok a, s')) : (g <$> t).run s = (.ok (g a), s') := by
  change (t >>= fun a => pure (g a)).run s = _
  rw [Tx.run_bind_ok h]
  rfl

section
variable {session : Session} {at_ : Moment} {s : Server}

theorem served_signal {event : ClientEvent} {callId peer : Uuid} {activeCall : Option (Uuid × Uuid)}
    {out : Event} (names : event.names = some (callId, peer))
    (hstatus : ∀ st ∈ event.newStatus, st = "answered" ∨ st ∈ CallRecord.finalStatuses)
    (kind : out.signal = some (callId, session.userId))
    (memory : activeCall = none ∨ activeCall = some (callId, peer) ∨
      activeCall = session.activeCall) :
    Served session at_ s event
      ((some <$> signal session callId peer event.newStatus activeCall out at_.now).run s) := by
  rcases h : (s.db.callRecords.get callId).any (·.hasParticipant session.userId) with _ | _
  · rw [run_map_ok some (run_signal_outsider h peer event.newStatus activeCall out at_.now)]
    refine .ignored event (fun callId' peer' h' => ?_)
    rw [names] at h'
    cases h'
    exact h
  · rw [run_map_ok some (run_signal h peer hstatus activeCall out at_.now)]
    exact .signalled event callId peer activeCall out names h kind memory

theorem run_announceCall (session : Session) (callId calleeId : Uuid) (callType sdpOffer : String)
    (s : Server) : ∃ name s', (announceCall session callId calleeId callType sdpOffer).run s =
      (.ok { session with activeCall := some (callId, calleeId) }, s') ∧ s'.db = s.db ∧
      s'.sent = (relayed session calleeId
          (.incomingCall callId session.userId callType sdpOffer) s).sent ++
        [.push calleeId (.incomingCall session.userId name callId callType)] := by
  let s₁ := relayed session calleeId (.incomingCall callId session.userId callType sdpOffer) s
  let name := ((s₁.db.users.get session.userId).map User.username).getD ""
  refine ⟨name, { s₁ with sent := s₁.sent ++
    [.push calleeId (.incomingCall session.userId name callId callType)] }, ?_, ?_, rfl⟩
  · unfold announceCall
    rw [Tx.run_bind_ok (run_relay _ _ _ _)]
    rfl
  · exact relayed_db _ _ _ _

theorem run_callOffer_refused {calleeId : Uuid} {callType : String} {e : DbError}
    (hadd : addCall (newCall session calleeId callType at_) s.db = .error e) (sdpOffer : String) :
    (callOffer session calleeId callType sdpOffer at_).run s = (.ok (some session), s) := by
  have hrun : (onDb (Query.exec (fun _ => []) (addCall _))).run s = _ :=
    run_onDb_eq (Query.run_exec_error hadd)
  unfold callOffer create
  rw [Tx.run_bind, Tx.run_attempt, newCall] at *
  rw [hrun]
  rfl

theorem run_callOffer_unheard {calleeId : Uuid} {callType : String} {t : Records}
    (hadd : addCall (newCall session calleeId callType at_) s.db =
      .ok (newCall session calleeId callType at_, { s.db with callRecords := t }))
    (lost : at_.delivered = false) (sdpOffer : String) :
    (callOffer session calleeId callType sdpOffer at_).run s =
      (.ok none, s.setDb { s.db with callRecords := t }) := by
  have hrun : (onDb (Query.exec (fun _ => []) (addCall _))).run s = _ :=
    run_onDb_eq (Query.run_exec_ok.mpr hadd)
  rw [newCall] at hrun
  unfold callOffer create
  rw [Tx.run_bind, Tx.run_attempt, hrun]
  dsimp only
  rw [lost]
  rfl

theorem run_callOffer_heard {calleeId : Uuid} {callType : String} {t : Records}
    (hadd : addCall (newCall session calleeId callType at_) s.db =
      .ok (newCall session calleeId callType at_, { s.db with callRecords := t }))
    (heard : at_.delivered = true) (sdpOffer : String) :
    ∃ name s', (callOffer session calleeId callType sdpOffer at_).run s =
        (.ok (some { session with activeCall := some (at_.callId, calleeId) }), s') ∧
      s'.db = { s.db with callRecords := t } ∧
      s'.sent = (relayed session calleeId
          (.incomingCall at_.callId session.userId callType sdpOffer) s).sent ++
        [.push calleeId (.incomingCall session.userId name at_.callId callType)] := by
  have hrun : (onDb (Query.exec (fun _ => []) (addCall _))).run s = _ :=
    run_onDb_eq (Query.run_exec_ok.mpr hadd)
  rw [newCall] at hrun
  obtain ⟨name, s', hann, hdb, hsent⟩ := run_announceCall session at_.callId calleeId callType
    sdpOffer (s.setDb { s.db with callRecords := t })
  refine ⟨name, s', ?_, hdb, ?_⟩
  · unfold callOffer create
    rw [Tx.run_bind, Tx.run_attempt, hrun]
    dsimp only
    rw [if_pos heard, Tx.run_bind_ok hann]
    rfl
  · rw [hsent]
    unfold relayed
    split <;> rfl

theorem served_offer (calleeId : Uuid) (callType sdpOffer : String) :
    Served session at_ s (.callOffer calleeId callType sdpOffer)
      ((callOffer session calleeId callType sdpOffer at_).run s) := by
  rcases hadd : addCall (newCall session calleeId callType at_) s.db with e | ⟨r, d⟩
  · rw [run_callOffer_refused hadd]
    exact .ignored _ (fun _ _ h => by cases h)
  obtain ⟨rfl, t, hins, rfl⟩ := addCall_ok hadd
  rcases hd : at_.delivered with _ | _
  · rw [run_callOffer_unheard hadd hd]
    exact .unannounced calleeId callType sdpOffer t hd hadd hins
  · obtain ⟨name, s', hrun, hdb, hsent⟩ := run_callOffer_heard hadd hd sdpOffer
    rw [hrun]
    exact .offered calleeId callType sdpOffer t name hins s' hdb hsent

theorem serve_cases (session : Session) (event : ClientEvent) (at_ : Moment) (s : Server) :
    Served session at_ s event ((handleEvent session event at_).run s) := by
  cases event with
  | ping =>
    rcases hd : at_.delivered with _ | _
    · simp only [handleEvent, hd]
      exact .unheard hd
    · simp only [handleEvent, hd]
      exact .ignored _ (fun _ _ h => by cases h)
  | typing partnerId isTyping =>
    rw [handleEvent, Tx.run_bind_ok (run_relay _ _ _ _)]
    exact .typed partnerId isTyping
  | callOffer calleeId callType sdpOffer => exact served_offer calleeId callType sdpOffer
  | callAnswer callId callerId sdpAnswer =>
    exact served_signal rfl (by simp [ClientEvent.newStatus]) rfl (.inr (.inl rfl))
  | callReject callId callerId =>
    exact served_signal rfl (by simp [ClientEvent.newStatus, CallRecord.finalStatuses]) rfl (.inl rfl)
  | callHangup callId peerId =>
    exact served_signal rfl (by simp [ClientEvent.newStatus, CallRecord.finalStatuses]) rfl (.inl rfl)
  | iceCandidate callId peerId candidate sdpMid sdpMlineIndex =>
    exact served_signal rfl (by simp [ClientEvent.newStatus]) rfl (.inr (.inr rfl))

end

theorem run_serve (session : Session) (event : ClientEvent) (at_ : Moment) (s : Server) :
    (serve session event at_).run s =
      match (handleEvent session event at_).run s with
      | (.ok (some next), s') => (.ok (some next), s')
      | (.ok none, s') => (.ok none, cleanedUp session at_.now s')
      | (.error e, s') => (.error e, s') := by
  rw [serve, Tx.run_bind]
  rcases (handleEvent session event at_).run s with ⟨_ | _ | next, s'⟩
  · rfl
  · dsimp only
    rw [Tx.run_bind_ok (run_cleanUp session at_.now s')]
    rfl
  · rfl

/-! ## Samples -/

def phoneUser (id : Uuid) (name : String) : User :=
  NewUser.row ⟨id, name, name ++ "@example.org", "", "user", none, true⟩

/-- Alice, Bob and Carol, each with a session. -/
def phones : Live where
  server := ⟨{ Db.empty with
    users := ⟨[phoneUser 1 "alice", phoneUser 2 "bob", phoneUser 3 "carol"], by decide⟩ },
    none, [], [], []⟩
  sessions := fun _ => none

/-- The sessions connect, and Alice calls Bob. -/
def ringing : List Step :=
  [.connect 1 1 true, .connect 2 2 true, .connect 3 3 true,
    .event 1 (.callOffer 2 "voice" "offer") ⟨100, 10, true⟩]

end SyncServer.Calls
