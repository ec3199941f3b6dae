import SyncServer.Auth.PasswordReset
import SyncServer.Base.Clock
import SyncServer.Calls.Session
import SyncServer.Transaction.Autocommit

/-! # The offers of calls

An offer is published to the callee, and it is stashed in Redis for a minute, so that a device that
was woken by a push can fetch it. Calls and requests come in between each other; whatever the order
of their statements, an offer leaves the stash at most once, and only for its callee.
-/

namespace SyncServer.Calls
open Transaction Autocommit Accounts Auth

/-- The server, and the offers in Redis, each with the last time at which it is there. -/
structure OfferServer where
  server : Server
  stash : Uuid → Option (String × Int)

namespace OfferServer

def setServer (s : OfferServer) (server : Server) : OfferServer := { s with server := server }

def setStash (s : OfferServer) (callId : Uuid) (entry : Option (String × Int)) : OfferServer :=
  { s with stash := Function.update s.stash callId entry }

def visible (s : OfferServer) (callId : Uuid) (now : Int) : Option String :=
  (s.stash callId).bind (fun entry => if now ≤ entry.2 then some entry.1 else none)

def records (s : OfferServer) : Records := s.server.db.callRecords

@[simp] theorem records_setStash (s : OfferServer) (callId : Uuid) (entry : Option (String × Int)) :
    (s.setStash callId entry).records = s.records := rfl

@[simp] theorem stash_setStash_self (s : OfferServer) (callId : Uuid)
    (entry : Option (String × Int)) : (s.setStash callId entry).stash callId = entry :=
  Function.update_self _ _ _

theorem stash_setStash_of_ne (s : OfferServer) {callId id : Uuid} (h : id ≠ callId)
    (entry : Option (String × Int)) : (s.setStash callId entry).stash id = s.stash id :=
  Function.update_of_ne h _ _

@[simp] theorem stash_setServer (s : OfferServer) (server : Server) :
    (s.setServer server).stash = s.stash := rfl

end OfferServer

abbrev OfferHandler (α : Type) := Tx OfferServer RowLock AppError α

def onServer {α : Type} (t : Handler α) : OfferHandler α :=
  t.onPart OfferServer.server OfferServer.setServer

theorem run_onServer {α : Type} (t : Handler α) (s : OfferServer) :
    (onServer t).run s = ((t.run s.server).1, s.setServer (t.run s.server).2) :=
  Tx.run_onPart OfferServer.server OfferServer.setServer (fun _ => rfl) (fun _ _ => rfl)
    (fun _ _ _ => rfl) t s

inductive Reply where
  | session (next : Option Session)
  | offer (callId : Uuid) (sdpOffer : String)

/-! ## The handlers -/

/-- A `CallOffer` of a session, and how its access to Redis ends. -/
structure OfferCall where
  session : Session
  calleeId : Uuid
  callType : String
  sdpOffer : String
  at_ : Moment
  stashing : RedisEnd
  stashedAt : Int

namespace OfferCall

def record (call : OfferCall) : CallRecord :=
  newCall call.session call.calleeId call.callType call.at_

def entry (call : OfferCall) : String × Int := (call.sdpOffer, call.stashedAt + Duration.seconds 60)

def executed (call : OfferCall) : Bool :=
  match call.stashing with
  | .answered => true
  | .failed executed _ => executed

def event (call : OfferCall) : Event :=
  .incomingCall call.at_.callId call.session.userId call.callType call.sdpOffer

def notice (call : OfferCall) (name : String) : Outgoing :=
  .push call.calleeId (.incomingCall call.session.userId name call.at_.callId call.callType)

def remembering (call : OfferCall) : Session :=
  { call.session with activeCall := some (call.at_.callId, call.calleeId) }

/-- `SET` with an expiry; a failure is only logged. -/
def stash (call : OfferCall) : OfferHandler Unit :=
  .stmt (fun _ => [])
    (fun s => if call.executed then s.setStash call.at_.callId (some call.entry) else s)
    (fun _ => ()) pure

def push (call : OfferCall) : OfferHandler Reply := do
  let caller ← onServer (onDb (findById call.session.userId))
  onServer (send (call.notice ((caller.map User.username).getD "")))
  pure (.session (some call.remembering))

/-- The rest of `CallOffer` once the client knows of the call. -/
def announce (call : OfferCall) : OfferHandler Reply :=
  if call.session.publishes then do
    onServer (send (.publish call.calleeId call.event))
    call.stash
    call.push
  else call.push

/-- `CallOffer` with its stash. -/
def program (call : OfferCall) : OfferHandler Reply := do
  let record ← Tx.attempt (onServer (onDb
    (create call.at_.callId call.session.userId call.calleeId call.callType)))
  match record with
  | .error _ => pure (.session (some call.session))
  | .ok _ => if call.at_.delivered then call.announce else pure (.session none)

/-- Beside what it stashes, the program is the one of the sessions. -/
theorem run_program (call : OfferCall) (s : OfferServer) :
    ((call.program.run s).1, (call.program.run s).2.server) =
      Prod.map (Except.map Reply.session) id ((callOffer call.session call.calleeId call.callType
        call.sdpOffer call.at_).run s.server) := by
  unfold program callOffer
  rw [Tx.run_bind, Tx.run_bind, Tx.run_attempt, Tx.run_attempt, run_onServer]
  rcases hrun : (onDb (create call.at_.callId call.session.userId call.calleeId call.callType)).run
    s.server with ⟨e | record, server⟩
  · rfl
  · have hid : record.id = call.at_.callId := by
      obtain ⟨d, hcreate, -⟩ := run_onDb_eq_iff.mp hrun
      rw [(addCall_ok (Query.run_exec_ok.mp hcreate)).1]
    dsimp only
    by_cases hheard : call.at_.delivered
    · by_cases hpublishes : call.session.publishes
      · by_cases hexecuted : call.executed
        · simp only [hid, announce, announceCall, relay, stash, if_pos hheard, if_pos hpublishes,
            if_pos hexecuted]
          rfl
        · simp only [hid, announce, announceCall, relay, stash, if_pos hheard, if_pos hpublishes,
            if_neg hexecuted]
          rfl
      · simp only [hid, announce, announceCall, relay, if_pos hheard, if_neg hpublishes]
        rfl
    · simp only [if_neg hheard]
      rfl

end OfferCall

/-- A request for the offer of a call, and how its accesses to Redis end. -/
structure FetchCall where
  userId : Uuid
  callId : Uuid
  connected : Except String Unit
  taking : RedisEnd
  takenAt : Int

/-- `call_service::find`. -/
def find (callId : Uuid) : Query (Option CallRecord) := Tx.query (fun s => s.callRecords.get callId)

namespace FetchCall

/-- `GETDEL` as it ends. -/
def result (fetch : FetchCall) (s : OfferServer) : Except AppError (Option String) :=
  match fetch.taking with
  | .answered => .ok (s.visible fetch.callId fetch.takenAt)
  | .failed _ e => .error (.internal ("Redis GETDEL error: " ++ e))

def executed (fetch : FetchCall) : Bool :=
  match fetch.taking with
  | .answered => true
  | .failed executed _ => executed

/-- `GETDEL`. -/
def take (fetch : FetchCall) : OfferHandler (Option String) :=
  .stmt (fun _ => []) (fun s => if fetch.executed then s.setStash fetch.callId none else s)
    fetch.result .done

/-- An offer that is missing or empty is not found. -/
def answer (fetch : FetchCall) (found : Option String) : Except AppError Reply :=
  match found.filter (· ≠ "") with
  | some sdpOffer => .ok (.offer fetch.callId sdpOffer)
  | none => .error .notFound

def admitted (fetch : FetchCall) (record : Option CallRecord) : Except AppError Unit :=
  match record with
  | none => .error .notFound
  | some record => if record.calleeId ≠ fetch.userId then .error .forbidden
    else fetch.connected.mapError (fun e => .internal ("Redis connection error: " ++ e))

/-- `get_call_offer`. -/
def program (fetch : FetchCall) : OfferHandler Reply := do
  let record ← onServer (onDb (find fetch.callId))
  let _ ← Tx.done (fetch.admitted record)
  let found ← fetch.take
  Tx.done (fetch.answer found)

end FetchCall

/-- A statement of another handler: no call is lost by it, and its participants stay. -/
structure OtherStmt where
  write : Server → Server
  keeps : ∀ s, SameParticipants s.db.callRecords (write s).db.callRecords

def OtherStmt.program (other : OtherStmt) : OfferHandler Reply :=
  .stmt (fun _ => []) (fun s => s.setServer (other.write s.server)) (fun _ => ())
    (fun _ => pure (.session none))

/-! ## The handlers by their phases -/

/-- What a handler has to do next. -/
inductive OfferPhase where
  | creating (call : OfferCall)
  | relaying (call : OfferCall)
  | stashing (call : OfferCall)
  | naming (call : OfferCall)
  | pushing (call : OfferCall) (name : String)
  | finding (fetch : FetchCall)
  | taking (fetch : FetchCall)
  | other (stmt : OtherStmt)
  | replied (reply : Except AppError Reply)

namespace OfferPhase

def program : OfferPhase → OfferHandler Reply
  | creating call => call.program
  | relaying call => do
    onServer (send (.publish call.calleeId call.event))
    call.stash
    call.push
  | stashing call => do
    call.stash
    call.push
  | naming call => call.push
  | pushing call name => do
    onServer (send (call.notice name))
    pure (.session (some call.remembering))
  | finding fetch => fetch.program
  | taking fetch => do
    let found ← fetch.take
    Tx.done (fetch.answer found)
  | other stmt => stmt.program
  | replied reply => Tx.done reply

def announcing (call : OfferCall) : OfferPhase :=
  if call.at_.delivered then
    if call.session.publishes then relaying call else naming call
  else replied (.ok (.session none))

theorem program_announcing (call : OfferCall) : (announcing call).program =
    if call.at_.delivered then call.announce else pure (.session none) := by
  unfold announcing OfferCall.announce
  split
  · split <;> rfl
  · rfl

def next : OfferPhase → OfferServer → Option (OfferPhase × OfferServer)
  | creating call, s =>
    match addCall call.record s.server.db with
    | .error _ => some (replied (.ok (.session (some call.session))), s)
    | .ok (_, d) => some (announcing call, s.setServer (s.server.setDb d))
  | relaying call, s => some (stashing call, s.setServer
      { s.server with sent := s.server.sent ++ [.publish call.calleeId call.event] })
  | stashing call, s =>
    some (naming call, if call.executed then s.setStash call.at_.callId (some call.entry) else s)
  | naming call, s =>
    some (pushing call (((s.server.db.users.get call.session.userId).map User.username).getD ""), s)
  | pushing call name, s => some (replied (.ok (.session (some call.remembering))), s.setServer
      { s.server with sent := s.server.sent ++ [call.notice name] })
  | finding fetch, s =>
    match fetch.admitted (s.records.get fetch.callId) with
    | .error e => some (replied (.error e), s)
    | .ok () => some (taking fetch, s)
  | taking fetch, s => some (replied (fetch.result s >>= fetch.answer),
      if fetch.executed then s.setStash fetch.callId none else s)
  | other stmt, s => some (replied (.ok (.session none)), s.setServer (stmt.write s.server))
  | replied _, _ => none

theorem step_program (f : OfferPhase) (s : OfferServer) :
    f.program.step s = (f.next s).map (Prod.map OfferPhase.program id) := by
  cases f with
  | creating call =>
    rw [program, OfferCall.program, next]
    rcases h : addCall call.record s.server.db with e | ⟨record, d⟩
    all_goals
      rw [OfferCall.record, newCall] at h
      change some (Tx.bind (Tx.onPart _ _ (Tx.onPart _ _ (Tx.done (Tx.outcome _ s.server.db)))).attempt _,
        s.setServer (s.server.setDb (Tx.effect _ s.server.db))) = _
      simp only [Tx.outcome, Tx.effect, h]
    · rfl
    · rw [Option.map_some, Prod.map, program_announcing]
      rfl
  | relaying call => rfl
  | stashing call => rfl
  | naming call => rfl
  | pushing call name => rfl
  | finding fetch =>
    rw [program, FetchCall.program, next]
    change some (Tx.done (fetch.admitted (s.records.get fetch.callId)) >>= _, s) = _
    cases fetch.admitted (s.records.get fetch.callId) <;> rfl
  | taking fetch =>
    rw [program, next]
    change some (Tx.bind (Tx.done (fetch.result s)) _, _) = _
    cases fetch.result s <;> rfl
  | other stmt => rfl
  | replied reply => rfl

def announces : OfferPhase → Option OfferCall
  | relaying call => some call
  | stashing call => some call
  | _ => none

def handedOut : OfferPhase → Option (Uuid × String)
  | replied (.ok (.offer callId sdpOffer)) => some (callId, sdpOffer)
  | _ => none

def takes : OfferPhase → Option FetchCall
  | taking fetch => some fetch
  | _ => none

end OfferPhase

/-! ## What a statement does -/

def Known (s : OfferServer) (callId calleeId : Uuid) : Prop :=
  ∃ r, s.records.get callId = some r ∧ r.calleeId = calleeId

theorem Known.of_same {s s' : OfferServer} {callId calleeId : Uuid} (h : Known s callId calleeId)
    (hsame : SameParticipants s.records s'.records) : Known s' callId calleeId := by
  obtain ⟨r, hr, hcallee⟩ := h
  obtain ⟨r', hr', -, hcallee'⟩ := hsame callId r hr
  exact ⟨r', hr', hcallee'.trans hcallee⟩

theorem Known.unique {s : OfferServer} {callId u v : Uuid} (h : Known s callId u)
    (h' : Known s callId v) : u = v := by
  obtain ⟨r, hr, rfl⟩ := h
  obtain ⟨r', hr', rfl⟩ := h'
  rw [hr] at hr'
  cases hr'
  rfl

/-- What a statement does to the calls and to the offers. -/
structure OfferEffect (f f' : OfferPhase) (s s' : OfferServer) : Prop where
  same : SameParticipants s.records s'.records
  announced : ∀ call, f'.announces = some call → f.announces = some call ∨
    (s.records.get call.at_.callId = none ∧ Known s' call.at_.callId call.calleeId)
  stashed : ∀ id entry, s'.stash id = some entry → s.stash id = some entry ∨
    ∃ call, f.announces = some call ∧ f'.announces = none ∧ call.at_.callId = id ∧
      call.entry = entry
  admitted : ∀ fetch, f'.takes = some fetch → Known s fetch.callId fetch.userId
  handed : ∀ id sdpOffer, f'.handedOut = some (id, sdpOffer) →
    ∃ fetch deadline, f.takes = some fetch ∧ fetch.callId = id ∧
      s.stash id = some (sdpOffer, deadline) ∧ fetch.takenAt ≤ deadline ∧ sdpOffer ≠ "" ∧
      s'.stash id = none

theorem OfferEffect.quiet {f f' : OfferPhase} {s s' : OfferServer}
    (same : SameParticipants s.records s'.records) (stash : s'.stash = s.stash)
    (announces : f'.announces = none ∨ f'.announces = f.announces) (takes : f'.takes = none)
    (handedOut : f'.handedOut = none) : OfferEffect f f' s s' where
  same := same
  announced call hcall := by
    rcases announces with h | h
    · rw [h] at hcall
      cases hcall
    · exact .inl (h ▸ hcall)
  stashed id entry h := .inl (stash ▸ h)
  admitted fetch h := by
    rw [takes] at h
    cases h
  handed id sdpOffer h := by
    rw [handedOut] at h
    cases h

theorem FetchCall.known_of_admitted {fetch : FetchCall} {s : OfferServer}
    (h : fetch.admitted (s.records.get fetch.callId) = .ok ()) :
    Known s fetch.callId fetch.userId := by
  unfold admitted at h
  rcases hr : s.records.get fetch.callId with _ | r
  · simp [hr] at h
  · simp only [hr, ne_eq, ite_not] at h
    split at h
    · exact ⟨r, hr, ‹_›⟩
    · cases h

theorem OfferEffect.created {call : OfferCall} {s : OfferServer} {t : Records}
    (inserted : s.records.insert call.record = some t) :
    OfferEffect (.creating call) (.announcing call) s
      (s.setServer (s.server.setDb { s.server.db with callRecords := t })) where
  same := .insert inserted
  announced call' h := by
    have hcall : call' = call := by
      unfold OfferPhase.announcing at h
      split at h
      · split at h
        · cases h
          rfl
        · cases h
      · cases h
    subst hcall
    refine .inr ⟨Table.get_eq_none_of_insert inserted, call'.record, ?_, rfl⟩
    change t.get call'.record.id = some call'.record
    rw [Table.get_of_insert inserted, if_pos rfl]
  stashed id entry h := .inl h
  admitted fetch h := by
    unfold OfferPhase.announcing at h
    split at h
    · split at h <;> cases h
    · cases h
  handed id sdpOffer h := by
    unfold OfferPhase.announcing at h
    split at h
    · split at h <;> cases h
    · cases h

theorem OfferEffect.stored (call : OfferCall) (s : OfferServer) :
    OfferEffect (.stashing call) (.naming call) s
      (if call.executed then s.setStash call.at_.callId (some call.entry) else s) where
  same := by
    split <;> exact .refl _
  announced call' h := by cases h
  stashed id entry h := by
    split at h
    · by_cases hid : id = call.at_.callId
      · subst hid
        rw [OfferServer.stash_setStash_self] at h
        cases h
        exact .inr ⟨call, rfl, rfl, rfl, rfl⟩
      · rw [OfferServer.stash_setStash_of_ne _ hid] at h
        exact .inl h
    · exact .inl h
  admitted fetch h := by cases h
  handed id sdpOffer h := by cases h

theorem FetchCall.stash_of_answer {fetch : FetchCall} {s : OfferServer} {id : Uuid}
    {sdpOffer : String} (h : (fetch.result s >>= fetch.answer) = .ok (.offer id sdpOffer)) :
    fetch.taking = .answered ∧ fetch.callId = id ∧ sdpOffer ≠ "" ∧
      ∃ deadline, s.stash id = some (sdpOffer, deadline) ∧ fetch.takenAt ≤ deadline := by
  rcases hends : fetch.taking with _ | ⟨executed, e⟩
  · rw [result, hends] at h
    change fetch.answer _ = _ at h
    unfold answer at h
    split at h
    · rename_i offer hfound
      cases h
      obtain ⟨hvisible, hne⟩ := Option.filter_eq_some_iff.mp hfound
      obtain ⟨⟨value, deadline⟩, hentry, hnow⟩ := Option.bind_eq_some_iff.mp hvisible
      dsimp only at hnow
      split at hnow
      · cases hnow
        exact ⟨rfl, rfl, by simpa using hne, deadline, hentry, ‹_›⟩
      · cases hnow
    · cases h
  · rw [result, hends] at h
    cases h

theorem OfferEffect.took (fetch : FetchCall) (s : OfferServer) :
    OfferEffect (.taking fetch) (.replied (fetch.result s >>= fetch.answer)) s
      (if fetch.executed then s.setStash fetch.callId none else s) where
  same := by
    split <;> exact .refl _
  announced call h := by cases h
  stashed id entry h := by
    split at h
    · by_cases hid : id = fetch.callId
      · subst hid
        rw [OfferServer.stash_setStash_self] at h
        cases h
      · rw [OfferServer.stash_setStash_of_ne _ hid] at h
        exact .inl h
    · exact .inl h
  admitted fetch' h := by cases h
  handed id sdpOffer h := by
    have hanswer : (fetch.result s >>= fetch.answer) = .ok (.offer id sdpOffer) := by
      unfold OfferPhase.handedOut at h
      split at h
      · rename_i heq
        cases h
        exact OfferPhase.replied.inj heq
      · cases h
    obtain ⟨hends, rfl, hne, deadline, hentry, hnow⟩ := FetchCall.stash_of_answer hanswer
    refine ⟨fetch, deadline, rfl, rfl, hentry, hnow, hne, ?_⟩
    rw [FetchCall.executed, hends, if_pos rfl, OfferServer.stash_setStash_self]

theorem OfferPhase.effect {f f' : OfferPhase} {s s' : OfferServer}
    (h : f.next s = some (f', s')) : OfferEffect f f' s s' := by
  cases f with
  | creating call =>
    rw [next] at h
    rcases hadd : addCall call.record s.server.db with e | ⟨r, d⟩
    · rw [hadd] at h
      cases h
      exact .quiet (.refl _) rfl (.inl rfl) rfl rfl
    · rw [hadd] at h
      cases h
      obtain ⟨-, t, hins, rfl⟩ := addCall_ok hadd
      exact .created hins
  | relaying call =>
    cases h
    exact .quiet (.refl _) rfl (.inr rfl) rfl rfl
  | stashing call =>
    cases h
    exact .stored call s
  | naming call =>
    cases h
    exact .quiet (.refl _) rfl (.inl rfl) rfl rfl
  | pushing call name =>
    cases h
    exact .quiet (.refl _) rfl (.inl rfl) rfl rfl
  | finding fetch =>
    rw [next] at h
    rcases hadm : fetch.admitted (s.records.get fetch.callId) with e | u
    · rw [hadm] at h
      cases h
      exact .quiet (.refl _) rfl (.inl rfl) rfl rfl
    · rw [hadm] at h
      cases h
      have hknown := FetchCall.known_of_admitted hadm
      constructor
      · exact .refl _
      · intro call h
        cases h
      · exact fun id entry h => .inl h
      · intro fetch' h
        cases h
        exact hknown
      · intro id sdpOffer h
        cases h
  | taking fetch =>
    cases h
    exact .took fetch s
  | other stmt =>
    cases h
    exact .quiet (stmt.keeps _) rfl (.inl rfl) rfl rfl
  | replied reply => cases h

/-! ## Interleaved calls and requests -/

/-- What comes to the server. -/
inductive Party where
  | offers (call : OfferCall)
  | fetches (fetch : FetchCall)
  | others (stmt : OtherStmt)

def Party.start : Party → OfferPhase
  | offers call => .creating call
  | fetches fetch => .finding fetch
  | others stmt => .other stmt

def OfferPhase.party : OfferPhase → Option Party
  | creating call | relaying call | stashing call | naming call | pushing call _ =>
    some (.offers call)
  | finding fetch | taking fetch => some (.fetches fetch)
  | other stmt => some (.others stmt)
  | replied _ => none

theorem OfferPhase.party_next {f f' : OfferPhase} {s s' : OfferServer}
    (h : f.next s = some (f', s')) : f'.party = f.party ∨ f'.party = none := by
  cases f with
  | creating call =>
    rw [next] at h
    split at h
    · cases h
      exact .inr rfl
    · cases h
      unfold announcing
      split
      · split <;> exact .inl rfl
      · exact .inr rfl
  | finding fetch =>
    rw [next] at h
    split at h
    · cases h
      exact .inr rfl
    · cases h
      exact .inl rfl
  | replied reply => cases h
  | relaying | stashing | naming =>
    cases h
    exact .inl rfl
  | pushing | taking | other =>
    cases h
    exact .inr rfl

theorem OfferPhase.party_of_announces {f : OfferPhase} {call : OfferCall}
    (h : f.announces = some call) : f.party = some (.offers call) := by
  cases f <;> cases h <;> rfl

theorem OfferPhase.party_of_takes {f : OfferPhase} {fetch : FetchCall} (h : f.takes = some fetch) :
    f.party = some (.fetches fetch) := by
  cases f <;> cases h
  rfl

section
variable {ι : Type} {parties : ι → Party}

/-- The offer was made in a call to the user, and its time is not over. -/
def Rightful (parties : ι → Party) (fetch : FetchCall) (callId : Uuid) (sdpOffer : String) : Prop :=
  callId = fetch.callId ∧ sdpOffer ≠ "" ∧ ∃ i call, parties i = .offers call ∧
    call.at_.callId = callId ∧ call.calleeId = fetch.userId ∧ call.sdpOffer = sdpOffer ∧
    fetch.takenAt ≤ call.stashedAt + Duration.seconds 60

def Settled (s : Sys ι OfferServer OfferPhase) (callId : Uuid) : Prop :=
  (s.db.records.get callId).isSome ∧
    ∀ i call, (s.rest i).announces = some call → call.at_.callId ≠ callId

/-- What holds of the offers in the stash, on the way there, and handed out. -/
structure OfferInv (parties : ι → Party) (s : Sys ι OfferServer OfferPhase) : Prop where
  party : ∀ i p, (s.rest i).party = some p → parties i = p
  owed : ∀ i call, (s.rest i).announces = some call →
    Known s.db call.at_.callId call.calleeId ∧ s.db.stash call.at_.callId = none
  alone : ∀ i j call call', (s.rest i).announces = some call → (s.rest j).announces = some call' →
    call.at_.callId = call'.at_.callId → i = j
  stashed : ∀ id entry, s.db.stash id = some entry → ∃ i call, parties i = .offers call ∧
    call.at_.callId = id ∧ call.entry = entry ∧ Known s.db id call.calleeId
  admitted : ∀ i fetch, (s.rest i).takes = some fetch → Known s.db fetch.callId fetch.userId
  answered : ∀ i id sdpOffer, (s.rest i).handedOut = some (id, sdpOffer) →
    (∃ fetch, parties i = .fetches fetch ∧ Rightful parties fetch id sdpOffer) ∧
      Settled s id ∧ s.db.stash id = none
  once : ∀ i j id sdpOffer sdpOffer', (s.rest i).handedOut = some (id, sdpOffer) →
    (s.rest j).handedOut = some (id, sdpOffer') → i = j

/-- What a statement of the `i`th handler does to all of them. -/
structure SysEffect (s s' : Sys ι OfferServer OfferPhase) (i : ι) : Prop where
  same : SameParticipants s.db.records s'.db.records
  party : ∀ j p, (s'.rest j).party = some p → (s.rest j).party = some p
  announced : ∀ j call, (s'.rest j).announces = some call → (s.rest j).announces = some call ∨
    (j = i ∧ s.db.records.get call.at_.callId = none ∧ Known s'.db call.at_.callId call.calleeId)
  stashed : ∀ id entry, s'.db.stash id = some entry → s.db.stash id = some entry ∨
    ∃ call, (s.rest i).announces = some call ∧ (s'.rest i).announces = none ∧
      call.at_.callId = id ∧ call.entry = entry
  admitted : ∀ j fetch, (s'.rest j).takes = some fetch →
    (s.rest j).takes = some fetch ∨ Known s.db fetch.callId fetch.userId
  handed : ∀ j id sdpOffer, (s'.rest j).handedOut = some (id, sdpOffer) →
    (s.rest j).handedOut = some (id, sdpOffer) ∨ (j = i ∧ ∃ fetch deadline,
      (s.rest i).takes = some fetch ∧ fetch.callId = id ∧ s.db.stash id = some (sdpOffer, deadline) ∧
        fetch.takenAt ≤ deadline ∧ sdpOffer ≠ "" ∧ s'.db.stash id = none)

theorem sysEffect_of_step [DecidableEq ι] {s s' : Sys ι OfferServer OfferPhase} {i : ι}
    (hstep : Autocommit.step OfferPhase.next s i = some s') : SysEffect s s' i := by
  obtain ⟨f, d, hnext, rfl⟩ := step_eq_some.mp hstep
  have heffect := OfferPhase.effect hnext
  have hself : Function.update s.rest i f i = f := Function.update_self _ _ _
  have hcases : ∀ j, (j = i ∧ Function.update s.rest i f j = f) ∨
      Function.update s.rest i f j = s.rest j := by
    intro j
    by_cases hj : j = i
    · exact .inl ⟨hj, hj ▸ hself⟩
    · exact .inr (Function.update_of_ne hj _ _)
  constructor
  · exact heffect.same
  · intro j p hp
    dsimp only at hp
    rcases hcases j with ⟨rfl, hj⟩ | hj <;> rw [hj] at hp
    · rcases OfferPhase.party_next hnext with hsame | hnone
      · exact hsame ▸ hp
      · rw [hnone] at hp
        cases hp
    · exact hp
  · intro j call hcall
    dsimp only at hcall
    rcases hcases j with ⟨rfl, hj⟩ | hj <;> rw [hj] at hcall
    · exact (heffect.announced call hcall).imp_right (fun h => ⟨rfl, h⟩)
    · exact .inl hcall
  · intro id entry hd
    dsimp only
    rw [hself]
    exact heffect.stashed id entry hd
  · intro j fetch htakes
    dsimp only at htakes
    rcases hcases j with ⟨rfl, hj⟩ | hj <;> rw [hj] at htakes
    · exact .inr (heffect.admitted fetch htakes)
    · exact .inl htakes
  · intro j id sdpOffer hout
    dsimp only at hout
    rcases hcases j with ⟨rfl, hj⟩ | hj <;> rw [hj] at hout
    · exact .inr ⟨rfl, heffect.handed id sdpOffer hout⟩
    · exact .inl hout

theorem Known.record {s : OfferServer} {id calleeId : Uuid} (h : Known s id calleeId)
    (hnone : s.records.get id = none) : False := by
  obtain ⟨r, hr, -⟩ := h
  rw [hr] at hnone
  cases hnone

namespace OfferInv
variable {s s' : Sys ι OfferServer OfferPhase} {i : ι}

theorem owed_step (h : OfferInv parties s) (heffect : SysEffect s s' i) {j : ι} {call : OfferCall}
    (hcall : (s'.rest j).announces = some call) :
    Known s'.db call.at_.callId call.calleeId ∧ s'.db.stash call.at_.callId = none := by
  rcases heffect.announced j call hcall with hold | ⟨rfl, hnone, hknown⟩
  · obtain ⟨hknown, hempty⟩ := h.owed j call hold
    refine ⟨hknown.of_same heffect.same, Option.eq_none_iff_forall_ne_some.mpr (fun entry hd => ?_)⟩
    rcases heffect.stashed _ _ hd with hs | ⟨call', hcall', hover, hid, -⟩
    · rw [hempty] at hs
      cases hs
    · obtain rfl := h.alone j i call call' hold hcall' hid.symm
      rw [hover] at hcall
      cases hcall
  · refine ⟨hknown, Option.eq_none_iff_forall_ne_some.mpr (fun entry hd => ?_)⟩
    rcases heffect.stashed _ _ hd with hs | ⟨call', -, hover, -⟩
    · obtain ⟨_, _, -, -, -, hknown'⟩ := h.stashed _ _ hs
      exact hknown'.record hnone
    · rw [hover] at hcall
      cases hcall

theorem alone_step (h : OfferInv parties s) (heffect : SysEffect s s' i) {j k : ι}
    {call call' : OfferCall} (hcall : (s'.rest j).announces = some call)
    (hcall' : (s'.rest k).announces = some call') (hid : call.at_.callId = call'.at_.callId) :
    j = k := by
  rcases heffect.announced j call hcall with hold | ⟨rfl, hnone, -⟩ <;>
    rcases heffect.announced k call' hcall' with hold' | ⟨rfl, hnone', -⟩
  · exact h.alone j k call call' hold hold' hid
  · exact ((h.owed j call hold).1.record (hid ▸ hnone')).elim
  · exact ((h.owed k call' hold').1.record (hid ▸ hnone)).elim
  · rfl

theorem stashed_step (h : OfferInv parties s) (heffect : SysEffect s s' i) {id : Uuid}
    {entry : String × Int} (hd : s'.db.stash id = some entry) : ∃ i call,
      parties i = .offers call ∧ call.at_.callId = id ∧ call.entry = entry ∧
        Known s'.db id call.calleeId := by
  rcases heffect.stashed id entry hd with hs | ⟨call, hcall, -, rfl, rfl⟩
  · obtain ⟨j, call, hparty, hid, hentry, hknown⟩ := h.stashed id entry hs
    exact ⟨j, call, hparty, hid, hentry, hknown.of_same heffect.same⟩
  · exact ⟨i, call, h.party i _ (OfferPhase.party_of_announces hcall), rfl, rfl,
      (h.owed i call hcall).1.of_same heffect.same⟩

theorem settled_step (heffect : SysEffect s s' i) {id : Uuid}
    (hsettled : Settled s id) (hempty : s.db.stash id = none) :
    Settled s' id ∧ s'.db.stash id = none := by
  obtain ⟨hrecord, hnobody⟩ := hsettled
  obtain ⟨r, hr⟩ := Option.isSome_iff_exists.mp hrecord
  obtain ⟨r', hr', -⟩ := heffect.same id r hr
  refine ⟨⟨Option.isSome_iff_exists.mpr ⟨r', hr'⟩, fun k call hcall hid => ?_⟩,
    Option.eq_none_iff_forall_ne_some.mpr (fun entry hd => ?_)⟩
  · rcases heffect.announced k call hcall with hold | ⟨-, hnone, -⟩
    · exact hnobody k call hold hid
    · rw [hid, hr] at hnone
      cases hnone
  · rcases heffect.stashed id entry hd with hs | ⟨call, hcall, -, hid, -⟩
    · rw [hempty] at hs
      cases hs
    · exact hnobody i call hcall hid

theorem handed_step (h : OfferInv parties s) (heffect : SysEffect s s' i) {fetch : FetchCall}
    {sdpOffer : String} {deadline : Int} (htakes : (s.rest i).takes = some fetch)
    (hentry : s.db.stash fetch.callId = some (sdpOffer, deadline)) (hnow : fetch.takenAt ≤ deadline)
    (hne : sdpOffer ≠ "") :
    (∃ fetch', parties i = .fetches fetch' ∧ Rightful parties fetch' fetch.callId sdpOffer) ∧
      Settled s' fetch.callId := by
  have hadmitted := h.admitted i fetch htakes
  obtain ⟨k, call, hparty, hid, hcall, hknown⟩ := h.stashed _ _ hentry
  obtain ⟨rfl, rfl⟩ := Prod.mk.inj hcall
  refine ⟨⟨fetch, h.party i _ (OfferPhase.party_of_takes htakes), rfl, hne, k, call, hparty, hid,
    hknown.unique hadmitted, rfl, hnow⟩, ?_, fun l call' hcall' hid' => ?_⟩
  · obtain ⟨r, hr, -⟩ := hadmitted.of_same heffect.same
    exact Option.isSome_iff_exists.mpr ⟨r, hr⟩
  · rcases heffect.announced l call' hcall' with hold | ⟨-, hnone, -⟩
    · have hempty := (h.owed l call' hold).2
      rw [hid', hentry] at hempty
      cases hempty
    · exact hadmitted.record (hid' ▸ hnone)

theorem step [DecidableEq ι] (h : OfferInv parties s)
    (hstep : Autocommit.step OfferPhase.next s i = some s') :
    OfferInv parties s' := by
  have heffect := sysEffect_of_step hstep
  constructor
  · exact fun j p hp => h.party j p (heffect.party j p hp)
  · exact fun j call hcall => h.owed_step heffect hcall
  · exact fun j k call call' hcall hcall' hid => h.alone_step heffect hcall hcall' hid
  · exact fun id entry hd => h.stashed_step heffect hd
  · intro j fetch htakes
    rcases heffect.admitted j fetch htakes with hold | hknown
    · exact (h.admitted j fetch hold).of_same heffect.same
    · exact hknown.of_same heffect.same
  · intro j id sdpOffer hout
    rcases heffect.handed j id sdpOffer hout with
      hold | ⟨rfl, fetch, deadline, htakes, rfl, hentry, hnow, hne, hempty⟩
    · obtain ⟨hright, hsettled, hempty⟩ := h.answered j id sdpOffer hold
      exact ⟨hright, settled_step heffect hsettled hempty⟩
    · obtain ⟨hright, hsettled⟩ := h.handed_step heffect htakes hentry hnow hne
      exact ⟨hright, hsettled, hempty⟩
  · intro j k id sdpOffer sdpOffer' hout hout'
    rcases heffect.handed j id sdpOffer hout with hold | ⟨rfl, _, _, -, -, hentry, -⟩ <;>
      rcases heffect.handed k id sdpOffer' hout' with hold' | ⟨rfl, _, _, -, -, hentry', -⟩
    · exact h.once j k id sdpOffer sdpOffer' hold hold'
    · rw [(h.answered j id sdpOffer hold).2.2] at hentry'
      cases hentry'
    · rw [(h.answered k id sdpOffer' hold').2.2] at hentry
      cases hentry
    · rfl

end OfferInv

/-- The handlers, before their first statement. -/
def callsAndRequests (server : OfferServer) (parties : ι → Party) : Sys ι OfferServer OfferPhase :=
  ⟨server, fun i => (parties i).start⟩

theorem OfferInv.start {server : OfferServer} (hempty : ∀ id, server.stash id = none)
    (parties : ι → Party) : OfferInv parties (callsAndRequests server parties) := by
  have hparty : ∀ p : Party, p.start.party = some p ∧ p.start.announces = none ∧
      p.start.takes = none ∧ p.start.handedOut = none := by
    intro p
    cases p <;> exact ⟨rfl, rfl, rfl, rfl⟩
  constructor
  · intro i p hp
    exact Option.some.inj ((hparty (parties i)).1.symm.trans hp)
  · intro i call hcall
    cases (hparty (parties i)).2.1.symm.trans hcall
  · intro i j call call' hcall
    cases (hparty (parties i)).2.1.symm.trans hcall
  · intro id entry h
    cases (hempty id).symm.trans h
  · intro i fetch htakes
    cases (hparty (parties i)).2.2.1.symm.trans htakes
  · intro i id sdpOffer hout
    cases (hparty (parties i)).2.2.2.symm.trans hout
  · intro i j id sdpOffer sdpOffer' hout
    cases (hparty (parties i)).2.2.2.symm.trans hout

/-- However the statements of calls, of requests for offers and of other handlers are interleaved,
an offer is handed out at most once; whoever gets it is the callee of the call in which it was made,
and gets it within a minute of the time at which it was stashed. -/
theorem call_offer_handed_out_once [DecidableEq ι] (server : OfferServer)
    (hempty : ∀ id, server.stash id = none) (parties : ι → Party) (is : List ι) (s : Sys ι OfferServer OfferPhase)
    (hrun : run OfferPhase.next (callsAndRequests server parties) is = some s) :
    (∀ i j id sdpOffer sdpOffer', s.rest i = .replied (.ok (.offer id sdpOffer)) →
      s.rest j = .replied (.ok (.offer id sdpOffer')) → i = j) ∧
    ∀ i id sdpOffer, s.rest i = .replied (.ok (.offer id sdpOffer)) →
      ∃ fetch, parties i = .fetches fetch ∧ Rightful parties fetch id sdpOffer := by
  have hinv : OfferInv parties s := run_invariant (C := fun _ _ => True)
    (fun _ _ _ _ h hstep => OfferInv.step h hstep) (OfferInv.start hempty parties)
    (along_of_forall (fun _ _ => trivial) _ _) hrun
  have hover : ∀ i id sdpOffer, s.rest i = .replied (.ok (.offer id sdpOffer)) →
      (s.rest i).handedOut = some (id, sdpOffer) := by
    intro i id sdpOffer h
    rw [h]
    rfl
  constructor
  · intro i j id sdpOffer sdpOffer' hi hj
    exact hinv.once i j id sdpOffer sdpOffer' (hover i id sdpOffer hi) (hover j id sdpOffer' hj)
  · intro i id sdpOffer hi
    exact (hinv.answered i id sdpOffer (hover i id sdpOffer hi)).1

end

/-! ## Samples -/

/-- The server of the phones, with an empty Redis. -/
def quietPhones : OfferServer := ⟨phones.server, fun _ => none⟩

/-- The answer of Bob's session sets the status of the call. -/
def answered : OtherStmt where
  write s := s.setDb (setStatus 10 "answered" 101 s.db)
  keeps s := .update s.db.callRecords 10 "answered" 101

/-- Alice calls Bob, who asks for the offer twice, and answers. -/
def twoRequests : Fin 4 → Party
  | 0 => .offers ⟨⟨1, true, none⟩, 2, "voice", "offer", ⟨100, 10, true⟩, .answered, 0⟩
  | 1 => .fetches ⟨2, 10, .ok (), .answered, Duration.seconds 5⟩
  | 2 => .fetches ⟨2, 10, .ok (), .answered, Duration.seconds 6⟩
  | 3 => .others answered

/-- Both requests have passed their checks when the offer is stashed; one of them gets it. -/
theorem call_offer_handed_out_once_bob :
    ∃ s, run OfferPhase.next (callsAndRequests quietPhones twoRequests)
        [0, 1, 2, 0, 0, 3, 2, 1] = some s ∧
      s.rest 2 = .replied (.ok (.offer 10 "offer")) ∧ s.rest 1 = .replied (.error .notFound) ∧
      (∀ i id sdpOffer, s.rest i = .replied (.ok (.offer id sdpOffer)) →
        ∃ fetch, twoRequests i = .fetches fetch ∧ Rightful twoRequests fetch id sdpOffer) :=
  ⟨_, rfl, rfl, rfl, (call_offer_handed_out_once quietPhones (fun _ => rfl) twoRequests
    [0, 1, 2, 0, 0, 3, 2, 1] _ rfl).2⟩

end SyncServer.Calls
