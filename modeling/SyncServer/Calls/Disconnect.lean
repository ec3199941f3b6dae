import SyncServer.Calls.Records

/-! # The calls that a session leaves behind

A session remembers one call, and ends it when the connection is lost. Another offer or answer
takes the place of that call, a hang-up of any call erases it, and a call that the client cannot
be told of is never remembered.
-/

namespace SyncServer.Calls
open Transaction

def isOpen (records : Records) (callId : Uuid) : Bool :=
  (records.get callId).any (fun r => !r.isFinished)

/-- The call that a session remembers. -/
def Session.call (session : Session) : Option Uuid := session.activeCall.map Prod.fst

def ClientEvent.opens (session : Session) (at_ : Moment) (d : Db) : ClientEvent → Option Uuid
  | .callOffer calleeId callType _ =>
    if (addCall (newCall session calleeId callType at_) d).isOk then some at_.callId else none
  | .callAnswer callId _ _ =>
    if (d.callRecords.get callId).any (·.hasParticipant session.userId) then some callId else none
  | _ => none

def ClientEvent.takesUp (session : Session) (d : Db) : ClientEvent → Option Uuid
  | .callAnswer callId _ _ | .callReject callId _ | .callHangup callId _ =>
    if (d.callRecords.get callId).any (·.hasParticipant session.userId) then some callId else none
  | _ => none

/-- The unfinished call that a session does not remember after an event, and did before or has
just started. -/
def ClientEvent.forgets (session : Session) (at_ : Moment) (d : Db) (event : ClientEvent) :
    Option Uuid :=
  match event with
  | .callOffer .. =>
    if (event.opens session at_ d).isNone then none
    else if at_.delivered then session.call.filter (isOpen d.callRecords) else some at_.callId
  | .callAnswer callId _ _ | .callReject callId _ | .callHangup callId _ =>
    if (event.takesUp session d).isNone then none
    else (session.call.filter (isOpen d.callRecords)).filter (· ≠ callId)
  | _ => none

/-! ## A session from its start to its end -/

/-- What a client sends, each event with its moment. -/
abbrev Script := List (ClientEvent × Moment)

def remainder (sid : Nat) (script : Script) (now : Int) : List Step :=
  script.map (fun e => .event sid e.1 e.2) ++ [.disconnect sid now]

def lifetime (sid : Nat) (userId : Uuid) (publishes : Bool) (script : Script) (now : Int) :
    List Step :=
  .connect sid userId publishes :: remainder sid script now

namespace Live

/-- The call that a session remembers, if there is such a session. -/
def call (live : Live) (sid : Nat) : Option Uuid := (live.sessions sid).bind Session.call

def opens (live : Live) (sid : Nat) (e : ClientEvent × Moment) : Option Uuid :=
  (live.sessions sid).bind (fun session => e.1.opens session e.2 live.server.db)

def takesUp (live : Live) (sid : Nat) (e : ClientEvent × Moment) : Option Uuid :=
  (live.sessions sid).bind (fun session => e.1.takesUp session live.server.db)

def forgets (live : Live) (sid : Nat) (e : ClientEvent × Moment) : Option Uuid :=
  (live.sessions sid).bind (fun session => e.1.forgets session e.2 live.server.db)

def opened (sid : Nat) : Live → Script → List Uuid
  | _, [] => []
  | live, e :: script =>
    (live.opens sid e).toList ++ opened sid (live.step (.event sid e.1 e.2)) script

def TakenUp (sid : Nat) (callId : Uuid) : Live → Script → Prop
  | _, [] => False
  | live, e :: script =>
    live.takesUp sid e = some callId ∨ TakenUp sid callId (live.step (.event sid e.1 e.2)) script

def LeavesNone (sid : Nat) : Live → Script → Prop
  | _, [] => True
  | live, e :: script =>
    (∀ callId ∈ live.forgets sid e, TakenUp sid callId (live.step (.event sid e.1 e.2)) script) ∧
      LeavesNone sid (live.step (.event sid e.1 e.2)) script

instance TakenUp.decidable (sid : Nat) (callId : Uuid) :
    (live : Live) → (script : Script) → Decidable (TakenUp sid callId live script)
  | _, [] => isFalse id
  | live, e :: script =>
    haveI := TakenUp.decidable sid callId (live.step (.event sid e.1 e.2)) script
    inferInstanceAs (Decidable (live.takesUp sid e = some callId ∨
      TakenUp sid callId (live.step (.event sid e.1 e.2)) script))

instance LeavesNone.decidable (sid : Nat) :
    (live : Live) → (script : Script) → Decidable (LeavesNone sid live script)
  | _, [] => isTrue trivial
  | live, e :: script =>
    haveI := LeavesNone.decidable sid (live.step (.event sid e.1 e.2)) script
    inferInstanceAs (Decidable
      ((∀ callId ∈ live.forgets sid e, TakenUp sid callId (live.step (.event sid e.1 e.2)) script) ∧
        LeavesNone sid (live.step (.event sid e.1 e.2)) script))

end Live

/-! ## What becomes of a call -/

theorem not_isOpen_of_isOver {t : Records} {callId : Uuid} (h : isOver t callId = true) :
    isOpen t callId = false := by
  simp only [isOver, isOpen] at h ⊢
  cases hget : t.get callId <;> simp_all

theorem isOver_of_known {t : Records} {callId : Uuid} (hknown : (t.get callId).isSome)
    (h : isOpen t callId = false) : isOver t callId = true := by
  simp only [isOver, isOpen] at h ⊢
  cases hget : t.get callId <;> simp_all

theorem known_of_isOpen {t : Records} {callId : Uuid} (h : isOpen t callId = true) :
    (t.get callId).isSome := by
  simp only [isOpen] at h
  cases hget : t.get callId <;> simp_all

section
variable {t t' : Records} {callId callId' : Uuid} {newStatus : String}

def setIn (t : Records) (callId : Uuid) (newStatus : String) (now : Int) : Records :=
  t.update callId (CallRecord.withStatus newStatus now) (CallRecord.withStatus_id newStatus now)

theorem isOver_setIn_of_ne (h : callId' ≠ callId) (now : Int) :
    isOver (setIn t callId newStatus now) callId' = isOver t callId' := by
  simp [isOver, setIn, h]

theorem isOpen_setIn_of_ne (h : callId' ≠ callId) (now : Int) :
    isOpen (setIn t callId newStatus now) callId' = isOpen t callId' := by
  simp [isOpen, setIn, h]

theorem isSome_setIn (now : Int) :
    ((setIn t callId newStatus now).get callId').isSome = (t.get callId').isSome :=
  Table.isSome_get_update _ _ _ _ _

theorem isFinished_withStatus (h : newStatus ∈ CallRecord.finalStatuses) (r : CallRecord)
    (now : Int) : (r.withStatus newStatus now).isFinished = true := by
  have hne : newStatus ≠ "answered" := by
    rintro rfl
    exact absurd h (by decide)
  simp [CallRecord.withStatus, CallRecord.isFinished, hne, h]

theorem isOver_setIn (hfinal : newStatus ∈ CallRecord.finalStatuses)
    (hknown : (t.get callId).isSome) (now : Int) :
    isOver (setIn t callId newStatus now) callId = true := by
  obtain ⟨r, hr⟩ := Option.isSome_iff_exists.mp hknown
  simp [isOver, setIn, hr, isFinished_withStatus hfinal]

theorem isOver_insert {new : CallRecord} (hins : t.insert new = some t')
    (h : isOver t callId = true) : isOver t' callId = true := by
  have hne : new.id ≠ callId := by
    rintro rfl
    simp [isOver, Table.get_eq_none_of_insert hins] at h
  simpa [isOver, Table.get_of_insert hins, hne] using h

theorem isOpen_insert {new : CallRecord} (hins : t.insert new = some t')
    (h : isOpen t callId = true) : isOpen t' callId = true ∧ callId ≠ new.id := by
  have hne : new.id ≠ callId := by
    rintro rfl
    simp [isOpen, Table.get_eq_none_of_insert hins] at h
  exact ⟨by simpa [isOpen, Table.get_of_insert hins, hne] using h, hne.symm⟩

theorem isOpen_new {new : CallRecord} (hins : t.insert new = some t')
    (hnew : new.isFinished = false) : isOpen t' new.id = true := by
  simp [isOpen, Table.get_insert_self hins, hnew]

theorem isSome_insert {new : CallRecord} (hins : t.insert new = some t')
    (h : (t.get callId).isSome) : (t'.get callId).isSome := by
  rw [Table.get_of_insert hins]
  split
  · rfl
  · exact h

end

def Session.closeIn (session : Session) (now : Int) (t : Records) : Records :=
  match session.call with
  | none => t
  | some callId => setIn t callId "ended" now

theorem cleanedUp_records (session : Session) (now : Int) (s : Server) :
    (cleanedUp session now s).db.callRecords = session.closeIn now s.db.callRecords := by
  unfold cleanedUp Session.closeIn Session.call
  cases session.activeCall with
  | none => rfl
  | some call =>
    dsimp only
    rw [relayed_db]
    rfl

section
variable {session : Session} {t : Records} {callId : Uuid}

theorem isOver_closeIn (h : session.call = some callId) (hknown : (t.get callId).isSome)
    (now : Int) :
    isOver (session.closeIn now t) callId = true := by
  rw [Session.closeIn, h]
  exact isOver_setIn (by decide) hknown now

theorem isOver_closeIn_of_isOver (h : isOver t callId = true) (now : Int) :
    isOver (session.closeIn now t) callId = true := by
  have hknown : (t.get callId).isSome := by
    simp only [isOver] at h
    cases hget : t.get callId <;> simp_all
  by_cases hcall : session.call = some callId
  · exact isOver_closeIn hcall hknown now
  · unfold Session.closeIn
    split
    · exact h
    · rename_i callId' hcall'
      have hne : callId ≠ callId' := by
        rintro rfl
        exact hcall hcall'
      rwa [isOver_setIn_of_ne hne]

theorem isOpen_closeIn (hcall : session.call ≠ some callId) (h : isOpen t callId = true)
    (now : Int) :
    isOpen (session.closeIn now t) callId = true := by
  unfold Session.closeIn
  split
  · exact h
  · rename_i callId' hcall'
    have hne : callId ≠ callId' := by
      rintro rfl
      exact hcall hcall'
    rwa [isOpen_setIn_of_ne hne]

end

/-! ## One event -/

/-- What an event does to the session and to the records of the calls. -/
inductive Turn (session : Session) (at_ : Moment) (d : Db) :
    ClientEvent → Option Session → Records → Prop
  | idle (event : ClientEvent) (opens : event.opens session at_ d = none)
    (takesUp : event.takesUp session d = none) (forgets : event.forgets session at_ d = none) :
    Turn session at_ d event (some session) d.callRecords
  | unheard : Turn session at_ d .ping none (session.closeIn at_.now d.callRecords)
  | offered (calleeId : Uuid) (callType sdpOffer : String) (t : Records)
    (inserted : d.callRecords.insert (newCall session calleeId callType at_) = some t)
    (created : (addCall (newCall session calleeId callType at_) d).isOk = true)
    (heard : at_.delivered = true) :
    Turn session at_ d (.callOffer calleeId callType sdpOffer)
      (some { session with activeCall := some (at_.callId, calleeId) }) t
  | unannounced (calleeId : Uuid) (callType sdpOffer : String) (t : Records)
    (inserted : d.callRecords.insert (newCall session calleeId callType at_) = some t)
    (created : (addCall (newCall session calleeId callType at_) d).isOk = true)
    (lost : at_.delivered = false) :
    Turn session at_ d (.callOffer calleeId callType sdpOffer) none (session.closeIn at_.now t)
  | answered (callId callerId : Uuid) (sdpAnswer : String)
    (participant : (d.callRecords.get callId).any (·.hasParticipant session.userId) = true) :
    Turn session at_ d (.callAnswer callId callerId sdpAnswer)
      (some { session with activeCall := some (callId, callerId) })
      (setIn d.callRecords callId "answered" at_.now)
  | closed (event : ClientEvent) (callId peer : Uuid) (newStatus : String)
    (which : event = .callReject callId peer ∨ event = .callHangup callId peer)
    (final : newStatus ∈ CallRecord.finalStatuses)
    (participant : (d.callRecords.get callId).any (·.hasParticipant session.userId) = true) :
    Turn session at_ d event (some { session with activeCall := none })
      (setIn d.callRecords callId newStatus at_.now)

def TurnsOut (session : Session) (event : ClientEvent) (at_ : Moment) (s : Server) : Prop :=
  ∃ next s', (serve session event at_).run s = (.ok next, s') ∧
    Turn session at_ s.db event next s'.db.callRecords

section
variable {session : Session} {at_ : Moment} {s : Server}

theorem turn_of_stays {event : ClientEvent} {next : Session} {s' : Server}
    (hrun : (handleEvent session event at_).run s = (.ok (some next), s'))
    (h : Turn session at_ s.db event (some next) s'.db.callRecords) :
    TurnsOut session event at_ s := by
  refine ⟨some next, s', ?_, h⟩
  rw [run_serve, hrun]

theorem turn_of_ends {event : ClientEvent} {s' : Server}
    (hrun : (handleEvent session event at_).run s = (.ok none, s'))
    (h : Turn session at_ s.db event none (session.closeIn at_.now s'.db.callRecords)) :
    TurnsOut session event at_ s := by
  refine ⟨none, cleanedUp session at_.now s', ?_, ?_⟩
  · rw [run_serve, hrun]
  · rwa [cleanedUp_records]

theorem turn_callOffer (calleeId : Uuid) (callType sdpOffer : String) :
    TurnsOut session (.callOffer calleeId callType sdpOffer) at_ s := by
  rcases hadd : addCall (newCall session calleeId callType at_) s.db with e | ⟨r, d⟩
  · refine turn_of_stays (run_callOffer_refused hadd sdpOffer) (.idle _ ?_ rfl ?_) <;>
      simp [ClientEvent.forgets, ClientEvent.opens, hadd, Except.isOk, Except.toBool]
  obtain ⟨rfl, t, hins, rfl⟩ := addCall_ok hadd
  have hok : (addCall (newCall session calleeId callType at_) s.db).isOk = true := by
    rw [hadd]
    rfl
  rcases hd : at_.delivered with _ | _
  · exact turn_of_ends (run_callOffer_unheard hadd hd sdpOffer)
      (.unannounced calleeId callType sdpOffer t hins hok hd)
  · obtain ⟨name, s', hrun, hdb, -⟩ := run_callOffer_heard hadd hd sdpOffer
    refine turn_of_stays hrun ?_
    rw [hdb]
    exact .offered calleeId callType sdpOffer t hins hok hd

theorem turn_signal {event : ClientEvent} {callId peer : Uuid} {newStatus : Option String}
    {activeCall : Option (Uuid × Uuid)} {out : Event}
    (hevent : handleEvent session event at_ =
      some <$> signal session callId peer newStatus activeCall out at_.now)
    (hstatus : ∀ st ∈ newStatus, st = "answered" ∨ st ∈ CallRecord.finalStatuses)
    (houtside : (s.db.callRecords.get callId).any (·.hasParticipant session.userId) = false →
      Turn session at_ s.db event (some session) s.db.callRecords)
    (hinside : (s.db.callRecords.get callId).any (·.hasParticipant session.userId) = true →
      Turn session at_ s.db event (some { session with activeCall := activeCall })
        (withNewStatus callId newStatus at_.now s.db).callRecords) :
    TurnsOut session event at_ s := by
  rcases h : (s.db.callRecords.get callId).any (·.hasParticipant session.userId) with _ | _
  · have hrun := run_map_ok some (run_signal_outsider h peer newStatus activeCall out at_.now)
    rw [← hevent] at hrun
    exact turn_of_stays hrun (houtside h)
  · have hrun := run_map_ok some (run_signal h peer hstatus activeCall out at_.now)
    rw [← hevent] at hrun
    refine turn_of_stays hrun ?_
    rw [relayed_db]
    exact hinside h

theorem turn_serve (session : Session) (event : ClientEvent) (at_ : Moment) (s : Server) :
    TurnsOut session event at_ s := by
  cases event with
  | ping =>
    rcases hd : at_.delivered with _ | _
    · have hrun : (handleEvent session .ping at_).run s = (.ok none, s) := by
        simp only [handleEvent, hd]
        rfl
      exact turn_of_ends hrun .unheard
    · have hrun : (handleEvent session .ping at_).run s = (.ok (some session), s) := by
        simp only [handleEvent, hd]
        rfl
      exact turn_of_stays hrun (.idle _ rfl rfl rfl)
  | typing partnerId isTyping =>
    have hrun : (handleEvent session (.typing partnerId isTyping) at_).run s = (.ok (some session),
        relayed session partnerId (.typing session.userId partnerId isTyping) s) := by
      rw [handleEvent, Tx.run_bind_ok (run_relay _ _ _ _)]
      rfl
    refine turn_of_stays hrun ?_
    rw [relayed_db]
    exact .idle _ rfl rfl rfl
  | callOffer calleeId callType sdpOffer => exact turn_callOffer calleeId callType sdpOffer
  | callAnswer callId callerId sdpAnswer =>
    refine turn_signal rfl (by simp) (fun h => .idle _ ?_ ?_ ?_)
      (fun h => .answered callId callerId sdpAnswer h) <;>
      simp [ClientEvent.opens, ClientEvent.takesUp, ClientEvent.forgets, h]
  | callReject callId callerId =>
    refine turn_signal rfl (by simp [CallRecord.finalStatuses]) (fun h => .idle _ rfl ?_ ?_)
      (fun h => .closed _ callId callerId "rejected" (.inl rfl) (by decide) h) <;>
      simp [ClientEvent.takesUp, ClientEvent.forgets, h]
  | callHangup callId peerId =>
    refine turn_signal rfl (by simp [CallRecord.finalStatuses]) (fun h => .idle _ rfl ?_ ?_)
      (fun h => .closed _ callId peerId "ended" (.inr rfl) (by decide) h) <;>
      simp [ClientEvent.takesUp, ClientEvent.forgets, h]
  | iceCandidate callId peerId candidate sdpMid sdpMlineIndex =>
    refine turn_signal rfl (by simp) (fun h => .idle _ rfl rfl rfl) (fun h => ?_)
    exact .idle _ rfl rfl rfl

end

def Session.leaves (session : Session) (t : Records) (callId : Uuid) : Option Uuid :=
  (session.call.filter (isOpen t)).filter (· ≠ callId)

theorem leaves_eq_some {session : Session} {t : Records} {callId callId' : Uuid} :
    session.leaves t callId' = some callId ↔
      session.call = some callId ∧ isOpen t callId = true ∧ callId ≠ callId' := by
  unfold Session.leaves
  simp only [Option.filter_eq_some_iff, decide_eq_true_eq]
  tauto

section
variable {session : Session} {d : Db} {callId : Uuid}

theorem closed_call (at_ : Moment) {event : ClientEvent} {peer : Uuid}
    (h : event = .callReject callId peer ∨ event = .callHangup callId peer)
    (participant : (d.callRecords.get callId).any (·.hasParticipant session.userId) = true) :
    event.takesUp session d = some callId ∧ event.opens session at_ d = none ∧
      event.forgets session at_ d = session.leaves d.callRecords callId := by
  rcases h with rfl | rfl <;>
    simp [ClientEvent.takesUp, ClientEvent.opens, ClientEvent.forgets, Session.leaves, participant]

theorem answered_call (at_ : Moment) (peer : Uuid) (sdpAnswer : String)
    (participant : (d.callRecords.get callId).any (·.hasParticipant session.userId) = true) :
    (ClientEvent.callAnswer callId peer sdpAnswer).takesUp session d = some callId ∧
      (ClientEvent.callAnswer callId peer sdpAnswer).opens session at_ d = some callId ∧
      (ClientEvent.callAnswer callId peer sdpAnswer).forgets session at_ d =
        session.leaves d.callRecords callId := by
  simp [ClientEvent.takesUp, ClientEvent.opens, ClientEvent.forgets, Session.leaves, participant]

theorem known_of_participant
    (participant : (d.callRecords.get callId).any (·.hasParticipant session.userId) = true) :
    (d.callRecords.get callId).isSome := by
  cases hget : d.callRecords.get callId <;> simp_all

end

namespace Turn

variable {session : Session} {at_ : Moment} {d : Db} {event : ClientEvent} {next : Option Session}
  {t : Records} {callId : Uuid}

theorem takenUp (h : Turn session at_ d event next t)
    (htakes : event.takesUp session d = some callId) :
    isOver t callId = true ∨ next.bind Session.call = some callId := by
  cases h with
  | idle _ _ takesUp => simp [takesUp] at htakes
  | unheard => cases htakes
  | offered => cases htakes
  | unannounced => cases htakes
  | answered callId' callerId sdpAnswer participant =>
    rw [(answered_call at_ callerId sdpAnswer participant).1] at htakes
    exact .inr htakes
  | closed _ callId' peer newStatus which final participant =>
    rw [(closed_call at_ which participant).1] at htakes
    cases htakes
    exact .inl (isOver_setIn final (known_of_participant participant) _)

theorem over_kept (h : Turn session at_ d event next t) (hover : isOver d.callRecords callId = true)
    (hne : event.takesUp session d ≠ some callId) : isOver t callId = true := by
  cases h with
  | idle => exact hover
  | unheard => exact isOver_closeIn_of_isOver hover _
  | offered calleeId callType sdpOffer t inserted => exact isOver_insert inserted hover
  | unannounced calleeId callType sdpOffer t inserted =>
    exact isOver_closeIn_of_isOver (isOver_insert inserted hover) _
  | answered callId' callerId sdpAnswer participant =>
    have hother : callId ≠ callId' := by
      rintro rfl
      exact hne (answered_call at_ callerId sdpAnswer participant).1
    rwa [isOver_setIn_of_ne hother]
  | closed _ callId' peer newStatus which final participant =>
    have hother : callId ≠ callId' := by
      rintro rfl
      exact hne (closed_call at_ which participant).1
    rwa [isOver_setIn_of_ne hother]

/-- The session ends the call that it remembers, still remembers it, or forgets it. -/
theorem remembered (h : Turn session at_ d event next t) (hcall : session.call = some callId)
    (hknown : (d.callRecords.get callId).isSome) :
    isOver t callId = true ∨ next.bind Session.call = some callId ∨
      event.forgets session at_ d = some callId := by
  by_cases htakes : event.takesUp session d = some callId
  · rcases h.takenUp htakes with hover | hnext
    · exact .inl hover
    · exact .inr (.inl hnext)
  rcases hopen : isOpen d.callRecords callId with _ | _
  · exact .inl (h.over_kept (isOver_of_known hknown hopen) htakes)
  cases h with
  | idle => exact .inr (.inl hcall)
  | unheard => exact .inl (isOver_closeIn hcall hknown _)
  | offered calleeId callType sdpOffer t inserted created heard =>
    refine .inr (.inr ?_)
    simp [ClientEvent.forgets, ClientEvent.opens, created, heard, hcall, hopen]
  | unannounced calleeId callType sdpOffer t inserted =>
    exact .inl (isOver_closeIn hcall (isSome_insert inserted hknown) _)
  | answered callId' callerId sdpAnswer participant =>
    obtain ⟨htakes', -, hforgets⟩ := answered_call at_ callerId sdpAnswer participant
    refine .inr (.inr (hforgets.trans (leaves_eq_some.mpr ⟨hcall, hopen, ?_⟩)))
    rintro rfl
    exact htakes htakes'
  | closed _ callId' peer newStatus which final participant =>
    obtain ⟨htakes', -, hforgets⟩ := closed_call at_ which participant
    refine .inr (.inr (hforgets.trans (leaves_eq_some.mpr ⟨hcall, hopen, ?_⟩)))
    rintro rfl
    exact htakes htakes'

theorem opened (h : Turn session at_ d event next t)
    (hopens : event.opens session at_ d = some callId) :
    next.bind Session.call = some callId ∨ event.forgets session at_ d = some callId := by
  cases h with
  | idle _ opens => simp [opens] at hopens
  | unheard => cases hopens
  | offered calleeId callType sdpOffer t inserted created heard =>
    simp only [ClientEvent.opens, created, if_pos] at hopens
    exact .inl hopens
  | unannounced calleeId callType sdpOffer t inserted created lost =>
    simp only [ClientEvent.opens, created, if_pos] at hopens
    refine .inr ?_
    simpa [ClientEvent.forgets, ClientEvent.opens, created, lost] using hopens
  | answered callId' callerId sdpAnswer participant =>
    rw [(answered_call at_ callerId sdpAnswer participant).2.1] at hopens
    exact .inl hopens
  | closed _ callId' peer newStatus which final participant =>
    rw [(closed_call at_ which participant).2.1] at hopens
    cases hopens

theorem call_cases (h : Turn session at_ d event next t)
    (hnext : next.bind Session.call = some callId) :
    session.call = some callId ∨ event.opens session at_ d = some callId := by
  cases h with
  | idle => exact .inl hnext
  | unheard => cases hnext
  | offered calleeId callType sdpOffer t inserted created =>
    have hopens : (ClientEvent.callOffer calleeId callType sdpOffer).opens session at_ d =
        some at_.callId := by simp [ClientEvent.opens, created]
    exact .inr (hopens.trans hnext)
  | unannounced => cases hnext
  | answered callId' callerId sdpAnswer participant =>
    exact .inr ((answered_call at_ callerId sdpAnswer participant).2.1.trans hnext)
  | closed => cases hnext

theorem known (h : Turn session at_ d event next t) (hknown : (d.callRecords.get callId).isSome) :
    (t.get callId).isSome := by
  have hclose : ∀ {t : Records}, (t.get callId).isSome →
      ((session.closeIn at_.now t).get callId).isSome := by
    intro t ht
    unfold Session.closeIn
    split
    · exact ht
    · rwa [isSome_setIn]
  cases h with
  | idle => exact hknown
  | unheard => exact hclose hknown
  | offered calleeId callType sdpOffer t inserted => exact isSome_insert inserted hknown
  | unannounced calleeId callType sdpOffer t inserted =>
    exact hclose (isSome_insert inserted hknown)
  | answered => rwa [isSome_setIn]
  | closed => rwa [isSome_setIn]

theorem known_call (h : Turn session at_ d event next t)
    (hknown : ∀ callId, session.call = some callId → (d.callRecords.get callId).isSome)
    (hnext : next.bind Session.call = some callId) : (t.get callId).isSome := by
  rcases h.call_cases hnext with hcall | hopens
  · exact h.known (hknown callId hcall)
  · cases h with
    | idle _ opens => simp [opens] at hopens
    | unheard => cases hnext
    | offered calleeId callType sdpOffer t inserted =>
      cases hnext
      exact known_of_isOpen (isOpen_new inserted (newCall_open session calleeId callType at_))
    | unannounced => cases hnext
    | answered callId' callerId sdpAnswer participant =>
      cases hnext
      rw [isSome_setIn]
      exact known_of_participant participant
    | closed => cases hnext

/-- An event leaves alone what the session neither remembers nor takes up. -/
theorem open_kept (h : Turn session at_ d event next t) (hopen : isOpen d.callRecords callId = true)
    (hcall : session.call ≠ some callId) (htakes : event.takesUp session d ≠ some callId) :
    isOpen t callId = true ∧ next.bind Session.call ≠ some callId := by
  cases h with
  | idle => exact ⟨hopen, hcall⟩
  | unheard => exact ⟨isOpen_closeIn hcall hopen _, by simp⟩
  | offered calleeId callType sdpOffer t inserted =>
    obtain ⟨hopen', hne⟩ := isOpen_insert inserted hopen
    refine ⟨hopen', ?_⟩
    rintro hnext
    cases hnext
    exact hne rfl
  | unannounced calleeId callType sdpOffer t inserted =>
    exact ⟨isOpen_closeIn hcall (isOpen_insert inserted hopen).1 _, by simp⟩
  | answered callId' callerId sdpAnswer participant =>
    have hother : callId ≠ callId' := by
      rintro rfl
      exact htakes (answered_call at_ callerId sdpAnswer participant).1
    refine ⟨by rwa [isOpen_setIn_of_ne hother], ?_⟩
    rintro hnext
    cases hnext
    exact hother rfl
  | closed _ callId' peer newStatus which final participant =>
    have hother : callId ≠ callId' := by
      rintro rfl
      exact htakes (closed_call at_ which participant).1
    exact ⟨by rwa [isOpen_setIn_of_ne hother], by simp [Session.call]⟩

/-- A forgotten call is unfinished, and was remembered before or has just been started. -/
theorem forgotten (h : Turn session at_ d event next t)
    (hknown : ∀ callId, session.call = some callId → (d.callRecords.get callId).isSome)
    (hforgets : event.forgets session at_ d = some callId) :
    (session.call = some callId ∨ event.opens session at_ d = some callId) ∧
      isOpen t callId = true ∧ next.bind Session.call ≠ some callId := by
  cases h with
  | idle _ _ _ forgets => simp [forgets] at hforgets
  | unheard => cases hforgets
  | offered calleeId callType sdpOffer t inserted created heard =>
    obtain ⟨hcall, hopen⟩ : session.call = some callId ∧ isOpen d.callRecords callId = true := by
      simpa [ClientEvent.forgets, ClientEvent.opens, created, heard, Option.filter_eq_some_iff]
        using hforgets
    obtain ⟨hopen', hne⟩ := isOpen_insert inserted hopen
    refine ⟨.inl hcall, hopen', ?_⟩
    rintro hnext
    cases hnext
    exact hne rfl
  | unannounced calleeId callType sdpOffer t inserted created lost =>
    have hnew : at_.callId = callId := by
      simpa [ClientEvent.forgets, ClientEvent.opens, created, lost] using hforgets
    subst hnew
    have hcall : session.call ≠ some at_.callId := by
      intro hcall
      have := hknown _ hcall
      rw [show at_.callId = (newCall session calleeId callType at_).id from rfl,
        Table.get_eq_none_of_insert inserted] at this
      cases this
    refine ⟨.inr (by simp [ClientEvent.opens, created]), ?_, by simp⟩
    exact isOpen_closeIn hcall
      (isOpen_new inserted (newCall_open session calleeId callType at_)) _
  | answered callId' callerId sdpAnswer participant =>
    obtain ⟨-, -, hleaves⟩ := answered_call at_ callerId sdpAnswer participant
    obtain ⟨hcall, hopen, hother⟩ := leaves_eq_some.mp (hleaves.symm.trans hforgets)
    refine ⟨.inl hcall, by rwa [isOpen_setIn_of_ne hother], ?_⟩
    rintro hnext
    cases hnext
    exact hother rfl
  | closed _ callId' peer newStatus which final participant =>
    obtain ⟨-, -, hleaves⟩ := closed_call at_ which participant
    obtain ⟨hcall, hopen, hother⟩ := leaves_eq_some.mp (hleaves.symm.trans hforgets)
    exact ⟨.inl hcall, by rwa [isOpen_setIn_of_ne hother], by simp [Session.call]⟩

end Turn

/-! ## A whole session -/

namespace Live

variable {live : Live} {sid : Nat} {session : Session} {callId : Uuid}

def Known (live : Live) (sid : Nat) : Prop :=
  ∀ callId, live.call sid = some callId → (live.records.get callId).isSome

theorem step_event_of_none (h : live.sessions sid = none) (e : ClientEvent × Moment) :
    live.step (.event sid e.1 e.2) = live := by
  simp only [step, h]

theorem turn_step (h : live.sessions sid = some session) (e : ClientEvent × Moment) :
    Turn session e.2 live.server.db e.1 ((live.step (.event sid e.1 e.2)).sessions sid)
      (live.step (.event sid e.1 e.2)).records := by
  obtain ⟨next, s', hrun, hturn⟩ := turn_serve session e.1 e.2 live.server
  simpa [step, h, hrun, records] using hturn

theorem call_of_some (h : live.sessions sid = some session) : live.call sid = session.call := by
  simp [call, h]

theorem call_of_none (h : live.sessions sid = none) : live.call sid = none := by
  simp [call, h]

theorem Known.step (hknown : live.Known sid) (e : ClientEvent × Moment) :
    (live.step (.event sid e.1 e.2)).Known sid := by
  rcases h : live.sessions sid with _ | session
  · rwa [step_event_of_none h]
  · intro callId hcall
    refine (turn_step h e).known_call ?_ hcall
    intro callId' hcall'
    exact hknown callId' ((call_of_some h).trans hcall')

theorem isOver_disconnect (hknown : live.Known sid)
    (h : isOver live.records callId = true ∨ live.call sid = some callId) (now : Int) :
    isOver (live.step (.disconnect sid now)).records callId = true := by
  rcases hs : live.sessions sid with _ | session
  · rw [call_of_none hs] at h
    simpa [Live.step, hs] using h
  · have hrecords : (live.step (.disconnect sid now)).records =
        session.closeIn now live.records := by
      simp only [Live.step, hs, records, run_cleanUp, cleanedUp_records]
    rw [hrecords]
    rcases h with hover | hcall
    · exact isOver_closeIn_of_isOver hover now
    · exact isOver_closeIn ((call_of_some hs).symm.trans hcall) (hknown callId hcall) now

theorem isOpen_disconnect (hopen : isOpen live.records callId = true)
    (hcall : live.call sid ≠ some callId) (now : Int) :
    isOpen (live.step (.disconnect sid now)).records callId = true := by
  rcases hs : live.sessions sid with _ | session
  · simpa [Live.step, hs] using hopen
  · rw [call_of_some hs] at hcall
    simp only [Live.step, hs, records, run_cleanUp, cleanedUp_records]
    exact isOpen_closeIn hcall hopen now

/-- A call is finished at the end if it is finished or remembered, or is going to be taken up. -/
theorem finishes {script : Script} (hknown : live.Known sid) (h : LeavesNone sid live script)
    (hcall : isOver live.records callId = true ∨ live.call sid = some callId ∨
      TakenUp sid callId live script) (now : Int) :
    isOver (live.run (remainder sid script now)).records callId = true := by
  induction script generalizing live with
  | nil =>
    refine isOver_disconnect hknown ?_ now
    simpa [TakenUp] using hcall
  | cons e script ih =>
    refine ih (hknown.step e) h.2 ?_
    rcases hs : live.sessions sid with _ | session
    · -- the session is over, and nothing changes any more
      have htaken : live.takesUp sid e = none := by simp [takesUp, hs]
      simpa [TakenUp, step_event_of_none hs, call_of_none hs, htaken] using hcall
    have hturn := turn_step hs e
    by_cases htakes : live.takesUp sid e = some callId
    · rcases hturn.takenUp (by simpa [takesUp, hs] using htakes) with hover | hnext
      · exact .inl hover
      · exact .inr (.inl hnext)
    rcases hcall with hover | hcall | htaken
    · exact .inl (hturn.over_kept hover (by simpa [takesUp, hs] using htakes))
    · have hknown' := hknown callId hcall
      have hcall' := (call_of_some hs).symm.trans hcall
      rcases hturn.remembered hcall' hknown' with hover | hnext | hforgets
      · exact .inl hover
      · exact .inr (.inl hnext)
      · exact .inr (.inr (h.1 callId (by simpa [forgets, hs] using hforgets)))
    · exact .inr (.inr (htaken.resolve_left htakes))

theorem stays_open {script : Script} (hopen : isOpen live.records callId = true)
    (hcall : live.call sid ≠ some callId) (h : ¬ TakenUp sid callId live script) (now : Int) :
    isOpen (live.run (remainder sid script now)).records callId = true := by
  induction script generalizing live with
  | nil => exact isOpen_disconnect hopen hcall now
  | cons e script ih =>
    obtain ⟨htakes, htaken⟩ := not_or.mp h
    rcases hs : live.sessions sid with _ | session
    · rw [step_event_of_none hs] at htaken
      change isOpen ((live.step (.event sid e.1 e.2)).run _).records callId = true
      rw [step_event_of_none hs]
      exact ih hopen hcall htaken
    · rw [call_of_some hs] at hcall
      obtain ⟨hopen', hcall'⟩ := (turn_step hs e).open_kept hopen hcall
        (by simpa [takesUp, hs] using htakes)
      exact ih hopen' hcall' htaken

theorem call_step {e : ClientEvent × Moment}
    (hcall : (live.step (.event sid e.1 e.2)).call sid = some callId) :
    live.call sid = some callId ∨ live.opens sid e = some callId := by
  rcases hs : live.sessions sid with _ | session
  · rw [step_event_of_none hs] at hcall
    exact .inl hcall
  · rw [call_of_some hs]
    rcases (turn_step hs e).call_cases hcall with hbefore | hopens
    · exact .inl hbefore
    · exact .inr (by simpa [opens, hs] using hopens)

theorem opens_step {e : ClientEvent × Moment} (hopens : live.opens sid e = some callId) :
    (live.step (.event sid e.1 e.2)).call sid = some callId ∨ live.forgets sid e = some callId := by
  rcases hs : live.sessions sid with _ | session
  · simp [opens, hs] at hopens
  · rcases (turn_step hs e).opened (by simpa [opens, hs] using hopens) with hnext | hforgets
    · exact .inl hnext
    · exact .inr (by simpa [forgets, hs] using hforgets)

theorem forgets_step {e : ClientEvent × Moment} (hknown : live.Known sid)
    (hforgets : live.forgets sid e = some callId) :
    (live.call sid = some callId ∨ live.opens sid e = some callId) ∧
      isOpen (live.step (.event sid e.1 e.2)).records callId = true ∧
      (live.step (.event sid e.1 e.2)).call sid ≠ some callId := by
  rcases hs : live.sessions sid with _ | session
  · simp [forgets, hs] at hforgets
  · rw [call_of_some hs]
    obtain ⟨hours, hopen, hcall⟩ := (turn_step hs e).forgotten
      (fun callId h => hknown callId ((call_of_some hs).trans h))
      (by simpa [forgets, hs] using hforgets)
    exact ⟨hours.imp_right (by simpa [opens, hs] using ·), hopen, hcall⟩

/-- All calls of a session are finished at the end if and only if it forgets none for good. -/
theorem finishes_iff (script : Script) (hknown : live.Known sid) (now : Int) :
    (∀ callId, live.call sid = some callId ∨ callId ∈ opened sid live script →
      isOver (live.run (remainder sid script now)).records callId = true) ↔
      LeavesNone sid live script := by
  induction script generalizing live with
  | nil =>
    refine iff_of_true (fun callId h => ?_) trivial
    refine finishes hknown (show LeavesNone sid live [] from trivial) (.inr (.inl ?_)) now
    simpa [opened] using h
  | cons e script ih =>
    have hours : ∀ {callId}, live.opens sid e = some callId →
        callId ∈ opened sid live (e :: script) := by
      intro callId h
      simp [opened, h]
    constructor
    · intro hall
      have hrest : LeavesNone sid (live.step (.event sid e.1 e.2)) script := by
        refine (ih (hknown.step e)).mp (fun callId h => hall callId ?_)
        rcases h with hcall | hopened
        · exact (call_step hcall).imp_right hours
        · exact .inr (List.mem_append_right _ hopened)
      refine ⟨fun callId hforgets => ?_, hrest⟩
      obtain ⟨hcall, hopen, hnext⟩ := forgets_step hknown hforgets
      by_contra htaken
      have hover := hall callId (hcall.imp_right hours)
      have hstays := stays_open hopen hnext htaken now
      exact Bool.false_ne_true ((not_isOpen_of_isOver hover).symm.trans hstays)
    · intro h callId hcall
      by_cases hlater : callId ∈ opened sid (live.step (.event sid e.1 e.2)) script
      · exact (ih (hknown.step e)).mpr h.2 callId (.inr hlater)
      rcases hcall with hcall | hopened
      · exact finishes hknown h (.inr (.inl hcall)) now
      · have hopens : live.opens sid e = some callId := by
          simpa [opened, hlater] using hopened
        refine finishes (hknown.step e) h.2 ?_ now
        rcases opens_step hopens with hnext | hforgets
        · exact .inr (.inl hnext)
        · exact .inr (.inr (h.1 callId hforgets))

end Live

/-- When a session is over, all calls that it has started or answered are finished if and only if
every unfinished call that it has turned away from, and every call that its client was not told
of, was answered, rejected or hung up by it later. -/
theorem no_call_left_behind_iff (live : Live) (sid : Nat) (userId : Uuid) (publishes : Bool)
    (script : Script) (now : Int) (hfree : live.sessions sid = none) :
    let connected := live.step (.connect sid userId publishes)
    (∀ callId ∈ connected.opened sid script,
      isOver (live.run (lifetime sid userId publishes script now)).records callId = true) ↔
      connected.LeavesNone sid script := by
  intro connected
  have hcall : connected.call sid = none := by
    simp [connected, Live.call, Live.step, hfree, Session.call]
  have hknown : connected.Known sid := by
    intro callId h
    rw [hcall] at h
    cases h
  refine Iff.trans ?_ (Live.finishes_iff script hknown now)
  simp [hcall, lifetime, connected]

/-- Alice calls Carol, and then Bob. -/
def twoOffers : Script :=
  [(.callOffer 3 "voice" "offer", ⟨100, 10, true⟩), (.callOffer 2 "voice" "offer", ⟨200, 11, true⟩)]

/-- Alice loses the connection: the second call is ended, and the first one is not. -/
theorem second_offer_leaves_first :
    let connected := phones.step (.connect 1 1 true)
    let after := phones.run (lifetime 1 1 true twoOffers 300)
    connected.opened 1 twoOffers = [10, 11] ∧
      after.records.get 10 = some ⟨10, 1, 3, "voice", "initiated", none, none⟩ ∧
      after.records.get 11 = some ⟨11, 1, 2, "voice", "ended", none, some 300⟩ ∧
      ¬ ∀ callId ∈ connected.opened 1 twoOffers, isOver after.records callId = true := by
  decide

/-- Alice hangs up the first call, which makes the session forget the second one, and then that. -/
theorem no_call_left_behind_hangup :
    let script := twoOffers ++
      [(.callHangup 10 3, ⟨250, 0, true⟩), (.callHangup 11 2, ⟨260, 0, true⟩)]
    ∀ callId ∈ (phones.step (.connect 1 1 true)).opened 1 script,
      isOver (phones.run (lifetime 1 1 true script 300)).records callId = true :=
  (no_call_left_behind_iff phones 1 1 true _ 300 rfl).mpr (by decide)

end SyncServer.Calls
