import SyncServer.Calls.Session

/-! # The peers of a call

A signal goes to the user that the client names, and the clean-up of a session uses the name of
the last answer. The record of the call says who the peer is.
-/

namespace SyncServer.Calls
open Transaction

def Peer (records : Records) (callId user peer : Uuid) : Prop :=
  ∃ r, records.get callId = some r ∧ r.hasParticipant user = true ∧ peer = r.other user

/-- A signal for a call is published to the other participant. -/
def RightChannel (records : Records) : Outgoing → Prop
  | .publish channel event => ∀ callId user, event.signal = some (callId, user) →
      Peer records callId user channel
  | _ => True

/-- The client names a user that is not the other participant of its call. -/
def ClientEvent.isMisdirected (session : Session) (records : Records) (event : ClientEvent) : Bool :=
  event.names.any (fun c => session.publishes && (records.get c.1).any (fun r =>
    r.hasParticipant session.userId && c.2 != r.other session.userId))

def Live.isMisdirected (live : Live) : Step → Bool
  | .event sid event _ =>
    (live.sessions sid).any (fun session => event.isMisdirected session live.records)
  | _ => false

theorem other_eq {r r' : CallRecord} (h : r'.callerId = r.callerId) (h' : r'.calleeId = r.calleeId)
    (user : Uuid) : r'.other user = r.other user ∧ r'.hasParticipant user = r.hasParticipant user := by
  simp [CallRecord.other, CallRecord.hasParticipant, h, h']

theorem Peer.mono {t t' : Records} (h : SameParticipants t t') {callId user peer : Uuid}
    (hp : Peer t callId user peer) : Peer t' callId user peer := by
  obtain ⟨r, hr, hpart, rfl⟩ := hp
  obtain ⟨r', hr', hcaller, hcallee⟩ := h callId r hr
  obtain ⟨hother, hpart'⟩ := other_eq hcaller hcallee user
  exact ⟨r', hr', hpart'.trans hpart, hother.symm⟩

theorem RightChannel.mono {t t' : Records} (h : SameParticipants t t') {o : Outgoing}
    (ho : RightChannel t o) : RightChannel t' o := by
  cases o with
  | publish channel event => exact fun callId user hs => (ho callId user hs).mono h
  | push => trivial
  | activity => trivial

theorem not_peer_mono {t t' : Records} (h : SameParticipants t t') {callId user peer : Uuid}
    {r : CallRecord} (hr : t.get callId = some r) (hpeer : peer ≠ r.other user) :
    ¬ Peer t' callId user peer := by
  rintro ⟨r', hr', -, rfl⟩
  obtain ⟨r'', hr'', hcaller, hcallee⟩ := h callId r hr
  rw [hr'] at hr''
  cases hr''
  exact hpeer (other_eq hcaller hcallee user).1

/-! ## What is published -/

theorem relayed_sent (session : Session) (channel : Uuid) (event : Event) (s : Server) :
    (relayed session channel event s).sent =
      s.sent ++ if session.publishes then [.publish channel event] else [] := by
  unfold relayed
  split <;> simp

structure Extends (s s' : Server) : Prop where
  sent : s.sent <+: s'.sent
  participants : SameParticipants s.db.callRecords s'.db.callRecords

theorem Extends.refl (s : Server) : Extends s s := ⟨List.prefix_rfl, SameParticipants.refl _⟩

theorem Extends.trans {s s' s'' : Server} (h : Extends s s') (h' : Extends s' s'') :
    Extends s s'' := ⟨h.sent.trans h'.sent, h.participants.trans h'.participants⟩

theorem extends_relayed (session : Session) (channel : Uuid) (event : Event) {s s' : Server}
    (hsent : s'.sent = s.sent) (h : SameParticipants s.db.callRecords s'.db.callRecords) :
    Extends s (relayed session channel event s') := by
  constructor
  · rw [relayed_sent, hsent]
    exact List.prefix_append _ _
  · rwa [relayed_db]

theorem sameParticipants_setStatus (callId : Uuid) (newStatus : String) (now : Int) (d : Db) :
    SameParticipants d.callRecords (setStatus callId newStatus now d).callRecords :=
  SameParticipants.update _ _ _ _

theorem sameParticipants_withNewStatus (callId : Uuid) (newStatus : Option String) (now : Int)
    (d : Db) : SameParticipants d.callRecords (withNewStatus callId newStatus now d).callRecords := by
  cases newStatus with
  | none => exact SameParticipants.refl _
  | some newStatus => exact sameParticipants_setStatus callId newStatus now d

theorem extends_cleanedUp (session : Session) (now : Int) (s : Server) :
    Extends s (cleanedUp session now s) := by
  unfold cleanedUp
  split
  · exact Extends.refl s
  · exact extends_relayed _ _ _ rfl (sameParticipants_setStatus _ _ _ _)

theorem extends_served {session : Session} {event : ClientEvent} {at_ : Moment} {s : Server}
    {out : Except AppError (Option Session) × Server} (h : Served session at_ s event out) :
    Extends s out.2 := by
  cases h with
  | ignored => exact Extends.refl s
  | unheard => exact Extends.refl s
  | typed => exact extends_relayed _ _ _ rfl (SameParticipants.refl _)
  | unannounced calleeId callType sdpOffer t lost created inserted =>
    exact ⟨List.prefix_rfl, SameParticipants.insert inserted⟩
  | offered calleeId callType sdpOffer t name inserted s' db sent =>
    constructor
    · change s.sent <+: s'.sent
      rw [sent, relayed_sent, List.append_assoc]
      exact List.prefix_append _ _
    · change SameParticipants _ s'.db.callRecords
      rw [db]
      exact SameParticipants.insert inserted
  | signalled => exact extends_relayed _ _ _ rfl (sameParticipants_withNewStatus _ _ _ _)

theorem extends_serve (session : Session) (event : ClientEvent) (at_ : Moment) (s : Server) :
    Extends s ((serve session event at_).run s).2 := by
  have h := extends_served (serve_cases session event at_ s)
  rw [run_serve]
  rcases hrun : (handleEvent session event at_).run s with ⟨_ | _ | next, s'⟩ <;> rw [hrun] at h
  · exact h
  · exact h.trans (extends_cleanedUp _ _ _)
  · exact h

theorem extends_step (live : Live) (step : Step) : Extends live.server (live.step step).server := by
  cases step with
  | connect sid userId publishes =>
    simp only [Live.step]
    split <;> exact Extends.refl _
  | event sid event at_ =>
    rcases hs : live.sessions sid with _ | session
    · simp only [Live.step, hs]
      exact Extends.refl _
    · have hserve := extends_serve session event at_ live.server
      simp only [Live.step, hs]
      split <;> rename_i server hrun <;> rw [hrun] at hserve <;> exact hserve
  | disconnect sid now =>
    rcases hs : live.sessions sid with _ | session
    · simp only [Live.step, hs]
      exact Extends.refl _
    · simp only [Live.step, hs, run_cleanUp]
      exact extends_cleanedUp _ _ _

theorem extends_run (live : Live) (steps : List Step) :
    Extends live.server (live.run steps).server := by
  induction steps generalizing live with
  | nil => exact Extends.refl _
  | cons step steps ih => exact (extends_step live step).trans (ih _)

/-! ## Sessions that know their peer -/

def Session.KnowsPeer (session : Session) (records : Records) : Prop :=
  session.publishes = true → ∀ callId peer, session.activeCall = some (callId, peer) →
    Peer records callId session.userId peer

theorem Session.KnowsPeer.mono {session : Session} {t t' : Records} (h : SameParticipants t t')
    (hs : session.KnowsPeer t) : session.KnowsPeer t' :=
  fun hp callId peer hactive => (hs hp callId peer hactive).mono h

structure Directed (live : Live) : Prop where
  sent : ∀ o ∈ live.server.sent, RightChannel live.records o
  sessions : ∀ sid session, live.sessions sid = some session → session.KnowsPeer live.records

theorem right_relayed {session : Session} {channel : Uuid} {event : Event} {s : Server}
    (h : ∀ o ∈ s.sent, RightChannel s.db.callRecords o)
    (hevent : session.publishes = true → RightChannel s.db.callRecords (.publish channel event)) :
    ∀ o ∈ (relayed session channel event s).sent,
      RightChannel (relayed session channel event s).db.callRecords o := by
  intro o ho
  rw [relayed_db]
  rw [relayed_sent, List.mem_append] at ho
  rcases ho with ho | ho
  · exact h o ho
  · split at ho
    · rename_i hp
      rw [List.mem_singleton] at ho
      rw [ho]
      exact hevent hp
    · cases ho

theorem right_cleanedUp {session : Session} {now : Int} {s : Server}
    (h : ∀ o ∈ s.sent, RightChannel s.db.callRecords o)
    (hs : session.KnowsPeer s.db.callRecords) :
    ∀ o ∈ (cleanedUp session now s).sent,
      RightChannel (cleanedUp session now s).db.callRecords o := by
  unfold cleanedUp
  split
  · exact h
  rename_i callId peerId hactive
  have hsame := sameParticipants_setStatus callId "ended" now s.db
  apply right_relayed (s := s.setDb (setStatus callId "ended" now s.db))
  · exact fun o ho => (h o ho).mono hsame
  · intro hp callId' user hsignal
    cases hsignal
    exact (hs hp callId peerId hactive).mono hsame

/-- An event that names the right user is passed on to the right channel. -/
theorem right_served {session : Session} {event : ClientEvent} {at_ : Moment} {s : Server}
    {out : Except AppError (Option Session) × Server} (h : ∀ o ∈ s.sent, RightChannel s.db.callRecords o)
    (hs : session.KnowsPeer s.db.callRecords)
    (hevent : event.isMisdirected session s.db.callRecords = false)
    (hserved : Served session at_ s event out) :
    (∀ o ∈ out.2.sent, RightChannel out.2.db.callRecords o) ∧
      ∀ next, out.1 = .ok (some next) → next.KnowsPeer out.2.db.callRecords := by
  have hext := extends_served hserved
  cases hserved with
  | ignored =>
    refine ⟨h, ?_⟩
    rintro next ⟨⟩
    exact hs
  | unheard =>
    refine ⟨h, ?_⟩
    rintro next ⟨⟩
  | typed partnerId isTyping =>
    refine ⟨right_relayed h (fun _ callId user hsignal => by cases hsignal), ?_⟩
    rintro next ⟨⟩
    exact hs.mono hext.participants
  | unannounced =>
    refine ⟨fun o ho => (h o ho).mono hext.participants, ?_⟩
    rintro next ⟨⟩
  | offered calleeId callType sdpOffer t name inserted s' db sent =>
    refine ⟨fun o ho => ?_, ?_⟩
    · change o ∈ s'.sent at ho
      rw [sent, relayed_sent, List.append_assoc, List.mem_append, List.mem_append] at ho
      rcases ho with ho | ho | ho
      · exact (h o ho).mono hext.participants
      · split at ho
        · rw [List.mem_singleton] at ho
          rw [ho]
          intro callId user hsignal
          cases hsignal
        · cases ho
      · rw [List.mem_singleton] at ho
        rw [ho]
        trivial
    · rintro next ⟨⟩ _ callId peer ⟨⟩
      refine ⟨newCall session calleeId callType at_, ?_, ?_, ?_⟩
      · change s'.db.callRecords.get at_.callId = _
        rw [db]
        change t.get at_.callId = _
        rw [Table.get_of_insert inserted, if_pos]
        rfl
      · simp [CallRecord.hasParticipant, newCall]
      · simp [CallRecord.other, newCall]
  | signalled _ callId peer activeCall out names participant kind memory =>
    have hpeer : session.publishes = true → Peer s.db.callRecords callId session.userId peer := by
      intro hp
      obtain ⟨r, hr, hpart⟩ := (Option.any_eq_true _ _).mp participant
      refine ⟨r, hr, hpart, ?_⟩
      simpa [ClientEvent.isMisdirected, names, hp, hr, hpart] using hevent
    have hsame := sameParticipants_withNewStatus callId event.newStatus at_.now s.db
    refine ⟨right_relayed (s := s.setDb (withNewStatus callId event.newStatus at_.now s.db))
      (fun o ho => (h o ho).mono hsame) ?_, ?_⟩
    · intro hp callId' user hsignal
      rw [kind] at hsignal
      cases hsignal
      exact (hpeer hp).mono hsame
    · rintro next ⟨⟩ hp callId' peer' hactive
      refine Peer.mono hext.participants ?_
      rcases memory with rfl | rfl | rfl
      · cases hactive
      · cases hactive
        exact hpeer hp
      · exact hs hp callId' peer' hactive

theorem right_serve {session : Session} {event : ClientEvent} (at_ : Moment) {s : Server}
    (h : ∀ o ∈ s.sent, RightChannel s.db.callRecords o) (hs : session.KnowsPeer s.db.callRecords)
    (hevent : event.isMisdirected session s.db.callRecords = false) :
    (∀ o ∈ ((serve session event at_).run s).2.sent,
        RightChannel ((serve session event at_).run s).2.db.callRecords o) ∧
      ∀ next, ((serve session event at_).run s).1 = .ok (some next) →
        next.KnowsPeer ((serve session event at_).run s).2.db.callRecords := by
  have hcases := serve_cases session event at_ s
  have hext := extends_served hcases
  have hright := right_served h hs hevent hcases
  rw [run_serve]
  rcases hrun : (handleEvent session event at_).run s with ⟨_ | _ | next, s'⟩ <;>
    rw [hrun] at hright hext
  · exact hright
  · refine ⟨right_cleanedUp hright.1 (hs.mono hext.participants), ?_⟩
    rintro next ⟨⟩
  · exact hright

theorem knowsPeer_update {sessions : Nat → Option Session} {t t' : Records} {sid : Nat}
    {next : Option Session}
    (h : ∀ sid session, sessions sid = some session → session.KnowsPeer t)
    (hsame : SameParticipants t t') (hnext : ∀ session ∈ next, session.KnowsPeer t') :
    ∀ sid' session, Function.update sessions sid next sid' = some session →
      session.KnowsPeer t' := by
  intro sid' session hsession
  by_cases hsid : sid' = sid
  · subst hsid
    rw [Function.update_self] at hsession
    exact hnext session hsession
  · rw [Function.update_of_ne hsid] at hsession
    exact (h sid' session hsession).mono hsame

/-- A step that names the right user keeps all signals on the right channels. -/
theorem directed_step {live : Live} {step : Step} (h : Directed live)
    (hstep : live.isMisdirected step = false) : Directed (live.step step) := by
  have hext := extends_step live step
  cases step with
  | connect sid userId publishes =>
    rcases hs : live.sessions sid with _ | session
    · simp only [Live.step, hs]
      refine ⟨h.sent, knowsPeer_update h.sessions (SameParticipants.refl _) ?_⟩
      rintro session ⟨⟩ _ callId peer ⟨⟩
    · simp only [Live.step, hs]
      exact h
  | event sid event at_ =>
    rcases hs : live.sessions sid with _ | session
    · simp only [Live.step, hs]
      exact h
    simp only [Live.isMisdirected, hs, Option.any_some] at hstep
    have hserve := right_serve at_ h.sent (h.sessions sid session hs) hstep
    simp only [Live.step, hs] at hext ⊢
    rcases hrun : (serve session event at_).run live.server with ⟨_ | next, server⟩ <;>
      rw [hrun] at hserve hext
    · exact ⟨hserve.1, fun sid' s hs' => (h.sessions sid' s hs').mono hext.participants⟩
    · refine ⟨hserve.1, knowsPeer_update h.sessions hext.participants ?_⟩
      rintro session ⟨⟩
      exact hserve.2 session rfl
  | disconnect sid now =>
    rcases hs : live.sessions sid with _ | session
    · simp only [Live.step, hs]
      exact h
    · simp only [Live.step, hs, run_cleanUp] at hext ⊢
      refine ⟨right_cleanedUp h.sent (h.sessions sid session hs),
        knowsPeer_update h.sessions hext.participants ?_⟩
      rintro session ⟨⟩

theorem directed_run {live : Live} {steps : List Step} (h : Directed live)
    (hsteps : live.Throughout (fun live step => live.isMisdirected step = false) steps) :
    Directed (live.run steps) := by
  induction steps generalizing live with
  | nil => exact h
  | cons step steps ih => exact ih (directed_step h hsteps.1) hsteps.2

/-- A signal that names the wrong user is published to that user. -/
theorem misdirected_published {live : Live} {step : Step} (h : live.isMisdirected step = true) :
    ∃ channel event callId user r, .publish channel event ∈ (live.step step).server.sent ∧
      event.signal = some (callId, user) ∧ live.records.get callId = some r ∧
      channel ≠ r.other user := by
  cases step with
  | connect => cases h
  | disconnect => cases h
  | event sid event at_ =>
    rcases hs : live.sessions sid with _ | session
    · simp [Live.isMisdirected, hs] at h
    simp only [Live.isMisdirected, hs, Option.any_some, ClientEvent.isMisdirected] at h
    obtain ⟨⟨callId, peer⟩, hnames, h⟩ := (Option.any_eq_true _ _).mp h
    rw [Bool.and_eq_true] at h
    obtain ⟨hp, h⟩ := h
    obtain ⟨r, hr, h⟩ := (Option.any_eq_true _ _).mp h
    simp only [Bool.and_eq_true, bne_iff_ne] at h
    obtain ⟨hpart, hne⟩ := h
    have hcases := serve_cases session event at_ live.server
    rcases hrun : (handleEvent session event at_).run live.server with ⟨r', s'⟩
    rw [hrun] at hcases
    cases hcases with
    | ignored _ outside =>
      have hout := outside callId peer hnames
      have hrecords : live.server.db.callRecords.get callId = some r := hr
      rw [hrecords, Option.any_some, hpart] at hout
      cases hout
    | unheard => cases hnames
    | typed => cases hnames
    | unannounced => cases hnames
    | offered => cases hnames
    | signalled _ callId' peer' activeCall out names participant kind memory =>
      rw [names] at hnames
      cases hnames
      refine ⟨peer, out, callId, session.userId, r, ?_, kind, hr, hne⟩
      simp only [Live.step, hs, run_serve, hrun, relayed_sent, hp]
      simp

/-- All signals of a run go to the other participants of their calls if and only if every signal
of a participant names the other participant. -/
theorem signals_directed_iff (live : Live) (hsent : live.server.sent = [])
    (hsessions : ∀ sid, live.sessions sid = none) (steps : List Step) :
    (∀ o ∈ (live.run steps).server.sent, RightChannel (live.run steps).records o) ↔
      live.Throughout (fun live step => live.isMisdirected step = false) steps := by
  constructor
  · -- a wrong signal stays published to the end of the run
    intro h
    clear hsent hsessions
    induction steps generalizing live with
    | nil => trivial
    | cons step steps ih =>
      refine ⟨?_, ih _ h⟩
      rcases hm : live.isMisdirected step with _ | _
      · exact hm
      obtain ⟨channel, event, callId, user, r, hmem, hsignal, hr, hne⟩ := misdirected_published hm
      have hend := (extends_run (live.step step) steps).sent.subset hmem
      have hsame := (extends_run live (step :: steps)).participants
      exact absurd (h _ hend callId user hsignal) (not_peer_mono hsame hr hne)
  · intro h
    have hstart : Directed live := by
      constructor
      · rw [hsent]
        intro o ho
        cases ho
      · intro sid session hs
        rw [hsessions sid] at hs
        cases hs
    exact (directed_run hstart h).sent

/-- Bob answers a call of Alice and names Carol, who gets the answer, and at the end of his
session the hang-up. -/
theorem answer_to_third_user :
    let answered := ringing ++ [.event 2 (.callAnswer 10 3 "answer") ⟨200, 0, true⟩,
      .disconnect 2 300]
    (phones.run answered).server.sent =
        [.publish 2 (.incomingCall 10 1 "voice" "offer"), .push 2 (.incomingCall 1 "alice" 10 "voice"),
          .publish 3 (.callAnswered 10 2 "answer"), .publish 3 (.callHangup 10 2)] ∧
      ¬ RightChannel (phones.run answered).records (.publish 3 (.callAnswered 10 2 "answer")) ∧
      ¬ RightChannel (phones.run answered).records (.publish 3 (.callHangup 10 2)) := by
  have hrecord : ∀ r, (phones.run (ringing ++ [.event 2 (.callAnswer 10 3 "answer") ⟨200, 0, true⟩,
      .disconnect 2 300])).records.get 10 = some r → r.other 2 = 1 := by
    decide
  refine ⟨rfl, fun h => ?_, fun h => ?_⟩ <;>
  · obtain ⟨r, hr, -, hpeer⟩ := h 10 2 rfl
    rw [hrecord r hr] at hpeer
    cases hpeer

/-- Bob answers with the right name, and his session ends with a hang-up to Alice. -/
theorem signals_directed_iff_bob :
    RightChannel (phones.run (ringing ++ [.event 2 (.callAnswer 10 1 "answer") ⟨200, 0, true⟩,
      .disconnect 2 300])).records (.publish 1 (.callHangup 10 2)) :=
  (signals_directed_iff phones rfl (fun _ => rfl) _).mpr (by decide) _
    (List.mem_of_getElem? (i := 3) rfl)

end SyncServer.Calls
