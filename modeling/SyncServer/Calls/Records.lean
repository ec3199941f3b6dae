import SyncServer.Calls.Session

/-! # The course of a call

An answer, a hang-up or the clean-up of a session may come after the call is finished.
`update_status` does not look at the record before it writes.
-/

namespace SyncServer.Calls

def isOver (records : Records) (callId : Uuid) : Bool := (records.get callId).any (·.isFinished)

def Session.remembersOver (session : Session) (records : Records) : Bool :=
  session.activeCall.any (fun call => isOver records call.1)

/-- The event sets the status of a call that is finished. -/
def ClientEvent.isLate (session : Session) (at_ : Moment) (d : Db) : ClientEvent → Bool
  | .ping => !at_.delivered && session.remembersOver d.callRecords
  | .callOffer calleeId callType _ => !at_.delivered &&
      (addCall (newCall session calleeId callType at_) d).isOk && session.remembersOver d.callRecords
  | .callAnswer callId _ _ | .callReject callId _ | .callHangup callId _ =>
    (d.callRecords.get callId).any (·.hasParticipant session.userId) && isOver d.callRecords callId
  | .typing .. | .iceCandidate .. => false

/-- The step sets the status of a call that is finished. -/
def Live.isLate (live : Live) : Step → Bool
  | .connect .. => false
  | .event sid event at_ =>
    (live.sessions sid).any (fun session => event.isLate session at_ live.server.db)
  | .disconnect sid _ =>
    (live.sessions sid).any (fun session => session.remembersOver live.records)

theorem not_finished {records : Records} {callId : Uuid} (h : isOver records callId = false) :
    ∀ r, records.get callId = some r → r.isFinished = false := by
  intro r hr
  simpa [isOver, hr] using h

theorem progress_setStatus {callId : Uuid} {newStatus : String} {now : Int} {d : Db}
    (hstatus : newStatus = "answered" ∨ newStatus ∈ CallRecord.finalStatuses)
    (h : isOver d.callRecords callId = false) :
    Progress d.callRecords (setStatus callId newStatus now d).callRecords :=
  Progress.update now hstatus (not_finished h)

theorem progress_cleanedUp {session : Session} {now : Int} {s : Server}
    (h : session.remembersOver s.db.callRecords = false) :
    Progress s.db.callRecords (cleanedUp session now s).db.callRecords := by
  unfold cleanedUp
  unfold Session.remembersOver at h
  split
  · exact Progress.refl _
  · rename_i callId peerId hactive
    rw [hactive] at h
    rw [relayed_db]
    exact progress_setStatus (.inr (by decide)) (by simpa using h)

theorem remembersOver_insert {session : Session} {new : CallRecord} {t t' : Records}
    (hins : t.insert new = some t') (hnew : new.isFinished = false)
    (h : session.remembersOver t = false) : session.remembersOver t' = false := by
  unfold Session.remembersOver at h ⊢
  rcases hactive : session.activeCall with _ | ⟨callId, peerId⟩
  · rfl
  · rw [hactive] at h
    simp only [Option.any_some, isOver] at h ⊢
    rw [Table.get_of_insert hins]
    split
    · exact hnew
    · exact h

theorem newCall_sound (session : Session) (calleeId : Uuid) (callType : String) (at_ : Moment) :
    (newCall session calleeId callType at_).Sound := fun _ => rfl

theorem newCall_open (session : Session) (calleeId : Uuid) (callType : String) (at_ : Moment) :
    (newCall session calleeId callType at_).isFinished = false := by
  change decide ("initiated" ∈ CallRecord.finalStatuses) = false
  decide

/-- An event that comes in time keeps what is finished. -/
theorem progress_serve {session : Session} {event : ClientEvent} {at_ : Moment} {s : Server}
    (h : event.isLate session at_ s.db = false) :
    Progress s.db.callRecords ((serve session event at_).run s).2.db.callRecords := by
  have hcases := serve_cases session event at_ s
  rw [run_serve]
  generalize (handleEvent session event at_).run s = out at hcases
  cases hcases with
  | ignored => exact Progress.refl _
  | unheard lost =>
    exact progress_cleanedUp (by simpa [ClientEvent.isLate, lost] using h)
  | typed =>
    change Progress _ (relayed _ _ _ s).db.callRecords
    rw [relayed_db]
    exact Progress.refl _
  | unannounced calleeId callType sdpOffer t lost created inserted =>
    have hopen := newCall_open session calleeId callType at_
    have hmem : session.remembersOver s.db.callRecords = false := by
      simpa [ClientEvent.isLate, lost, created, Except.isOk, Except.toBool] using h
    exact (Progress.insert inserted (newCall_sound _ _ _ _)).trans
      (progress_cleanedUp (s := s.setDb { s.db with callRecords := t })
        (remembersOver_insert inserted hopen hmem))
  | offered calleeId callType sdpOffer t name inserted s' db =>
    change Progress _ s'.db.callRecords
    rw [db]
    exact Progress.insert inserted (newCall_sound _ _ _ _)
  | signalled _ callId peer activeCall out names participant =>
    change Progress _ (relayed _ _ _ _).db.callRecords
    rw [relayed_db]
    cases event with
    | callAnswer c p sdp =>
      cases names
      simp only [ClientEvent.isLate, participant, Bool.true_and] at h
      exact progress_setStatus (.inl rfl) h
    | callReject c p =>
      cases names
      simp only [ClientEvent.isLate, participant, Bool.true_and] at h
      exact progress_setStatus (.inr (by decide)) h
    | callHangup c p =>
      cases names
      simp only [ClientEvent.isLate, participant, Bool.true_and] at h
      exact progress_setStatus (.inr (by decide)) h
    | iceCandidate => exact Progress.refl _
    | ping => cases names
    | typing => cases names
    | callOffer => cases names

theorem progress_step {live : Live} {step : Step} (h : live.isLate step = false) :
    Progress live.records (live.step step).records := by
  cases step with
  | connect sid userId publishes =>
    simp only [Live.step]
    split <;> exact Progress.refl _
  | event sid event at_ =>
    rcases hs : live.sessions sid with _ | session
    · simp only [Live.step, hs]
      exact Progress.refl _
    · simp only [Live.isLate, hs, Option.any_some] at h
      have hserve := progress_serve h
      simp only [Live.step, hs]
      split <;> rename_i server hrun <;> rw [hrun] at hserve <;> exact hserve
  | disconnect sid now =>
    rcases hs : live.sessions sid with _ | session
    · simp only [Live.step, hs]
      exact Progress.refl _
    · simp only [Live.isLate, hs, Option.any_some] at h
      simp only [Live.step, hs, Live.records, run_cleanUp]
      exact progress_cleanedUp h

/-- If no step of a run sets the status of a finished call, then the finished calls keep their
status and their end to the end of the run, and at no time has an answered call an end. -/
theorem call_records_monotone (live : Live) (steps : List Step)
    (hsound : ∀ r ∈ live.records.rows, r.Sound)
    (h : Live.Throughout (fun live step => live.isLate step = false) live steps) :
    ∀ before after, steps = before ++ after → ∀ callId r,
      (live.run before).records.get callId = some r →
        (r.isFinished → ∃ r', (live.run steps).records.get callId = some r' ∧
          r'.status = r.status ∧ r'.endedAt = r.endedAt) ∧
        (r.status = "answered" → r.endedAt = none) := by
  intro before after hsplit callId r hr
  subst hsplit
  obtain ⟨hbefore, hafter⟩ := h.append
  have hrun : ∀ {live steps}, Live.Throughout (fun live step => live.isLate step = false) live steps →
      Progress live.records (live.run steps).records := by
    intro live steps h
    exact h.run (R := fun a b => Progress a.records b.records) (fun _ => Progress.refl _)
      (fun hab hbc => hab.trans hbc) (fun _ _ => progress_step)
  constructor
  · intro hf
    rw [Live.run_append]
    exact (hrun hafter).kept callId r hr hf
  · intro hanswered
    have hrows := (hrun hbefore).sound hsound r (Table.get_eq_some.mp hr).1
    exact hrows.of_answered hanswered

/-- Alice hangs up before Bob answers: the ended call is answered, and keeps its end. -/
theorem ended_call_answered :
    let ended := ringing ++ [.event 1 (.callHangup 10 2) ⟨200, 0, true⟩]
    let answered := ended ++ [.event 2 (.callAnswer 10 1 "answer") ⟨300, 0, true⟩]
    (phones.run ended).records.get 10 = some ⟨10, 1, 2, "voice", "ended", none, some 200⟩ ∧
      (phones.run answered).records.get 10 =
        some ⟨10, 1, 2, "voice", "answered", some 300, some 200⟩ := by
  decide

/-- A call that is answered, ended by Bob, and then gets a last candidate from Alice. -/
theorem call_records_monotone_bob :
    ∃ r', (phones.run (ringing ++ [.event 2 (.callAnswer 10 1 "answer") ⟨200, 0, true⟩,
        .event 2 (.callHangup 10 1) ⟨300, 0, true⟩] ++
        [.event 1 (.iceCandidate 10 2 "candidate" none none) ⟨400, 0, true⟩])).records.get 10 =
          some r' ∧ r'.status = "ended" ∧ r'.endedAt = some 300 :=
  (call_records_monotone phones _ (by decide) (by decide) _ _ rfl 10
    ⟨10, 1, 2, "voice", "ended", some 200, some 300⟩ (by decide)).1 rfl

end SyncServer.Calls
