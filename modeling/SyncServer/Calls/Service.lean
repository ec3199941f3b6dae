import SyncServer.Accounts.Users

/-! # Call records

What `call_service` does to the table of the calls, and what is kept by it.
-/

namespace SyncServer
open Transaction

namespace CallRecord

/-- The statuses with which `update_status` sets the end of a call. -/
def finalStatuses : List String := ["ended", "rejected", "missed", "failed"]

def isFinished (r : CallRecord) : Bool := r.status ∈ finalStatuses

def hasParticipant (r : CallRecord) (user : Uuid) : Bool := r.callerId = user || r.calleeId = user

/-- The other participant of a call. -/
def other (r : CallRecord) (user : Uuid) : Uuid := if r.callerId = user then r.calleeId else r.callerId

/-- What `update_status` sets. -/
def withStatus (newStatus : String) (now : Int) (r : CallRecord) : CallRecord :=
  if newStatus = "answered" then { r with status := "answered", answeredAt := some now }
  else { r with status := newStatus, endedAt := some now }

theorem withStatus_id (newStatus : String) (now : Int) (r : CallRecord) :
    (r.withStatus newStatus now).id = r.id := by
  unfold withStatus
  split <;> rfl

@[simp] theorem withStatus_callerId (newStatus : String) (now : Int) (r : CallRecord) :
    (r.withStatus newStatus now).callerId = r.callerId := by
  unfold withStatus
  split <;> rfl

@[simp] theorem withStatus_calleeId (newStatus : String) (now : Int) (r : CallRecord) :
    (r.withStatus newStatus now).calleeId = r.calleeId := by
  unfold withStatus
  split <;> rfl

/-- A call that is not finished has no end. -/
def Sound (r : CallRecord) : Prop := r.isFinished = false → r.endedAt = none

instance (r : CallRecord) : Decidable r.Sound :=
  inferInstanceAs (Decidable (r.isFinished = false → r.endedAt = none))

theorem Sound.of_answered {r : CallRecord} (h : r.Sound) (hs : r.status = "answered") :
    r.endedAt = none := by
  apply h
  rw [isFinished, hs]
  decide

end CallRecord

namespace Calls

abbrev Records := Table Uuid CallRecord CallRecord.id

def addCall (new : CallRecord) (s : Db) : Except DbError (CallRecord × Db) :=
  if new.callType ∉ ["voice", "video"] then .error .checkViolation
  else match s.callRecords.insert new with
    | none => .error .uniqueViolation
    | some t =>
      if s.userExists new.callerId ∧ s.userExists new.calleeId then
        .ok (new, { s with callRecords := t })
      else .error .foreignKeyViolation

/-- `call_service::create`. -/
def create (id callerId calleeId : Uuid) (callType : String) : Query CallRecord :=
  Query.exec (fun _ => []) (addCall ⟨id, callerId, calleeId, callType, "initiated", none, none⟩)

def setStatus (recordId : Uuid) (newStatus : String) (now : Int) (s : Db) : Db :=
  { s with
    callRecords := s.callRecords.update recordId (CallRecord.withStatus newStatus now)
      (CallRecord.withStatus_id newStatus now) }

/-- `update_status`; other statuses are ignored. -/
def updateStatus (recordId : Uuid) (newStatus : String) (now : Int) : Query Unit :=
  if newStatus = "answered" ∨ newStatus ∈ CallRecord.finalStatuses then
    Query.exec (fun _ => []) (fun s => .ok ((), setStatus recordId newStatus now s))
  else pure ()

/-- `is_call_participant`. -/
def isCallParticipant (callId userId : Uuid) : Query Bool :=
  Tx.query (fun s => (s.callRecords.get callId).any (·.hasParticipant userId))

theorem addCall_ok {new r : CallRecord} {s s' : Db} (h : addCall new s = .ok (r, s')) :
    r = new ∧ ∃ t, s.callRecords.insert new = some t ∧ s' = { s with callRecords := t } := by
  unfold addCall at h
  split at h
  · cases h
  split at h
  · cases h
  rename_i t ht
  split at h
  · cases h
    exact ⟨rfl, t, ht, rfl⟩
  · cases h

/-! ## Participants -/

def SameParticipants (t t' : Records) : Prop :=
  ∀ id r, t.get id = some r → ∃ r', t'.get id = some r' ∧ r'.callerId = r.callerId ∧
    r'.calleeId = r.calleeId

namespace SameParticipants

theorem refl (t : Records) : SameParticipants t t := fun _ r h => ⟨r, h, rfl, rfl⟩

theorem trans {t t' t'' : Records} (h : SameParticipants t t') (h' : SameParticipants t' t'') :
    SameParticipants t t'' := by
  intro id r hr
  obtain ⟨r', hr', hcaller, hcallee⟩ := h id r hr
  obtain ⟨r'', hr'', hcaller', hcallee'⟩ := h' id r' hr'
  exact ⟨r'', hr'', hcaller'.trans hcaller, hcallee'.trans hcallee⟩

theorem insert {t t' : Records} {new : CallRecord} (h : t.insert new = some t') :
    SameParticipants t t' := by
  intro id r hr
  have hne : new.id ≠ id := by
    rintro rfl
    rw [Table.get_eq_none_of_insert h] at hr
    cases hr
  refine ⟨r, ?_, rfl, rfl⟩
  rw [Table.get_of_insert h, if_neg hne, hr]

theorem update (t : Records) (id : Uuid) (newStatus : String) (now : Int) :
    SameParticipants t (t.update id (CallRecord.withStatus newStatus now)
      (CallRecord.withStatus_id newStatus now)) := by
  intro id' r hr
  by_cases h : id' = id
  · subst h
    refine ⟨r.withStatus newStatus now, ?_, by simp, by simp⟩
    rw [Table.get_update_self, hr]
    rfl
  · exact ⟨r, by rw [Table.get_update_of_ne _ _ _ h, hr], rfl, rfl⟩

end SameParticipants

/-! ## Progress -/

structure Progress (t t' : Records) : Prop where
  kept : ∀ id r, t.get id = some r → r.isFinished → ∃ r', t'.get id = some r' ∧
    r'.status = r.status ∧ r'.endedAt = r.endedAt
  sound : (∀ r ∈ t.rows, r.Sound) → ∀ r ∈ t'.rows, r.Sound

namespace Progress

theorem refl (t : Records) : Progress t t := ⟨fun _ r h _ => ⟨r, h, rfl, rfl⟩, fun h => h⟩

theorem trans {t t' t'' : Records} (h : Progress t t') (h' : Progress t' t'') :
    Progress t t'' := by
  constructor
  · intro id r hr hf
    obtain ⟨r', hr', hstatus, hended⟩ := h.kept id r hr hf
    have hf' : r'.isFinished := by
      rw [CallRecord.isFinished, hstatus]
      exact hf
    obtain ⟨r'', hr'', hstatus', hended'⟩ := h'.kept id r' hr' hf'
    exact ⟨r'', hr'', hstatus'.trans hstatus, hended'.trans hended⟩
  · intro hs
    exact h'.sound (h.sound hs)

theorem insert {t t' : Records} {new : CallRecord} (h : t.insert new = some t')
    (hnew : new.Sound) : Progress t t' := by
  constructor
  · intro id r hr _
    have hne : new.id ≠ id := by
      rintro rfl
      rw [Table.get_eq_none_of_insert h] at hr
      cases hr
    refine ⟨r, ?_, rfl, rfl⟩
    rw [Table.get_of_insert h, if_neg hne, hr]
  · intro hs r hr
    rw [Table.rows_of_insert h, List.mem_append, List.mem_singleton] at hr
    rcases hr with hr | rfl
    · exact hs r hr
    · exact hnew

theorem sound_withStatus {r : CallRecord} {newStatus : String} (now : Int)
    (hstatus : newStatus = "answered" ∨ newStatus ∈ CallRecord.finalStatuses) (hr : r.Sound)
    (hf : r.isFinished = false) : (r.withStatus newStatus now).Sound := by
  intro hnot
  unfold CallRecord.withStatus at hnot ⊢
  split
  · exact hr hf
  · rename_i hne
    rw [if_neg hne] at hnot
    have hfinal := hstatus.resolve_left hne
    simp [CallRecord.isFinished, hfinal] at hnot

theorem update {t : Records} {id : Uuid} {newStatus : String} (now : Int)
    (hstatus : newStatus = "answered" ∨ newStatus ∈ CallRecord.finalStatuses)
    (hopen : ∀ r, t.get id = some r → r.isFinished = false) :
    Progress t (t.update id (CallRecord.withStatus newStatus now)
      (CallRecord.withStatus_id newStatus now)) := by
  constructor
  · intro id' r hr hf
    have hne : id' ≠ id := by
      rintro rfl
      rw [hopen r hr] at hf
      cases hf
    exact ⟨r, by rw [Table.get_update_of_ne _ _ _ hne, hr], rfl, rfl⟩
  · intro hs r hr
    obtain ⟨r₀, hr₀, rfl⟩ := List.mem_map.mp hr
    split
    · rename_i hid
      exact sound_withStatus now hstatus (hs r₀ hr₀) (hopen r₀ (Table.get_eq_some.mpr ⟨hr₀, hid⟩))
    · exact hs r₀ hr₀

end Progress

end Calls
end SyncServer
