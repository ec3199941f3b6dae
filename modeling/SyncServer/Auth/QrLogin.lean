import SyncServer.Auth.AgentTokens
import SyncServer.Base.Counting
import Mathlib.Logic.Encodable.Basic
import Mathlib.Logic.Equiv.List

/-! # Sessions of QR logins

The record of a session is kept in Redis, or in the memory of the process when an access to
Redis fails. Loading, saving and deleting choose between the two each on its own.
-/

namespace SyncServer.Auth
open Transaction Accounts

/-- The JSON texts of records: what is written is read back. -/
structure QrRecordCodec where
  toText : QrLoginSessionRecord → String
  fromText : String → Except String QrLoginSessionRecord
  fromText_toText : ∀ record, fromText (toText record) = .ok record

def qrLoginTtlSecs : Int := 30

def qrLoginStatusExpired : String := "expired"

def qrLoginRedisKey (sessionId : String) : String := "qr_login:" ++ sessionId

theorem qrLoginRedisKey_ne {id id' : String} (h : id ≠ id') :
    qrLoginRedisKey id ≠ qrLoginRedisKey id' := by
  intro heq
  have htexts := congrArg String.toList heq
  simp only [qrLoginRedisKey, String.toList_append, List.append_cancel_left_eq] at htexts
  exact h (String.toList_inj.mp htexts)

/-- How far an access to Redis gets. A connection may be lost before or after a command has
been executed. -/
inductive Reach where
  | unreachable
  | lost (executed : Bool)
  | reached
deriving DecidableEq, Repr

/-- An access to Redis for a session, whose record may have expired by then. -/
structure RedisAccess where
  expired : Bool
  reach : Reach
deriving DecidableEq, Repr

/-- The database, the two stores, and the clock in seconds. -/
structure QrServer where
  db : Db
  redis : String → Option String
  fallback : String → Option (QrLoginSessionRecord × Int)
  now : Int

abbrev QrHandler (α : Type) := Tx QrServer RowLock AppError α

def onQrDb {α : Type} (q : Query α) : QrHandler α :=
  q.onPart QrServer.db (fun s d => { s with db := d })

theorem run_onQrDb {α : Type} (q : Query α) (s : QrServer) :
    (onQrDb q).run s = ((q.run s.db).1, { s with db := (q.run s.db).2 }) :=
  Tx.run_onPart QrServer.db (fun s d => { s with db := d }) (fun _ => rfl) (fun _ _ => rfl)
    (fun _ _ _ => rfl) q s

def modifyStores (f : QrServer → QrServer) : QrHandler Unit :=
  .stmt (fun _ => []) f (fun _ => ()) pure

/-! ## The stores -/

def QrServer.setRedis (s : QrServer) (id : String) (raw : Option String) : QrServer :=
  { s with redis := Function.update s.redis (qrLoginRedisKey id) raw }

def QrServer.atAccess (s : QrServer) (access : RedisAccess) (id : String) : QrServer :=
  if access.expired then s.setRedis id none else s

def QrServer.setFallback (s : QrServer) (id : String)
    (entry : Option (QrLoginSessionRecord × Int)) : QrServer :=
  { s with fallback := Function.update s.fallback id entry }

@[simp] theorem QrServer.redis_setRedis (s : QrServer) (id : String) (raw : Option String) :
    (s.setRedis id raw).redis (qrLoginRedisKey id) = raw := Function.update_self _ _ _

@[simp] theorem QrServer.fallback_setRedis (s : QrServer) (id : String) (raw : Option String) :
    (s.setRedis id raw).fallback = s.fallback := rfl

@[simp] theorem QrServer.now_setRedis (s : QrServer) (id : String) (raw : Option String) :
    (s.setRedis id raw).now = s.now := rfl

@[simp] theorem QrServer.fallback_setFallback (s : QrServer) (id : String)
    (entry : Option (QrLoginSessionRecord × Int)) : (s.setFallback id entry).fallback id = entry :=
  Function.update_self _ _ _

@[simp] theorem QrServer.redis_setFallback (s : QrServer) (id : String)
    (entry : Option (QrLoginSessionRecord × Int)) : (s.setFallback id entry).redis = s.redis := rfl

@[simp] theorem QrServer.now_setFallback (s : QrServer) (id : String)
    (entry : Option (QrLoginSessionRecord × Int)) : (s.setFallback id entry).now = s.now := rfl

/-- `fallback_save_qr_login_record`. -/
def fallbackSaveQrLoginRecord (id : String) (record : QrLoginSessionRecord) (ttlSecs : Int)
    (s : QrServer) : QrServer :=
  s.setFallback id (some (record, s.now + ttlSecs))

/-- `fallback_load_qr_login_record`. -/
def fallbackLoadQrLoginRecord (id : String) (s : QrServer) :
    Option QrLoginSessionRecord × QrServer :=
  match s.fallback id with
  | none => (none, s)
  | some (record, expiresAt) =>
    if expiresAt < s.now then (none, s.setFallback id none) else (some record, s)

/-- `fallback_delete_qr_login_record`. -/
def fallbackDeleteQrLoginRecord (id : String) (s : QrServer) : QrServer := s.setFallback id none

/-- `load_qr_login_record`. -/
def loadQrLoginRecord (codec : QrRecordCodec) (access : RedisAccess) (id : String) :
    QrHandler (Option QrLoginSessionRecord) :=
  Tx.exec (fun _ => []) (fun s =>
    let s := s.atAccess access id
    match access.reach, s.redis (qrLoginRedisKey id) with
    | .reached, some raw =>
      match codec.fromText raw with
      | .ok parsed => .ok (some parsed, s)
      | .error e => .error (.internal ("Redis JSON parse: " ++ e))
    | _, _ => .ok (fallbackLoadQrLoginRecord id s))

/-- `save_qr_login_record`. -/
def saveQrLoginRecord (codec : QrRecordCodec) (access : RedisAccess) (id : String)
    (record : QrLoginSessionRecord) (ttlSecs : Int) (s : QrServer) : QrServer :=
  let s := s.atAccess access id
  match access.reach with
  | .unreachable => fallbackSaveQrLoginRecord id record ttlSecs s
  | .lost false => fallbackSaveQrLoginRecord id record ttlSecs s
  | .lost true => fallbackSaveQrLoginRecord id record ttlSecs
      (s.setRedis id (some (codec.toText record)))
  | .reached => s.setRedis id (some (codec.toText record))

/-- `delete_qr_login_record`. -/
def deleteQrLoginRecord (access : RedisAccess) (id : String) (s : QrServer) : QrServer :=
  let s := s.atAccess access id
  match access.reach with
  | .unreachable => fallbackDeleteQrLoginRecord id s
  | .lost false => fallbackDeleteQrLoginRecord id s
  | .lost true => fallbackDeleteQrLoginRecord id (s.setRedis id none)
  | .reached => s.setRedis id none

/-- Some seconds go by. -/
def QrServer.later (s : QrServer) (seconds : Nat) : QrServer := { s with now := s.now + seconds }

@[simp] theorem QrServer.redis_later (s : QrServer) (seconds : Nat) :
    (s.later seconds).redis = s.redis := rfl

@[simp] theorem QrServer.fallback_later (s : QrServer) (seconds : Nat) :
    (s.later seconds).fallback = s.fallback := rfl

@[simp] theorem QrServer.now_later (s : QrServer) (seconds : Nat) :
    (s.later seconds).now = s.now + seconds := rfl

/-! ## The handlers -/

structure QrLoginStatusResponse where
  status : String
  accessToken : Option String
  refreshToken : Option String
  expiresIn : Option Int
deriving DecidableEq, Repr

/-- A request for a session, with the id and the secret that are drawn. -/
structure QrCreateCall where
  sessionId : String
  secret : String
  saving : RedisAccess
deriving DecidableEq, Repr

/-- `create_qr_login_session`. -/
def createQrLoginSession (codec : QrRecordCodec) (call : QrCreateCall) : QrHandler Unit :=
  modifyStores (saveQrLoginRecord codec call.saving call.sessionId
    ⟨call.secret, qrLoginStatusPending, none, none, none⟩ qrLoginTtlSecs)

structure QrPollCall where
  sessionId : String
  secret : String
  loading : RedisAccess
  seconds : Nat
  deleting : RedisAccess
deriving DecidableEq, Repr

def deleteIfApproved (call : QrPollCall) (record : QrLoginSessionRecord) : QrHandler Unit :=
  if record.status = qrLoginStatusApproved then
    modifyStores (deleteQrLoginRecord call.deleting (trim call.sessionId))
  else pure ()

/-- `poll_qr_login_session`. -/
def pollQrLoginSession (codec : QrRecordCodec) (call : QrPollCall) :
    QrHandler QrLoginStatusResponse := do
  Tx.done (require (trim call.sessionId ≠ "" ∧ trim call.secret ≠ "")
    "session_id and secret are required")
  let found ← loadQrLoginRecord codec call.loading (trim call.sessionId)
  modifyStores (QrServer.later · call.seconds)
  match found with
  | none => pure ⟨qrLoginStatusExpired, none, none, none⟩
  | some record =>
    if record.secret ≠ call.secret then throw .unauthorized
    else do
      deleteIfApproved call record
      pure ⟨record.status, record.accessToken, record.refreshToken, record.expiresIn⟩

structure QrApproveCall where
  authorization : Option String
  verifiedAt : Int
  sessionId : String
  secret : String
  loading : RedisAccess
  seconds : Nat
  saving : RedisAccess
  family : Uuid
  minting : Minting
deriving DecidableEq, Repr

def approveRecord (env : AuthEnv) (codec : QrRecordCodec) (call : QrApproveCall)
    (claims : Claims) (record : QrLoginSessionRecord) : QrHandler String := do
  let userId ← Tx.done (claims.userId env)
  let tokens ← onQrDb (mintTokens env.tokens userId claims.role call.family call.minting)
  modifyStores (saveQrLoginRecord codec call.saving (trim call.sessionId)
    (record.approved tokens) qrLoginTtlSecs)
  pure qrLoginStatusApproved

/-- `approve_qr_login` for somebody who is logged in. -/
def approveAs (env : AuthEnv) (codec : QrRecordCodec) (call : QrApproveCall) (claims : Claims) :
    QrHandler String := do
  Tx.done (require (trim call.sessionId ≠ "" ∧ trim call.secret ≠ "")
    "session_id and secret are required")
  let found ← loadQrLoginRecord codec call.loading (trim call.sessionId)
  modifyStores (QrServer.later · call.seconds)
  let record ← Tx.okOr (.badRequest "QR login session expired") found
  if record.secret ≠ trim call.secret then throw .unauthorized
  else if record.status ≠ qrLoginStatusPending then pure record.status
  else approveRecord env codec call claims record

/-- `approve_qr_login` with its accesses to the stores. -/
def approveQrLoginSession (env : AuthEnv) (codec : QrRecordCodec) (call : QrApproveCall) :
    QrHandler String := do
  let claims ← onQrDb (authUser env call.authorization call.verifiedAt)
  approveAs env codec call claims

/-- The approval as it is modelled with the record that was loaded. -/
def QrApproveCall.withRecord (call : QrApproveCall)
    (record : Except AppError (Option QrLoginSessionRecord)) : ApproveQrCall where
  authorization := call.authorization
  now := call.verifiedAt
  sessionId := call.sessionId
  secret := call.secret
  record := record
  saved := .ok ()
  family := call.family
  minting := call.minting

/-! ## Copies of a record -/

/-- The copies of the session's record are those of `s` at most. -/
structure Fewer (id : String) (s s' : QrServer) : Prop where
  redis : s'.redis (qrLoginRedisKey id) = s.redis (qrLoginRedisKey id) ∨
    s'.redis (qrLoginRedisKey id) = none
  fallback : s'.fallback id = s.fallback id ∨ s'.fallback id = none
  now : s.now ≤ s'.now

structure Gone (id : String) (s : QrServer) : Prop where
  redis : s.redis (qrLoginRedisKey id) = none
  fallback : ∀ entry, s.fallback id = some entry → entry.2 < s.now

def QrLoginSessionRecord.Proper (record : QrLoginSessionRecord) : Prop :=
  record.status = qrLoginStatusApproved ∨ record.accessToken = none ∧ record.refreshToken = none

structure Held (codec : QrRecordCodec) (id : String) (s : QrServer) : Prop where
  redis : ∀ raw, s.redis (qrLoginRedisKey id) = some raw →
    ∃ record, raw = codec.toText record ∧ record.Proper
  fallback : ∀ entry, s.fallback id = some entry → entry.1.Proper

theorem Fewer.refl (id : String) (s : QrServer) : Fewer id s s := ⟨.inl rfl, .inl rfl, le_rfl⟩

theorem Fewer.trans {id : String} {s s' s'' : QrServer} (h : Fewer id s s')
    (h' : Fewer id s' s'') : Fewer id s s'' where
  redis := h'.redis.elim (fun heq => heq ▸ h.redis) .inr
  fallback := h'.fallback.elim (fun heq => heq ▸ h.fallback) .inr
  now := h.now.trans h'.now

theorem Gone.of_fewer {id : String} {s s' : QrServer} (h : Gone id s) (hf : Fewer id s s') :
    Gone id s' where
  redis := hf.redis.elim (fun heq => heq.trans h.redis) (fun hnone => hnone)
  fallback entry hentry := by
    have hnow := hf.now
    rcases hf.fallback with heq | hnone
    · have := h.fallback entry (heq ▸ hentry)
      omega
    · rw [hnone] at hentry
      cases hentry

theorem Held.of_fewer {codec : QrRecordCodec} {id : String} {s s' : QrServer}
    (h : Held codec id s) (hf : Fewer id s s') : Held codec id s' where
  redis raw hraw := by
    rcases hf.redis with heq | hnone
    · exact h.redis raw (heq ▸ hraw)
    · rw [hnone] at hraw
      cases hraw
  fallback entry hentry := by
    rcases hf.fallback with heq | hnone
    · exact h.fallback entry (heq ▸ hentry)
    · rw [hnone] at hentry
      cases hentry

/-! ## What the accesses do to the copies -/

section
variable {id id' : String} {s : QrServer}

theorem fewer_setRedis (id id' : String) (s : QrServer) : Fewer id s (s.setRedis id' none) where
  redis := by
    by_cases h : qrLoginRedisKey id = qrLoginRedisKey id'
    · right
      simp [QrServer.setRedis, h]
    · left
      simp [QrServer.setRedis, Function.update_of_ne h]
  fallback := .inl rfl
  now := le_rfl

theorem fewer_setRedis_of_ne (h : id ≠ id') (raw : Option String) :
    Fewer id s (s.setRedis id' raw) :=
  ⟨.inl (Function.update_of_ne (qrLoginRedisKey_ne h) _ _), .inl rfl, le_rfl⟩

theorem fewer_setFallback (id id' : String) (s : QrServer) :
    Fewer id s (s.setFallback id' none) where
  redis := .inl rfl
  fallback := by
    by_cases h : id = id'
    · right
      simp [QrServer.setFallback, h]
    · left
      simp [QrServer.setFallback, Function.update_of_ne h]
  now := le_rfl

theorem fewer_setFallback_of_ne (h : id ≠ id') (entry : Option (QrLoginSessionRecord × Int)) :
    Fewer id s (s.setFallback id' entry) :=
  ⟨.inl rfl, .inl (Function.update_of_ne h _ _), le_rfl⟩

theorem fewer_atAccess (id id' : String) (access : RedisAccess) (s : QrServer) :
    Fewer id s (s.atAccess access id') := by
  unfold QrServer.atAccess
  split
  · exact fewer_setRedis id id' s
  · exact Fewer.refl id s

theorem fewer_fallbackLoad (id id' : String) (s : QrServer) :
    Fewer id s (fallbackLoadQrLoginRecord id' s).2 := by
  unfold fallbackLoadQrLoginRecord
  split
  · exact Fewer.refl id s
  · split
    · exact fewer_setFallback id id' s
    · exact Fewer.refl id s

theorem fewer_load (codec : QrRecordCodec) (access : RedisAccess) (id id' : String) :
    (loadQrLoginRecord codec access id').Writes (fun w => ∀ s, Fewer id s (w s)) := by
  refine Tx.writes_exec (fun s => ?_) _
  have haccess := fewer_atAccess id id' access s
  unfold Tx.effect
  split
  · rename_i a s' heq
    dsimp only at heq
    split at heq
    · split at heq <;> cases heq
      exact haccess
    · have hs' : (fallbackLoadQrLoginRecord id' (s.atAccess access id')).2 = s' :=
        congrArg Prod.snd (Except.ok.inj heq)
      rw [← hs']
      exact haccess.trans (fewer_fallbackLoad id id' _)
  · exact Fewer.refl id s

theorem fewer_delete (access : RedisAccess) (id id' : String) (s : QrServer) :
    Fewer id s (deleteQrLoginRecord access id' s) := by
  have haccess := fewer_atAccess id id' access s
  unfold deleteQrLoginRecord
  dsimp only
  split
  · exact haccess.trans (fewer_setFallback id id' _)
  · exact haccess.trans (fewer_setFallback id id' _)
  · exact haccess.trans ((fewer_setRedis id id' _).trans (fewer_setFallback id id' _))
  · exact haccess.trans (fewer_setRedis id id' _)

theorem fewer_save_of_ne (h : id ≠ id') (codec : QrRecordCodec) (access : RedisAccess)
    (record : QrLoginSessionRecord) (ttlSecs : Int) (s : QrServer) :
    Fewer id s (saveQrLoginRecord codec access id' record ttlSecs s) := by
  have haccess := fewer_atAccess id id' access s
  unfold saveQrLoginRecord
  dsimp only
  split
  · exact haccess.trans (fewer_setFallback_of_ne h _)
  · exact haccess.trans (fewer_setFallback_of_ne h _)
  · exact haccess.trans ((fewer_setRedis_of_ne h _).trans (fewer_setFallback_of_ne h _))
  · exact haccess.trans (fewer_setRedis_of_ne h _)

theorem fewer_later (id : String) (s : QrServer) (seconds : Nat) : Fewer id s (s.later seconds) :=
  ⟨.inl rfl, .inl rfl, by dsimp only [QrServer.later]; omega⟩

theorem fewer_onQrDb {α : Type} (id : String) (q : Query α) :
    (onQrDb q).Writes (fun w => ∀ s, Fewer id s (w s)) := by
  unfold onQrDb
  induction q with
  | done r => trivial
  | stmt l w a n ih => exact ⟨fun s => ⟨.inl rfl, .inl rfl, le_rfl⟩, ih⟩

theorem held_setRedis {codec : QrRecordCodec} (h : Held codec id s)
    {record : QrLoginSessionRecord} (hproper : record.Proper) :
    Held codec id (s.setRedis id (some (codec.toText record))) where
  redis raw hraw := by
    rw [QrServer.redis_setRedis, Option.some.injEq] at hraw
    exact ⟨record, hraw.symm, hproper⟩
  fallback := h.fallback

theorem held_setFallback {codec : QrRecordCodec} (h : Held codec id s)
    {record : QrLoginSessionRecord} (hproper : record.Proper) (expiresAt : Int) :
    Held codec id (s.setFallback id (some (record, expiresAt))) where
  redis := h.redis
  fallback entry hentry := by
    rw [QrServer.fallback_setFallback, Option.some.injEq] at hentry
    rw [← hentry]
    exact hproper

theorem held_save {codec : QrRecordCodec} (h : Held codec id s) (access : RedisAccess)
    {record : QrLoginSessionRecord} (hproper : record.Proper) (ttlSecs : Int) :
    Held codec id (saveQrLoginRecord codec access id record ttlSecs s) := by
  have haccess := h.of_fewer (fewer_atAccess id id access s)
  unfold saveQrLoginRecord
  dsimp only
  split
  · exact held_setFallback haccess hproper _
  · exact held_setFallback haccess hproper _
  · exact held_setFallback (held_setRedis haccess hproper) hproper _
  · exact held_setRedis haccess hproper

/-! ## Requests that find a record -/

def QrServer.inMemory (id : String) (s : QrServer) : Option QrLoginSessionRecord :=
  ((s.fallback id).filter (fun entry => s.now ≤ entry.2)).map Prod.fst

def QrServer.shown (codec : QrRecordCodec) (access : RedisAccess) (id : String) (s : QrServer) :
    Option QrLoginSessionRecord :=
  match access.reach, (s.atAccess access id).redis (qrLoginRedisKey id) with
  | .reached, some raw => (codec.fromText raw).toOption
  | _, _ => s.inMemory id

@[simp] theorem QrServer.fallback_atAccess (s : QrServer) (access : RedisAccess) (id : String) :
    (s.atAccess access id).fallback = s.fallback := by
  unfold atAccess
  split <;> rfl

@[simp] theorem QrServer.now_atAccess (s : QrServer) (access : RedisAccess) (id : String) :
    (s.atAccess access id).now = s.now := by
  unfold atAccess
  split <;> rfl

theorem QrServer.redis_atAccess (s : QrServer) (access : RedisAccess) (id : String) :
    (s.atAccess access id).redis (qrLoginRedisKey id) =
      if access.expired then none else s.redis (qrLoginRedisKey id) := by
  unfold atAccess
  split
  · exact redis_setRedis s id none
  · rfl

theorem QrServer.inMemory_atAccess (s : QrServer) (access : RedisAccess) (id : String) :
    (s.atAccess access id).inMemory id = s.inMemory id := by
  simp [inMemory]

theorem fallbackLoad_fst (id : String) (s : QrServer) :
    (fallbackLoadQrLoginRecord id s).1 = s.inMemory id := by
  unfold fallbackLoadQrLoginRecord QrServer.inMemory
  rcases s.fallback id with _ | ⟨record, expiresAt⟩
  · rfl
  · by_cases h : expiresAt < s.now
    · simp [h]
    · simp [h, not_lt.mp h]

theorem fallbackLoad_snd (h : s.inMemory id ≠ none) : (fallbackLoadQrLoginRecord id s).2 = s := by
  rw [← fallbackLoad_fst] at h
  unfold fallbackLoadQrLoginRecord at h ⊢
  split
  · rfl
  · split
    · rename_i hentry hexpired
      simp [hentry, hexpired] at h
    · rfl

theorem now_fallbackLoad (id : String) (s : QrServer) :
    (fallbackLoadQrLoginRecord id s).2.now = s.now := by
  unfold fallbackLoadQrLoginRecord
  split
  · rfl
  · split <;> rfl

/-- A load of a session whose copies are proper. -/
theorem run_load {codec : QrRecordCodec} (h : Held codec id s) (access : RedisAccess) :
    ∃ s', (loadQrLoginRecord codec access id).run s = (.ok (s.shown codec access id), s') ∧
      Fewer id s s' ∧ s'.now = s.now ∧
      (s.shown codec access id ≠ none → s' = s.atAccess access id) := by
  have haccess := fewer_atAccess id id access s
  have hmemory : (fallbackLoadQrLoginRecord id (s.atAccess access id)) =
      (s.inMemory id, (fallbackLoadQrLoginRecord id (s.atAccess access id)).2) := by
    rw [← QrServer.inMemory_atAccess s access id, ← fallbackLoad_fst]
  unfold QrServer.shown
  split
  · rename_i raw hreach hraw
    obtain ⟨record, rfl, -⟩ := (h.of_fewer haccess).redis raw hraw
    refine ⟨s.atAccess access id, ?_, haccess, QrServer.now_atAccess s access id, fun _ => rfl⟩
    apply Tx.run_exec_ok.mpr
    simp only [hreach, hraw, codec.fromText_toText]
    rfl
  · rename_i hother
    refine ⟨(fallbackLoadQrLoginRecord id (s.atAccess access id)).2, ?_,
      haccess.trans (fewer_fallbackLoad id id _), ?_, fun hfound => ?_⟩
    · apply Tx.run_exec_ok.mpr
      dsimp only
      split
      · rename_i raw hreach hraw
        exact (hother raw hreach hraw).elim
      · rw [← hmemory]
    · rw [now_fallbackLoad, QrServer.now_atAccess]
    · exact fallbackLoad_snd (by rwa [QrServer.inMemory_atAccess])

namespace QrPollCall

def Delivers (codec : QrRecordCodec) (s : QrServer) (call : QrPollCall) : Prop :=
  trim call.sessionId ≠ "" ∧ trim call.secret ≠ "" ∧
    ∃ record, s.shown codec call.loading (trim call.sessionId) = some record ∧
      record.secret = call.secret ∧ record.status = qrLoginStatusApproved

def ClearsAll (s : QrServer) (call : QrPollCall) : Prop :=
  match call.deleting.reach with
  | .reached => ∀ entry, s.fallback (trim call.sessionId) = some entry →
      entry.2 < s.now + call.seconds
  | .lost true => True
  | _ => call.loading.expired = true ∨ call.deleting.expired = true ∨
      s.redis (qrLoginRedisKey (trim call.sessionId)) = none

instance (s : QrServer) (call : QrPollCall) : Decidable (call.ClearsAll s) := by
  unfold ClearsAll
  split
  · exact decidable_of_iff ((s.fallback (trim call.sessionId)).all
      (fun entry => entry.2 < s.now + call.seconds)) (by simp [Option.all_eq_true])
  · exact instDecidableTrue
  · exact instDecidableOr

end QrPollCall

def QrLoginSessionRecord.response (record : QrLoginSessionRecord) : QrLoginStatusResponse :=
  ⟨record.status, record.accessToken, record.refreshToken, record.expiresIn⟩

theorem gone_delete (call : QrPollCall) (s : QrServer) :
    Gone (trim call.sessionId) (deleteQrLoginRecord call.deleting (trim call.sessionId)
      ((s.atAccess call.loading (trim call.sessionId)).later call.seconds)) ↔ call.ClearsAll s := by
  have hiff : ∀ s' : QrServer, Gone (trim call.sessionId) s' ↔
      s'.redis (qrLoginRedisKey (trim call.sessionId)) = none ∧
        ∀ entry, s'.fallback (trim call.sessionId) = some entry → entry.2 < s'.now :=
    fun s' => ⟨fun h => ⟨h.1, h.2⟩, fun h => ⟨h.1, h.2⟩⟩
  have hcopy : (((s.atAccess call.loading (trim call.sessionId)).later call.seconds).atAccess
      call.deleting (trim call.sessionId)).redis (qrLoginRedisKey (trim call.sessionId)) = none ↔
        call.loading.expired = true ∨ call.deleting.expired = true ∨
          s.redis (qrLoginRedisKey (trim call.sessionId)) = none := by
    rw [QrServer.redis_atAccess, QrServer.redis_later, QrServer.redis_atAccess]
    cases call.deleting.expired <;> cases call.loading.expired <;> simp
  rw [hiff]
  unfold deleteQrLoginRecord QrPollCall.ClearsAll
  rcases call.deleting.reach with _ | ⟨_ | _⟩ | _
  · simp [fallbackDeleteQrLoginRecord, hcopy]
  · simp [fallbackDeleteQrLoginRecord, hcopy]
  · simp [fallbackDeleteQrLoginRecord]
  · simp

/-- A poll answers with the record that it finds. -/
theorem run_poll {codec : QrRecordCodec} {call : QrPollCall} {response : QrLoginStatusResponse}
    {s' : QrServer} (h : Held codec (trim call.sessionId) s)
    (hrun : (pollQrLoginSession codec call).run s = (.ok response, s')) :
    response = ⟨qrLoginStatusExpired, none, none, none⟩ ∨
      ∃ record, s.shown codec call.loading (trim call.sessionId) = some record ∧
        record.secret = call.secret ∧ response = record.response ∧
        trim call.sessionId ≠ "" ∧ trim call.secret ≠ "" ∧
        (record.status = qrLoginStatusApproved →
          (Gone (trim call.sessionId) s' ↔ call.ClearsAll s)) := by
  obtain ⟨⟨⟩, s₁, hcheck, hrun⟩ := Tx.run_bind_eq_ok hrun
  rw [Tx.run_done, Prod.mk.injEq, require_eq_ok, decide_eq_true_eq] at hcheck
  obtain ⟨⟨hid, hsecret⟩, rfl⟩ := hcheck
  obtain ⟨t, hload, -, hnow, hfound⟩ := run_load h call.loading
  rw [Tx.run_bind_ok hload] at hrun
  rcases hshown : s.shown codec call.loading (trim call.sessionId) with _ | record
  · rw [hshown] at hrun
    cases hrun
    exact .inl rfl
  rw [hshown] at hrun
  obtain ⟨⟨⟩, s₂, hwait, hrun⟩ := Tx.run_bind_eq_ok hrun
  cases hwait
  dsimp only at hrun
  split at hrun
  · cases hrun
  rename_i hmatches
  obtain ⟨⟨⟩, s₃, hdelete, hrun⟩ := Tx.run_bind_eq_ok hrun
  cases hrun
  refine .inr ⟨record, rfl, not_not.mp hmatches, rfl, hid, hsecret, fun happroved => ?_⟩
  rw [deleteIfApproved, if_pos happroved] at hdelete
  cases hdelete
  rw [hfound (by simp [hshown])]
  exact gone_delete call s

theorem run_poll_of_delivers {codec : QrRecordCodec} {call : QrPollCall}
    (h : Held codec (trim call.sessionId) s) (hdelivers : call.Delivers codec s) :
    ∃ response, ((pollQrLoginSession codec call).run s).1 = .ok response ∧
      response.status = qrLoginStatusApproved := by
  obtain ⟨hid, hsecret, record, hshown, hmatches, happroved⟩ := hdelivers
  have hcheck : require (trim call.sessionId ≠ "" ∧ trim call.secret ≠ "")
      "session_id and secret are required" = .ok () := by
    simp [require_eq_ok, hid, hsecret]
  obtain ⟨t, hload, -⟩ := run_load h call.loading
  rw [hshown] at hload
  refine ⟨record.response, ?_, happroved⟩
  have hlater : (modifyStores (QrServer.later · call.seconds)).run t =
    (.ok (), t.later call.seconds) := rfl
  rw [pollQrLoginSession, hcheck, Tx.run_bind_ok (Tx.run_done (.ok ()) s), Tx.run_bind_ok hload,
    Tx.run_bind_ok hlater]
  simp only [hmatches, ne_eq, not_true, if_false]
  rw [deleteIfApproved, if_pos happroved]
  rfl

theorem fewer_poll (codec : QrRecordCodec) (id : String) (call : QrPollCall) (s : QrServer) :
    Fewer id s ((pollQrLoginSession codec call).run s).2 := by
  refine Tx.Writes.rel (Fewer.refl id) Fewer.trans ?_ s
  rw [pollQrLoginSession]
  apply Tx.writes_bind (Tx.writes_done _ _)
  intro _
  apply Tx.writes_bind (fewer_load codec call.loading id (trim call.sessionId))
  intro found
  refine Tx.writes_bind ⟨fun s => fewer_later id s _, fun _ => trivial⟩ (fun _ => ?_)
  cases found with
  | none => trivial
  | some record =>
    dsimp only
    split
    · trivial
    · refine Tx.writes_bind ?_ (fun _ => trivial)
      unfold deleteIfApproved
      split
      · exact ⟨fun s => fewer_delete _ id _ s, fun _ => trivial⟩
      · trivial

/-! ## Approvals -/

theorem proper_approved (record : QrLoginSessionRecord) (tokens : TokenResponse) :
    (record.approved tokens).Proper := .inl rfl

/-- What an approval keeps: it saves a proper record, and apart from that there are fewer
copies at most. -/
theorem writes_approve {I : QrServer → Prop} (hfewer : ∀ s s', I s → Fewer id s s' → I s')
    {codec : QrRecordCodec} {call : QrApproveCall}
    (hsave : ∀ s record ttlSecs, record.Proper → I s →
      I (saveQrLoginRecord codec call.saving (trim call.sessionId) record ttlSecs s))
    (env : AuthEnv) :
    (approveQrLoginSession env codec call).Writes (fun w => ∀ s, I s → I (w s)) := by
  have hkeeps : ∀ {α : Type} {t : QrHandler α}, t.Writes (fun w => ∀ s, Fewer id s (w s)) →
      t.Writes (fun w => ∀ s, I s → I (w s)) :=
    fun ht => Tx.writes_mono (fun w hw s hs => hfewer s (w s) hs (hw s)) ht
  apply Tx.writes_bind (hkeeps (fewer_onQrDb id _))
  intro claims
  apply Tx.writes_bind (Tx.writes_done _ _)
  intro _
  apply Tx.writes_bind (hkeeps (fewer_load codec call.loading id (trim call.sessionId)))
  intro found
  refine Tx.writes_bind (hkeeps ⟨fun s => fewer_later id s _, fun _ => trivial⟩) (fun _ => ?_)
  apply Tx.writes_bind (Tx.writes_okOr _ _ found)
  intro record
  split
  · trivial
  · split
    · trivial
    · apply Tx.writes_bind (Tx.writes_done _ _)
      intro userId
      apply Tx.writes_bind (hkeeps (fewer_onQrDb id _))
      intro tokens
      exact Tx.writes_bind
        ⟨fun s => hsave s _ _ (proper_approved record tokens), fun _ => trivial⟩
        (fun _ => trivial)

theorem run_approveQrLoginSession {env : AuthEnv} {codec : QrRecordCodec} {call : QrApproveCall}
    {claims : Claims}
    (h : (authUser env call.authorization call.verifiedAt).run s.db = (.ok claims, s.db)) :
    (approveQrLoginSession env codec call).run s = (approveAs env codec call claims).run s := by
  have hauth : (onQrDb (authUser env call.authorization call.verifiedAt)).run s =
      (.ok claims, s) := by
    rw [run_onQrDb, h]
  rw [approveQrLoginSession, Tx.run_bind_ok hauth]

theorem keeps_db_load (codec : QrRecordCodec) (access : RedisAccess) (id : String) :
    (loadQrLoginRecord codec access id).Keeps QrServer.db := by
  refine Tx.writes_exec (fun s => ?_) _
  have haccess : (s.atAccess access id).db = s.db := by
    unfold QrServer.atAccess
    split <;> rfl
  have hmemory : (fallbackLoadQrLoginRecord id (s.atAccess access id)).2.db = s.db := by
    unfold fallbackLoadQrLoginRecord
    split
    · exact haccess
    · split
      · exact haccess
      · exact haccess
  unfold Tx.effect
  split
  · rename_i a s' heq
    dsimp only at heq
    split at heq
    · split at heq <;> cases heq
      exact haccess
    · have hs' : (fallbackLoadQrLoginRecord id (s.atAccess access id)).2 = s' :=
        congrArg Prod.snd (Except.ok.inj heq)
      rw [← hs']
      exact hmemory
  · rfl

theorem db_saveQrLoginRecord (codec : QrRecordCodec) (access : RedisAccess) (id : String)
    (record : QrLoginSessionRecord) (ttlSecs : Int) (s : QrServer) :
    (saveQrLoginRecord codec access id record ttlSecs s).db = s.db := by
  have haccess : (s.atAccess access id).db = s.db := by
    unfold QrServer.atAccess
    split <;> rfl
  unfold saveQrLoginRecord
  dsimp only
  split <;> exact haccess

theorem db_approveRecord (env : AuthEnv) (codec : QrRecordCodec) (call : QrApproveCall)
    (loaded : Except AppError (Option QrLoginSessionRecord)) (claims : Claims)
    (record : QrLoginSessionRecord) (s : QrServer) :
    ((approveRecord env codec call claims record).run s).2.db =
      ((approvePending env (call.withRecord loaded) claims record).run s.db).2 := by
  rw [approveRecord, approvePending]
  dsimp only [QrApproveCall.withRecord]
  rcases claims.userId env with e | userId
  · rfl
  rw [Tx.run_bind_ok (Tx.run_done (.ok userId) s), Tx.run_bind_ok (Tx.run_done (.ok userId) s.db)]
  rcases hmint : (mintTokens env.tokens userId claims.role call.family call.minting).run s.db
    with ⟨e | tokens, d⟩
  · have hmint' : (onQrDb (mintTokens env.tokens userId claims.role call.family
        call.minting)).run s = (.error e, { s with db := d }) := by
      rw [run_onQrDb, hmint]
    rw [Tx.run_bind_error hmint', Tx.run_bind_error hmint]
  · have hmint' : (onQrDb (mintTokens env.tokens userId claims.role call.family
        call.minting)).run s = (.ok tokens, { s with db := d }) := by
      rw [run_onQrDb, hmint]
    rw [Tx.run_bind_ok hmint', Tx.run_bind_ok hmint]
    exact db_saveQrLoginRecord codec _ _ _ _ _

theorem checkQrSession_withRecord (call : QrApproveCall)
    (loaded : Except AppError (Option QrLoginSessionRecord)) :
    checkQrSession (call.withRecord loaded) =
      (require (trim call.sessionId ≠ "" ∧ trim call.secret ≠ "")
        "session_id and secret are required" >>= fun _ => loaded >>= fun record =>
          match record with
          | none => .error (.badRequest "QR login session expired")
          | some record =>
            if record.secret ≠ trim call.secret then .error .unauthorized else .ok record) := rfl

/-- On the database the approval is the one that is modelled with the record that was loaded. -/
theorem db_approveQrLoginSession (env : AuthEnv) (codec : QrRecordCodec) (call : QrApproveCall)
    (s : QrServer) :
    ((approveQrLoginSession env codec call).run s).2.db =
      ((approveQrLogin env (call.withRecord
        ((loadQrLoginRecord codec call.loading (trim call.sessionId)).run s).1)).run s.db).2 := by
  have hload := (keeps_db_load codec call.loading (trim call.sessionId)).run s
  rcases hloaded : (loadQrLoginRecord codec call.loading (trim call.sessionId)).run s
    with ⟨loaded, t⟩
  rw [hloaded] at hload
  have hdb := (keeps_authUser (π := id) env call.authorization call.verifiedAt).run s.db
  rcases hauth : (authUser env call.authorization call.verifiedAt).run s.db with ⟨e | claims, d⟩
  · have hauth' : (authUser env (call.withRecord loaded).authorization
      (call.withRecord loaded).now).run s.db = (.error e, d) := hauth
    have hfails : (onQrDb (authUser env call.authorization call.verifiedAt)).run s =
        (.error e, { s with db := d }) := by
      rw [run_onQrDb, hauth]
    rw [approveQrLogin, Tx.run_bind_error hauth', approveQrLoginSession, Tx.run_bind_error hfails]
  rw [hauth] at hdb
  obtain rfl : d = s.db := hdb
  have hauth' : (authUser env (call.withRecord loaded).authorization
    (call.withRecord loaded).now).run s.db = (.ok claims, s.db) := hauth
  rw [run_approveQrLoginSession hauth, approveQrLogin, Tx.run_bind_ok hauth', approveAs,
    checkQrSession_withRecord]
  rcases require (trim call.sessionId ≠ "" ∧ trim call.secret ≠ "")
    "session_id and secret are required" with e | ⟨⟩
  · rfl
  rw [Tx.run_bind_ok (Tx.run_done (.ok ()) s), ok_bind]
  rcases loaded with e | _ | record
  · rw [Tx.run_bind_error hloaded]
    exact hload
  · rw [Tx.run_bind_ok hloaded]
    exact hload
  have hlater : (modifyStores (QrServer.later · call.seconds)).run t =
    (.ok (), t.later call.seconds) := rfl
  have hokOr : (Tx.okOr (.badRequest "QR login session expired") (some record) :
      QrHandler QrLoginSessionRecord).run (t.later call.seconds) =
    (.ok record, t.later call.seconds) := rfl
  rw [Tx.run_bind_ok hloaded, ok_bind, Tx.run_bind_ok hlater, Tx.run_bind_ok hokOr]
  dsimp only
  by_cases hsecret : record.secret ≠ trim call.secret
  · rw [if_pos hsecret, if_pos hsecret]
    exact hload
  rw [if_neg hsecret, if_neg hsecret, Tx.run_bind_ok (Tx.run_done (.ok record) s.db)]
  by_cases hpending : record.status ≠ qrLoginStatusPending
  · rw [if_pos hpending, if_pos hpending]
    exact hload
  · rw [if_neg hpending, if_neg hpending, db_approveRecord env codec call (.ok (some record))]
    exact congrArg (fun d => ((approvePending env _ claims record).run d).2) hload

theorem held_approve {codec : QrRecordCodec} (h : Held codec id s) (env : AuthEnv)
    (call : QrApproveCall) : Held codec id ((approveQrLoginSession env codec call).run s).2 := by
  refine Tx.Writes.run (I := Held codec id)
    (writes_approve (fun _ _ => Held.of_fewer) (fun s record ttlSecs hproper hs => ?_) env) h
  by_cases hid : id = trim call.sessionId
  · rw [hid] at hs ⊢
    exact held_save hs _ hproper _
  · exact hs.of_fewer (fewer_save_of_ne hid codec _ _ _ s)

theorem shown_of_gone (h : Gone id s) (codec : QrRecordCodec) (access : RedisAccess) :
    s.shown codec access id = none := by
  unfold QrServer.shown
  split
  · rename_i raw _ hraw
    rw [QrServer.redis_atAccess, h.redis, ite_self] at hraw
    cases hraw
  · rw [QrServer.inMemory, Option.map_eq_none_iff, Option.filter_eq_none_iff]
    intro entry hentry
    simpa using h.fallback entry hentry

theorem gone_approve {codec : QrRecordCodec} (hheld : Held codec id s) (h : Gone id s)
    (env : AuthEnv) (call : QrApproveCall) :
    Gone id ((approveQrLoginSession env codec call).run s).2 := by
  by_cases hid : id = trim call.sessionId
  · subst hid
    refine h.of_fewer ?_
    have hauth := (fewer_onQrDb (trim call.sessionId)
      (authUser env call.authorization call.verifiedAt)).rel (Fewer.refl _) Fewer.trans s
    refine Tx.rel_bind (R := Fewer (trim call.sessionId)) Fewer.trans hauth
      (fun claims s₁ hclaims => ?_)
    rw [hclaims] at hauth
    refine Tx.rel_bind (R := Fewer (trim call.sessionId)) Fewer.trans (Fewer.refl _ _)
      (fun _ s₂ hcheck => ?_)
    rw [Tx.run_done, Prod.mk.injEq] at hcheck
    obtain ⟨-, rfl⟩ := hcheck
    obtain ⟨t, hload, hfewer, -⟩ := run_load (hheld.of_fewer hauth) call.loading
    rw [shown_of_gone (h.of_fewer hauth)] at hload
    rw [Tx.run_bind_ok hload]
    exact hfewer.trans (fewer_later _ t call.seconds)
  · refine Tx.Writes.run (I := Gone id)
      (writes_approve (fun _ _ => Gone.of_fewer) (fun s record ttlSecs _ hs => ?_) env) h
    exact hs.of_fewer (fewer_save_of_ne hid codec _ _ _ s)

end

/-! ## Runs -/

/-- What happens to the server: requests, and time goes by. -/
inductive QrRequest where
  | create (call : QrCreateCall)
  | approve (call : QrApproveCall)
  | poll (call : QrPollCall)
  | tick (seconds : Nat)

namespace QrRequest
variable (env : AuthEnv) (codec : QrRecordCodec)

def apply (s : QrServer) : QrRequest → QrServer
  | .create call => ((createQrLoginSession codec call).run s).2
  | .approve call => ((approveQrLoginSession env codec call).run s).2
  | .poll call => ((pollQrLoginSession codec call).run s).2
  | .tick seconds => s.later seconds

def polled (id : String) (s : QrServer) : QrRequest → Option QrLoginStatusResponse
  | .poll call =>
    if trim call.sessionId = id then ((pollQrLoginSession codec call).run s).1.toOption else none
  | _ => none

/-- The answers to the polls of the session in a run. -/
def answers (id : String) (s : QrServer) : List QrRequest → List QrLoginStatusResponse
  | [] => []
  | r :: rs => (r.polled codec id s).toList ++ answers id (r.apply env codec s) rs

def run (s : QrServer) (rs : List QrRequest) : QrServer := rs.foldl (apply env codec) s

def GoneAfterApproval (id : String) (s : QrServer) : List QrRequest → Prop
  | [] => True
  | r :: rs =>
    (∀ response ∈ r.polled codec id s, response.status = qrLoginStatusApproved →
      ∀ later, later <+: rs → Gone id (run env codec (r.apply env codec s) later)) ∧
      GoneAfterApproval id (r.apply env codec s) rs

/-- The answer carries tokens. -/
def Carries (response : QrLoginStatusResponse) : Bool :=
  response.accessToken.isSome || response.refreshToken.isSome

/-- The tokens are delivered once, and then the session is gone. -/
structure DeliveredOnce (id : String) (s : QrServer) (rs : List QrRequest) : Prop where
  once : (answers env codec id s rs).countP Carries ≤ 1
  gone : GoneAfterApproval env codec id s rs

/-- When a poll finds the approved record of the session, the store that the deletion does not
reach has no copy of it. -/
def NoOtherCopy (id : String) (s : QrServer) : QrRequest → Prop
  | .poll call => trim call.sessionId = id → call.Delivers codec s → call.ClearsAll s
  | _ => True

/-- The request does not begin the session. -/
def NotCreating (id : String) : QrRequest → Prop
  | .create call => call.sessionId ≠ id
  | _ => True

variable {env codec} {id : String} {s : QrServer}

theorem Held.apply (h : Held codec id s) (r : QrRequest) : Held codec id (r.apply env codec s) := by
  cases r with
  | create call =>
    by_cases hid : id = call.sessionId
    · rw [hid] at h ⊢
      exact held_save h _ (.inr ⟨rfl, rfl⟩) _
    · exact h.of_fewer (fewer_save_of_ne hid codec _ _ _ s)
  | approve call => exact held_approve h env call
  | poll call => exact h.of_fewer (fewer_poll codec id call s)
  | tick seconds => exact h.of_fewer (fewer_later id s seconds)

theorem gone_apply (hheld : Held codec id s) (h : Gone id s) {r : QrRequest}
    (hr : r.NotCreating id) : Gone id (r.apply env codec s) := by
  cases r with
  | create call => exact h.of_fewer (fewer_save_of_ne hr.symm codec _ _ _ s)
  | approve call => exact gone_approve hheld h env call
  | poll call => exact h.of_fewer (fewer_poll codec id call s)
  | tick seconds => exact h.of_fewer (fewer_later id s seconds)

theorem gone_run (hheld : Held codec id s) (h : Gone id s) {rs : List QrRequest}
    (hrs : ∀ r ∈ rs, r.NotCreating id) : Gone id (run env codec s rs) := by
  induction rs generalizing s with
  | nil => exact h
  | cons r rs ih =>
    have hr := hrs r List.mem_cons_self
    exact ih (Held.apply hheld r) (gone_apply hheld h hr)
      (fun r' hr' => hrs r' (List.mem_cons_of_mem r hr'))

variable (env) in
/-- What a poll of the session answers: that it has expired, or the record that it finds. -/
theorem polled_cases (h : Held codec id s) {r : QrRequest} {response : QrLoginStatusResponse}
    (hpolled : r.polled codec id s = some response) :
    response = ⟨qrLoginStatusExpired, none, none, none⟩ ∨
      ∃ call record, r = .poll call ∧ trim call.sessionId = id ∧
        s.shown codec call.loading id = some record ∧ response = record.response ∧
        (record.status = qrLoginStatusApproved → call.Delivers codec s ∧
          (Gone id (r.apply env codec s) ↔ call.ClearsAll s)) := by
  cases r with
  | poll call =>
    rw [polled] at hpolled
    split at hpolled
    · rename_i hid
      subst hid
      rcases hrun : (pollQrLoginSession codec call).run s with ⟨e | answer, s'⟩
      · rw [hrun] at hpolled
        cases hpolled
      · rw [hrun] at hpolled
        obtain rfl : answer = response := Option.some.inj hpolled
        rcases run_poll h hrun with hexpired | ⟨record, hshown, hsecret, hresponse, hid, hne, hgone⟩
        · exact .inl hexpired
        · refine .inr ⟨call, record, rfl, rfl, hshown, hresponse, fun happroved => ?_⟩
          refine ⟨⟨hid, hne, record, hshown, hsecret, happroved⟩, ?_⟩
          rw [QrRequest.apply, hrun]
          exact hgone happroved
    · cases hpolled
  | create call => cases hpolled
  | approve call => cases hpolled
  | tick seconds => cases hpolled

theorem shown_proper (h : Held codec id s) {access : RedisAccess} {record : QrLoginSessionRecord}
    (hshown : s.shown codec access id = some record) : record.Proper := by
  unfold QrServer.shown at hshown
  split at hshown
  · rename_i raw _ hraw
    obtain ⟨written, rfl, hproper⟩ := (h.of_fewer (fewer_atAccess id id access s)).redis raw hraw
    rw [codec.fromText_toText] at hshown
    obtain rfl : written = record := Option.some.inj hshown
    exact hproper
  · obtain ⟨entry, hentry, rfl⟩ := Option.map_eq_some_iff.mp hshown
    exact h.fallback entry (Option.filter_eq_some_iff.mp hentry).1

theorem answers_of_gone (hheld : Held codec id s) (h : Gone id s) {rs : List QrRequest}
    (hrs : ∀ r ∈ rs, r.NotCreating id) :
    ∀ response ∈ answers env codec id s rs,
      response = ⟨qrLoginStatusExpired, none, none, none⟩ := by
  induction rs generalizing s with
  | nil => exact fun _ hmem => (List.not_mem_nil hmem).elim
  | cons r rs ih =>
    intro response hmem
    rw [answers, List.mem_append, Option.mem_toList] at hmem
    rcases hmem with hhead | htail
    · rcases polled_cases env hheld hhead with hexpired | ⟨call, record, -, -, hshown, -, -⟩
      · exact hexpired
      · rw [shown_of_gone h] at hshown
        cases hshown
    · exact ih (Held.apply hheld r) (gone_apply hheld h (hrs r List.mem_cons_self))
        (fun r' hr' => hrs r' (List.mem_cons_of_mem r hr')) response htail

/-- An answer that carries tokens or says approved leaves nothing behind, if the deletion
reaches the only copy. -/
theorem gone_of_polled (h : Held codec id s) {r : QrRequest} (hc : r.NoOtherCopy codec id s)
    {response : QrLoginStatusResponse} (hpolled : r.polled codec id s = some response)
    (hresponse : Carries response = true ∨ response.status = qrLoginStatusApproved) :
    Gone id (r.apply env codec s) := by
  rcases polled_cases env h hpolled with rfl | ⟨call, record, rfl, hid, hshown, rfl, hgone⟩
  · rcases hresponse with hcarries | happroved
    · cases hcarries
    · exact absurd happroved (by decide)
  · have happroved : record.status = qrLoginStatusApproved := by
      rcases shown_proper h hshown with happroved | ⟨haccess, hrefresh⟩
      · exact happroved
      · rcases hresponse with hcarries | happroved
        · simp [Carries, QrLoginSessionRecord.response, haccess, hrefresh] at hcarries
        · exact happroved
    obtain ⟨hdelivers, hiff⟩ := hgone happroved
    exact hiff.mpr (hc hid hdelivers)

theorem goneAfterApproval_of_along (h : Held codec id s) {rs : List QrRequest}
    (hrs : ∀ r ∈ rs, r.NotCreating id)
    (hc : Along (apply env codec) (NoOtherCopy codec id) s rs) :
    GoneAfterApproval env codec id s rs := by
  induction rs generalizing s with
  | nil => trivial
  | cons r rs ih =>
    have hrest := fun r' hr' => hrs r' (List.mem_cons_of_mem r hr')
    refine ⟨fun response hpolled happroved later hlater => ?_, ih (Held.apply h r) hrest hc.2⟩
    have hgone : Gone id (r.apply env codec s) :=
      gone_of_polled h hc.1 (Option.mem_def.mp hpolled) (.inr happroved)
    exact gone_run (Held.apply h r) hgone (fun r' hr' => hrest r' (hlater.subset hr'))

theorem once_of_along (h : Held codec id s) {rs : List QrRequest}
    (hrs : ∀ r ∈ rs, r.NotCreating id)
    (hc : Along (apply env codec) (NoOtherCopy codec id) s rs) :
    (answers env codec id s rs).countP Carries ≤ 1 := by
  induction rs generalizing s with
  | nil => exact Nat.zero_le 1
  | cons r rs ih =>
    have hrest := fun r' hr' => hrs r' (List.mem_cons_of_mem r hr')
    have htail := ih (Held.apply h r) hrest hc.2
    rw [answers, List.countP_append]
    rcases hpolled : r.polled codec id s with _ | response
    · simpa using htail
    · by_cases hcarries : Carries response = true
      · have hgone : Gone id (r.apply env codec s) :=
          gone_of_polled h hc.1 hpolled (.inl hcarries)
        have hnone : (answers env codec id (r.apply env codec s) rs).countP Carries = 0 := by
          rw [List.countP_eq_zero]
          intro answer hanswer
          rw [answers_of_gone (Held.apply h r) hgone hrest answer hanswer]
          decide
        rw [hnone]
        exact List.countP_le_length
      · simpa [hcarries] using htail

theorem along_of_goneAfterApproval (h : Held codec id s) {rs : List QrRequest}
    (hgone : GoneAfterApproval env codec id s rs) :
    Along (apply env codec) (NoOtherCopy codec id) s rs := by
  induction rs generalizing s with
  | nil => trivial
  | cons r rs ih =>
    refine ⟨?_, ih (Held.apply h r) hgone.2⟩
    cases r with
    | poll call =>
      intro hid hdelivers
      subst hid
      obtain ⟨response, hrun, happroved⟩ := run_poll_of_delivers h hdelivers
      have hpolled : (poll call).polled codec (trim call.sessionId) s = some response := by
        rw [polled, if_pos rfl, hrun]
        rfl
      have hnow : Gone (trim call.sessionId) ((poll call).apply env codec s) :=
        hgone.1 response hpolled happroved [] (List.nil_prefix)
      rcases polled_cases env h hpolled with rfl | ⟨call', record, hcall, -, -, rfl, hiff⟩
      · exact absurd happroved (by decide)
      · cases hcall
        exact (hiff happroved).2.mp hnow
    | create call => trivial
    | approve call => trivial
    | tick seconds => trivial

end QrRequest

/-- In a run of requests on a new session its tokens are delivered once, and the session is gone
then, if and only if no approved poll leaves a copy in the store that its deletion does not
reach. -/
theorem qr_tokens_delivered_once_iff (env : AuthEnv) (codec : QrRecordCodec) (s : QrServer)
    (call : QrCreateCall) (hredis : s.redis (qrLoginRedisKey call.sessionId) = none)
    (hfallback : s.fallback call.sessionId = none) (rs : List QrRequest)
    (hrs : ∀ r ∈ rs, r.NotCreating call.sessionId) :
    QrRequest.DeliveredOnce env codec call.sessionId
        ((QrRequest.create call).apply env codec s) rs ↔
      Along (QrRequest.apply env codec) (QrRequest.NoOtherCopy codec call.sessionId)
        ((QrRequest.create call).apply env codec s) rs := by
  have hnew : Held codec call.sessionId s :=
    ⟨fun raw hraw => by simp [hredis] at hraw, fun entry hentry => by simp [hfallback] at hentry⟩
  have hheld : Held codec call.sessionId ((QrRequest.create call).apply env codec s) :=
    QrRequest.Held.apply hnew (.create call)
  constructor
  · exact fun h => QrRequest.along_of_goneAfterApproval hheld h.gone
  · exact fun hc => ⟨QrRequest.once_of_along hheld hrs hc,
      QrRequest.goneAfterApproval_of_along hheld hrs hc⟩

/-! ## Samples -/

def samplePending : QrLoginSessionRecord :=
  ⟨"00112233445566778899aabbccddeeff", qrLoginStatusPending, none, none, none⟩

def sampleApproved : QrLoginSessionRecord := samplePending.approved ⟨sampleAccessToken, "b", 900⟩

def sampleStart : String :=
  "\x7b\"secret\":\"00112233445566778899aabbccddeeff\",\"status\":\""

def samplePendingText : String :=
  sampleStart ++ ("pending" ++
    "\",\"access_token\":null,\"refresh_token\":null,\"expires_in\":null\x7d")

def sampleApprovedText : String :=
  sampleStart ++ ("approved" ++ ("\",\"access_token\":\"" ++ sampleAccessToken ++
    "\",\"refresh_token\":\"b\",\"expires_in\":900\x7d"))

theorem sampleTexts_ne : sampleApprovedText ≠ samplePendingText := by
  intro h
  have htexts := congrArg String.toList h
  simp only [sampleApprovedText, samplePendingText, String.toList_append,
    List.append_cancel_left_eq] at htexts
  have hhead := congrArg List.head? htexts
  rw [List.head?_append, List.head?_append] at hhead
  exact absurd hhead (by decide)

def charCodes (text : String) : List Nat := text.toList.map Char.toNat

def ofCharCodes (codes : List Nat) : String := String.ofList (codes.map Char.ofNat)

theorem ofCharCodes_charCodes (text : String) : ofCharCodes (charCodes text) = text := by
  simp [ofCharCodes, charCodes, Function.comp_def]

def recordNumber (record : QrLoginSessionRecord) : Nat :=
  Encodable.encode (charCodes record.secret, charCodes record.status,
    record.accessToken.map charCodes, record.refreshToken.map charCodes, record.expiresIn)

def ofRecordNumber (n : Nat) : Option QrLoginSessionRecord :=
  (Encodable.decode n : Option (List Nat × List Nat × Option (List Nat) × Option (List Nat) ×
    Option Int)).map (fun codes => ⟨ofCharCodes codes.1, ofCharCodes codes.2.1,
      codes.2.2.1.map ofCharCodes, codes.2.2.2.1.map ofCharCodes, codes.2.2.2.2⟩)

theorem ofRecordNumber_recordNumber (record : QrLoginSessionRecord) :
    ofRecordNumber (recordNumber record) = some record := by
  simp [ofRecordNumber, recordNumber, ofCharCodes_charCodes, Function.comp_def]

theorem replicate_ne {text rest : String} (htext : text = sampleStart ++ rest) (n : Nat) :
    String.ofList (List.replicate n 'x') ≠ text := by
  intro h
  have hstart : ':' ∈ (String.ofList (List.replicate n 'x')).toList := by
    rw [h, htext, String.toList_append]
    exact List.mem_append_left _ (by decide)
  rw [String.toList_ofList] at hstart
  exact absurd (List.eq_of_mem_replicate hstart) (by decide)

/-- The JSON texts of the sample records; other records are written as a number. -/
def sampleCodec : QrRecordCodec where
  toText record :=
    if record = samplePending then samplePendingText
    else if record = sampleApproved then sampleApprovedText
    else String.ofList (List.replicate (recordNumber record) 'x')
  fromText raw :=
    if raw = samplePendingText then .ok samplePending
    else if raw = sampleApprovedText then .ok sampleApproved
    else match ofRecordNumber raw.toList.length with
      | some record => .ok record
      | none => .error "expected value at line 1 column 1"
  fromText_toText record := by
    by_cases hpending : record = samplePending
    · rw [if_pos hpending, if_pos rfl, hpending]
    · rw [if_neg hpending]
      by_cases happroved : record = sampleApproved
      · rw [if_pos happroved, if_neg sampleTexts_ne, if_pos rfl, happroved]
      · have hlength : (String.ofList (List.replicate (recordNumber record) 'x')).toList.length =
            recordNumber record := by simp
        have hfirst : String.ofList (List.replicate (recordNumber record) 'x') ≠
            samplePendingText := replicate_ne rfl _
        have hsecond : String.ofList (List.replicate (recordNumber record) 'x') ≠
            sampleApprovedText := replicate_ne rfl _
        rw [if_neg happroved, if_neg hfirst, if_neg hsecond, hlength,
          ofRecordNumber_recordNumber]

def sampleSession : String := "6f9619ff-8b86-4011-b42d-00c04fc964ff"

def sampleCreate (reach : Reach) : QrCreateCall :=
  ⟨sampleSession, samplePending.secret, ⟨false, reach⟩⟩

/-- Alice approves the session. -/
def sampleApprove (reach : Reach) : QrApproveCall :=
  ⟨some ("Bearer " ++ sampleAccessToken), 2000000, sampleSession, samplePending.secret,
    ⟨false, reach⟩, 0, ⟨false, reach⟩, 8, ⟨2000000, 6, "b"⟩⟩

def samplePoll : QrPollCall :=
  ⟨sampleSession, samplePending.secret, ⟨false, .reached⟩, 0, ⟨false, .reached⟩⟩

def sampleStores : QrServer := ⟨signedIn, fun _ => none, fun _ => none, 2⟩

def sampleSaved (reach : Reach) : QrServer :=
  ((approveAs sampleAuthEnv sampleCodec (sampleApprove reach) (Claims.new 1 "user" 1 901)).run
    ((QrRequest.create (sampleCreate reach)).apply sampleAuthEnv sampleCodec sampleStores)).2

theorem run_authUser_sample (reach : Reach) :
    (authUser sampleAuthEnv (sampleApprove reach).authorization
      (sampleApprove reach).verifiedAt).run signedIn =
        (.ok (Claims.new 1 "user" 1 901), signedIn) := by
  have hclaims : extractClaims sampleAuthEnv (some ("Bearer " ++ sampleAccessToken)) 2000000 =
      .ok (Claims.new 1 "user" 1 901) := by
    rw [extractClaims, bearerToken_bearer, ok_bind, verified, verify_sampleAccessToken]
  have huser : claimedUser sampleAuthEnv (Claims.new 1 "user" 1 901) = .ok 1 :=
    claimedUser_ok.mpr (userId_ok.mpr parseUuid_one)
  have hfound : (findById 1).run signedIn = (.ok (signedIn.users.get 1), signedIn) := rfl
  rw [sampleApprove, authUser, hclaims, Tx.run_bind_ok (Tx.run_done (.ok _) _), huser,
    Tx.run_bind_ok (Tx.run_done (.ok _) _), Tx.run_bind_ok hfound]
  rfl

theorem apply_sampleApprove (reach : Reach) :
    (QrRequest.approve (sampleApprove reach)).apply sampleAuthEnv sampleCodec
      ((QrRequest.create (sampleCreate reach)).apply sampleAuthEnv sampleCodec sampleStores) =
        sampleSaved reach := by
  have hdb : ((QrRequest.create (sampleCreate reach)).apply sampleAuthEnv sampleCodec
      sampleStores).db = signedIn := by
    rcases reach with _ | ⟨_ | _⟩ | _ <;> rfl
  rw [sampleSaved]
  generalize (QrRequest.create (sampleCreate reach)).apply sampleAuthEnv sampleCodec
    sampleStores = s at hdb ⊢
  have hauth := run_authUser_sample reach
  rw [← hdb] at hauth
  rw [QrRequest.apply, run_approveQrLoginSession hauth]

/-- Redis is always reached. -/
theorem qr_tokens_delivered_once_iff_reached :
    QrRequest.DeliveredOnce sampleAuthEnv sampleCodec sampleSession
      ((QrRequest.create (sampleCreate .reached)).apply sampleAuthEnv sampleCodec sampleStores)
      [.approve (sampleApprove .reached), .poll samplePoll, .poll samplePoll] := by
  have hclears : samplePoll.ClearsAll (sampleSaved .reached) ∧
      samplePoll.ClearsAll
        ((QrRequest.poll samplePoll).apply sampleAuthEnv sampleCodec (sampleSaved .reached)) := by
    decide +kernel
  rw [← apply_sampleApprove] at hclears
  exact (qr_tokens_delivered_once_iff sampleAuthEnv sampleCodec sampleStores
    (sampleCreate .reached) rfl rfl
    [.approve (sampleApprove .reached), .poll samplePoll, .poll samplePoll]
    (by simp [QrRequest.NotCreating])).mpr
    ⟨trivial, fun _ _ => hclears.1, fun _ _ => hclears.2, trivial⟩

/-- The session is created and approved while Redis cannot be reached. Then it can be, and two
polls are given the tokens. -/
theorem qr_tokens_delivered_twice :
    ¬ QrRequest.DeliveredOnce sampleAuthEnv sampleCodec sampleSession
      ((QrRequest.create (sampleCreate .unreachable)).apply sampleAuthEnv sampleCodec sampleStores)
      [.approve (sampleApprove .unreachable), .poll samplePoll, .poll samplePoll] := by
  intro h
  have htwice : (QrRequest.answers sampleAuthEnv sampleCodec sampleSession
      (sampleSaved .unreachable) [.poll samplePoll, .poll samplePoll]).countP
        QrRequest.Carries = 2 := by decide +kernel
  rw [← apply_sampleApprove] at htwice
  have honce := h.once
  rw [QrRequest.answers, List.countP_append, htwice] at honce
  omega

end SyncServer.Auth
