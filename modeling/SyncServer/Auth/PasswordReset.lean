import SyncServer.Auth.Login

/-! # Resetting a password

A token is kept in Redis for the account whose address was given, and is mailed to that address.
Whoever presents it may choose a new password.
-/

namespace SyncServer.Auth
open Transaction Accounts

/-- The libraries and the configuration of the handlers. -/
structure ResetEnv extends AuthEnv where
  enforceHttps : Bool
  instanceDomain : String
  resendConfigured : Bool

/-- The database, the keys in Redis, and the mails to people with the links in them. -/
structure ResetServer where
  db : Db
  redis : String → Option String
  mails : List (String × String)

abbrev ResetHandler (α : Type) := Tx ResetServer RowLock AppError α

def ResetServer.setDb (s : ResetServer) (d : Db) : ResetServer := { s with db := d }

def onResetDb {α : Type} (q : Query α) : ResetHandler α :=
  q.onPart ResetServer.db ResetServer.setDb

theorem run_onResetDb {α : Type} {q : Query α} {s : ResetServer} {r : Except AppError α} {d : Db}
    (h : q.run s.db = (r, d)) : (onResetDb q).run s = (r, s.setDb d) := by
  rw [onResetDb, Tx.run_onPart ResetServer.db ResetServer.setDb (fun _ => rfl) (fun _ _ => rfl)
    (fun _ _ _ => rfl), h]

/-! ## Redis -/

/-- How a command ends. One that fails may have been executed or not. -/
inductive RedisEnd where
  | answered
  | failed (executed : Bool) (error : String)
deriving DecidableEq, Repr

structure RedisCommand where
  expired : Bool
  ends : RedisEnd
deriving DecidableEq, Repr

def RedisCommand.result (c : RedisCommand) (what : String) : Except AppError Unit :=
  match c.ends with
  | .answered => .ok ()
  | .failed _ e => .error (.internal (what ++ e))

def ResetServer.setKey (s : ResetServer) (key : String) (value : Option String) : ResetServer :=
  { s with redis := Function.update s.redis key value }

/-- The server when a command arrives. -/
def RedisCommand.arrive (c : RedisCommand) (key : String) (s : ResetServer) : ResetServer :=
  if c.expired then s.setKey key none else s

theorem RedisCommand.arrive_of_fresh {c : RedisCommand} (h : c.expired = false) {key : String}
    {s : ResetServer} : c.arrive key s = s := by
  rw [arrive, h]
  rfl

/-- `GET`. -/
def redisGet (c : RedisCommand) (key : String) : ResetHandler (Option String) :=
  .stmt (fun _ => []) (c.arrive key)
    (fun s => (c.result "Redis get: ").map (fun _ => (c.arrive key s).redis key)) .done

theorem RedisCommand.result_ok {c : RedisCommand} {what : String} :
    c.result what = .ok () ↔ c.ends = .answered := by
  unfold RedisCommand.result
  cases c.ends <;> simp

theorem run_redisGet_ok {c : RedisCommand} {key : String} {s s' : ResetServer}
    {v : Option String} : (redisGet c key).run s = (.ok v, s') ↔
      c.ends = .answered ∧ s' = c.arrive key s ∧ v = s'.redis key := by
  rw [redisGet, Tx.run_stmt, Tx.run_done, Prod.mk.injEq, ← RedisCommand.result_ok]
  cases c.result "Redis get: " with
  | error e => simp [Except.map]
  | ok u =>
    constructor
    · rintro ⟨h, rfl⟩
      cases h
      exact ⟨rfl, rfl, rfl⟩
    · rintro ⟨-, rfl, rfl⟩
      exact ⟨rfl, rfl⟩

/-- `SETEX` and `DEL`, which leave a value or none. -/
def redisWrite (what : String) (c : RedisCommand) (key : String) (value : Option String) :
    ResetHandler Unit :=
  .stmt (fun _ => []) (fun s => match c.ends with
    | .failed false _ => c.arrive key s
    | _ => s.setKey key value) (fun _ => c.result what) .done

theorem run_redisWrite_ok {what : String} {c : RedisCommand} {key : String}
    {value : Option String} {s s' : ResetServer} :
    (redisWrite what c key value).run s = (.ok (), s') ↔
      c.ends = .answered ∧ s' = s.setKey key value := by
  rw [redisWrite, Tx.run_stmt, Tx.run_done, Prod.mk.injEq, RedisCommand.result_ok]
  constructor
  · rintro ⟨h, rfl⟩
    exact ⟨h, by rw [h]⟩
  · rintro ⟨h, rfl⟩
    exact ⟨h, by rw [h]⟩

def redisConnect (connected : Except String Unit) : ResetHandler Unit :=
  Tx.done (connected.mapError (fun e => .internal ("Redis: " ++ e)))

theorem run_redisConnect_ok {connected : Except String Unit} {s s' : ResetServer} :
    (redisConnect connected).run s = (.ok (), s') ↔ connected = .ok () ∧ s' = s := by
  rw [redisConnect, Tx.run_done, Prod.mk.injEq]
  cases connected <;> simp [Except.mapError, eq_comm]

def resetKey (token : String) : String := "reset:" ++ token

/-! ## The handlers -/

/-- A request for a link, with the token that is drawn. -/
structure ForgotCall where
  email : String
  token : Except AppError String
  connected : Except String Unit
  saving : RedisCommand
  mailed : Except AppError Unit

def resetUrl (env : ResetEnv) (token : String) : String :=
  "http" ++ (if env.enforceHttps then "s" else "") ++ "://" ++ env.instanceDomain ++
    "/auth/reset-password?token=" ++ token

/-- `send_password_reset`, which does nothing without a key for the mail service. -/
def sendPasswordReset (env : ResetEnv) (mailed : Except AppError Unit) (recipient url : String) :
    ResetHandler Unit :=
  if env.resendConfigured then
    Tx.exec (fun _ => []) (fun s =>
      mailed.map (fun _ => ((), { s with mails := s.mails ++ [(recipient, url)] })))
  else pure ()

/-- `forgot_password`; the answer, which is not told to the client, is the account that the link
is for. -/
def forgotPassword (env : ResetEnv) (call : ForgotCall) : ResetHandler (Option User) := do
  let email := env.names.unicode.toLowercase (trim call.email)
  let found ← onResetDb (findByEmail email)
  match found with
  | none => pure none
  | some user => do
    let token ← Tx.done call.token
    redisConnect call.connected
    redisWrite "Redis set: " call.saving (resetKey token) (some (uuidString user.id))
    sendPasswordReset env call.mailed email (resetUrl env token)
    pure (some user)

/-- The form with the new password, and the salt for its hash. -/
structure ResetCall where
  token : String
  newPassword : String
  connected : Except String Unit
  getting : RedisCommand
  salt : String
  deleting : RedisCommand

def withHash (hash : String) (r : User) : User := { r with passwordHash := hash }

theorem withHash_id (hash : String) (r : User) : (withHash hash r).id = r.id := rfl

/-- `UPDATE users SET password_hash = .. WHERE id = ..`. -/
def setPasswordHash (id : Uuid) (hash : String) : Query Unit :=
  Query.exec (fun _ => []) (fun s =>
    .ok ((), { s with users := s.users.update id (withHash hash) (withHash_id hash) }))

theorem run_setPasswordHash (id : Uuid) (hash : String) (s : ResetServer) :
    (onResetDb (setPasswordHash id hash)).run s = (.ok (), s.setDb
      { s.db with users := s.db.users.update id (withHash hash) (withHash_id hash) }) :=
  run_onResetDb (Query.run_exec_ok.mpr rfl)

/-- `reset_password`; the answer is the account that is logged. -/
def resetPassword (env : ResetEnv) (call : ResetCall) : ResetHandler Uuid := do
  let token := trim call.token
  let newPassword := trim call.newPassword
  Tx.done (require (8 ≤ newPassword.utf8ByteSize) "Password must be at least 8 characters")
  redisConnect call.connected
  let found ← redisGet call.getting (resetKey token)
  let value ← Tx.okOr (.badRequest "Invalid or expired token") found
  let userId ← Tx.done
    ((env.parseUuid value).mapError (fun _ => .badRequest "Invalid or expired token"))
  let hash ← Tx.done ((env.hashPassword call.salt newPassword).mapError .internal)
  onResetDb (setPasswordHash userId hash)
  redisWrite "Redis del: " call.deleting (resetKey token) none
  pure userId

/-! ## When they succeed -/

/-- The token is drawn, stored and mailed. -/
structure ForgotCall.Works (call : ForgotCall) : Prop where
  token : ∃ token, call.token = .ok token
  connected : call.connected = .ok ()
  saved : call.saving.ends = .answered
  mailed : call.mailed = .ok ()

/-- What `find_by_email` finds. -/
def accountByEmail (email : String) (s : Db) : Option User :=
  s.users.rows.find? (fun r => r.email = email && r.isActive)

/-- The link is for the account that is found by the address without white space at its ends. -/
theorem run_forgotPassword {env : ResetEnv} {call : ForgotCall} (h : call.Works)
    (s : ResetServer) : ((forgotPassword env call).run s).1 =
      .ok (accountByEmail (env.names.unicode.toLowercase (trim call.email)) s.db) := by
  obtain ⟨token, htoken⟩ := h.token
  rw [forgotPassword]
  generalize env.names.unicode.toLowercase (trim call.email) = email
  have hfind : (onResetDb (findByEmail email)).run s = (.ok (accountByEmail email s.db), s) :=
    run_onResetDb (Tx.run_query _ _)
  rw [Tx.run_bind_ok hfind]
  cases accountByEmail email s.db with
  | none => rfl
  | some user =>
    have hconnect := run_redisConnect_ok.mpr ⟨h.connected, Eq.refl s⟩
    have hsave : (redisWrite "Redis set: " call.saving (resetKey token)
        (some (uuidString user.id))).run s =
          (.ok (), s.setKey (resetKey token) (some (uuidString user.id))) :=
      run_redisWrite_ok.mpr ⟨h.saved, rfl⟩
    have hsend : ∀ (url : String) (s₁ : ResetServer), ∃ s₂,
        (sendPasswordReset env call.mailed email url).run s₁ = (.ok (), s₂) := by
      intro url s₁
      rw [sendPasswordReset, h.mailed]
      split
      · exact ⟨_, Tx.run_exec_ok.mpr rfl⟩
      · exact ⟨s₁, rfl⟩
    obtain ⟨s₂, hs₂⟩ := hsend (resetUrl env token)
      (s.setKey (resetKey token) (some (uuidString user.id)))
    dsimp only
    rw [htoken, Tx.run_bind_ok (Tx.run_done _ _), Tx.run_bind_ok hconnect, Tx.run_bind_ok hsave,
      Tx.run_bind_ok hs₂]
    rfl

/-- The new password is long enough, and its token stands for the account. -/
structure ResetCall.Accepts (env : ResetEnv) (call : ResetCall) (s : ResetServer) (id : Uuid)
    (hash : String) : Prop where
  long : 8 ≤ (trim call.newPassword).utf8ByteSize
  connected : call.connected = .ok ()
  answered : call.getting.ends = .answered
  fresh : call.getting.expired = false
  stored : ∃ value, s.redis (resetKey (trim call.token)) = some value ∧ env.parseUuid value = .ok id
  hashed : env.hashPassword call.salt (trim call.newPassword) = .ok hash
  deleted : call.deleting.ends = .answered

def ResetCall.afterwards (call : ResetCall) (s : ResetServer) (id : Uuid) (hash : String) :
    ResetServer :=
  (s.setDb { s.db with users := s.db.users.update id (withHash hash) (withHash_id hash) }).setKey
    (resetKey (trim call.token)) none

/-- A new password that is accepted is stored without white space at its ends. -/
theorem run_resetPassword_ok {env : ResetEnv} {call : ResetCall} {s s' : ResetServer} {id : Uuid} :
    (resetPassword env call).run s = (.ok id, s') ↔
      ∃ hash, call.Accepts env s id hash ∧ s' = call.afterwards s id hash := by
  constructor
  · intro h
    unfold resetPassword at h
    obtain ⟨⟨⟩, hlong, h₁⟩ := Tx.run_done_bind_eq_ok.mp h
    obtain ⟨⟨⟩, s₁, hconnect, h₂⟩ := Tx.run_bind_eq_ok h₁
    obtain ⟨hconnected, hs₁⟩ := run_redisConnect_ok.mp hconnect
    rw [hs₁] at h₂
    obtain ⟨found, s₂, hget, h₃⟩ := Tx.run_bind_eq_ok h₂
    obtain ⟨hanswered, hs₂, hfound⟩ := run_redisGet_ok.mp hget
    subst hs₂ hfound
    obtain ⟨value, s₃, hvalue, h₄⟩ := Tx.run_bind_eq_ok h₃
    obtain ⟨hstored, hs₃⟩ := Tx.run_okOr_ok.mp hvalue
    subst hs₃
    obtain ⟨userId, hparse, h₅⟩ := Tx.run_done_bind_eq_ok.mp h₄
    obtain ⟨hash, hhash, h₆⟩ := Tx.run_done_bind_eq_ok.mp h₅
    rw [Tx.run_bind_ok (run_setPasswordHash _ _ _)] at h₆
    obtain ⟨⟨⟩, s₄, hdelete, h₇⟩ := Tx.run_bind_eq_ok h₆
    obtain ⟨hdeleted, hs₄⟩ := run_redisWrite_ok.mp hdelete
    subst hs₄
    cases h₇
    have hfresh : call.getting.expired = false := by
      by_contra hexpired
      rw [Bool.not_eq_false] at hexpired
      rw [RedisCommand.arrive, if_pos hexpired] at hstored
      simp [ResetServer.setKey] at hstored
    rw [RedisCommand.arrive_of_fresh hfresh] at hstored ⊢
    exact ⟨hash, ⟨by simpa using require_eq_ok.mp hlong, hconnected, hanswered, hfresh,
      ⟨value, hstored, mapError_eq_ok.mp hparse⟩, mapError_eq_ok.mp hhash, hdeleted⟩, rfl⟩
  · rintro ⟨hash, h, rfl⟩
    obtain ⟨value, hstored, hparse⟩ := h.stored
    have hget : (redisGet call.getting (resetKey (trim call.token))).run s = (.ok (some value), s) :=
      run_redisGet_ok.mpr ⟨h.answered, (RedisCommand.arrive_of_fresh h.fresh).symm, hstored.symm⟩
    have hlong : require (8 ≤ (trim call.newPassword).utf8ByteSize)
        "Password must be at least 8 characters" = .ok () :=
      require_eq_ok.mpr (decide_eq_true h.long)
    rw [resetPassword, hlong, Tx.run_bind_ok (Tx.run_done _ _),
      Tx.run_bind_ok (run_redisConnect_ok.mpr ⟨h.connected, rfl⟩), Tx.run_bind_ok hget,
      Tx.run_bind_ok (Tx.run_okOr_ok.mpr ⟨rfl, rfl⟩), mapError_eq_ok.mpr hparse,
      Tx.run_bind_ok (Tx.run_done _ _), mapError_eq_ok.mpr h.hashed,
      Tx.run_bind_ok (Tx.run_done _ _), Tx.run_bind_ok (run_setPasswordHash _ _ s),
      Tx.run_bind_ok (run_redisWrite_ok.mpr ⟨h.deleted, rfl⟩)]
    rfl

end SyncServer.Auth
