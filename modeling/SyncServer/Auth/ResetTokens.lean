import Mathlib.Tactic.FinCases
import SyncServer.Auth.Credentials
import SyncServer.Transaction.Autocommit

/-! # Who may reset a password

Requests for links, new passwords and other handlers come in between each other, one statement at a
time. Whatever their order, a password is only replaced for the account whose address a link was
requested for, the links go to that address, and a token that has been used up is refused.
-/

namespace SyncServer.Auth
open Transaction Autocommit Accounts

inductive ResetReply where
  | asked (found : Option User)
  | changed (userId : Uuid)
  | other

/-- A statement of another handler, which neither stores a token nor mails a link. -/
structure TokenlessStmt where
  write : ResetServer → ResetServer
  keeps : ∀ s token value, (write s).redis (resetKey token) = some value →
    s.redis (resetKey token) = some value
  mails : ∀ s, (write s).mails = s.mails

def TokenlessStmt.program (stmt : TokenlessStmt) : ResetHandler ResetReply :=
  .stmt (fun _ => []) stmt.write (fun _ => ()) (fun _ => pure .other)

/-! ## The handlers by their phases -/

namespace ForgotCall

def address (env : ResetEnv) (call : ForgotCall) : String :=
  env.names.unicode.toLowercase (trim call.email)

/-- The token, when there is a connection to store it. -/
def drawn (call : ForgotCall) : Except AppError String :=
  call.token.bind (fun token =>
    (call.connected.mapError (fun e => .internal ("Redis: " ++ e))).map (fun _ => token))

/-- The mail with the link, where mails are sent. -/
def mail (env : ResetEnv) (call : ForgotCall) (token : String) (user : User) :
    ResetHandler (Option User) := do
  Tx.exec (fun _ => []) (fun s => call.mailed.map (fun _ =>
    ((), { s with mails := s.mails ++ [(call.address env, resetUrl env token)] })))
  pure (some user)

/-- The rest of `forgotPassword` once the token is drawn. -/
def saveAndMail (env : ResetEnv) (call : ForgotCall) (token : String) (user : User) :
    ResetHandler (Option User) := do
  redisWrite "Redis set: " call.saving (resetKey token) (some (uuidString user.id))
  sendPasswordReset env call.mailed (call.address env) (resetUrl env token)
  pure (some user)

end ForgotCall

namespace ResetCall

/-- What is checked before Redis is asked. -/
def admitted (call : ResetCall) : Except AppError Unit :=
  (require (8 ≤ (trim call.newPassword).utf8ByteSize)
    "Password must be at least 8 characters").bind
      (fun _ => call.connected.mapError (fun e => .internal ("Redis: " ++ e)))

/-- What `GET` answers. -/
def found (call : ResetCall) (s : ResetServer) : Except AppError (Option String) :=
  (call.getting.result "Redis get: ").map
    (fun _ => (call.getting.arrive (resetKey (trim call.token)) s).redis
      (resetKey (trim call.token)))

def chosen (env : ResetEnv) (call : ResetCall) (found : Option String) :
    Except AppError (Uuid × String) :=
  match found with
  | none => .error (.badRequest "Invalid or expired token")
  | some value =>
    ((env.parseUuid value).mapError (fun _ => .badRequest "Invalid or expired token")).bind
      (fun userId => ((env.hashPassword call.salt (trim call.newPassword)).mapError .internal).map
        (fun hash => (userId, hash)))

def useUp (call : ResetCall) (userId : Uuid) : ResetHandler Uuid := do
  redisWrite "Redis del: " call.deleting (resetKey (trim call.token)) none
  pure userId

/-- The rest of `resetPassword` once the hash is computed. -/
def replace (call : ResetCall) (userId : Uuid) (hash : String) : ResetHandler Uuid := do
  onResetDb (setPasswordHash userId hash)
  call.useUp userId

end ResetCall

/-- The server after `SETEX` or `DEL`. -/
def RedisCommand.written (c : RedisCommand) (key : String) (value : Option String)
    (s : ResetServer) : ResetServer :=
  match c.ends with
  | .failed false _ => c.arrive key s
  | _ => s.setKey key value

/-- What a handler has to do next. -/
inductive ResetPhase where
  | asking (call : ForgotCall)
  | saving (call : ForgotCall) (token : String) (user : User)
  | mailing (call : ForgotCall) (token : String) (user : User)
  | presenting (call : ResetCall)
  | changing (call : ResetCall) (userId : Uuid) (hash : String)
  | deleting (call : ResetCall) (userId : Uuid)
  | other (stmt : TokenlessStmt)
  | replied (reply : Except AppError ResetReply)

namespace ResetPhase
variable (env : ResetEnv)

def program : ResetPhase → ResetHandler ResetReply
  | asking call => do
    let found ← forgotPassword env call
    pure (.asked found)
  | saving call token user => do
    let found ← call.saveAndMail env token user
    pure (.asked found)
  | mailing call token user => do
    let found ← call.mail env token user
    pure (.asked found)
  | presenting call => do
    let userId ← resetPassword env call
    pure (.changed userId)
  | changing call userId hash => do
    let userId ← call.replace userId hash
    pure (.changed userId)
  | deleting call userId => do
    let userId ← call.useUp userId
    pure (.changed userId)
  | other stmt => stmt.program
  | replied reply => Tx.done reply

def found (call : ForgotCall) : Option User → ResetPhase
  | none => replied (.ok (.asked none))
  | some user =>
    match call.drawn with
    | .error e => replied (.error e)
    | .ok token => saving call token user

/-- The phase once the token is stored. -/
def saved (call : ForgotCall) (token : String) (user : User) : ResetPhase :=
  if env.resendConfigured then mailing call token user else replied (.ok (.asked (some user)))

/-- The phase after `GET`. -/
def taken (call : ResetCall) (s : ResetServer) : ResetPhase :=
  match (call.found s).bind (call.chosen env) with
  | .error e => replied (.error e)
  | .ok (userId, hash) => changing call userId hash

def next : ResetPhase → ResetServer → Option (ResetPhase × ResetServer)
  | asking call, s => some (found call (accountByEmail (call.address env) s.db), s)
  | saving call token user, s =>
    some (match call.saving.result "Redis set: " with
      | .ok _ => saved env call token user
      | .error e => replied (.error e),
      call.saving.written (resetKey token) (some (uuidString user.id)) s)
  | mailing call token user, s =>
    match call.mailed with
    | .ok _ => some (replied (.ok (.asked (some user))),
        { s with mails := s.mails ++ [(call.address env, resetUrl env token)] })
    | .error e => some (replied (.error e), s)
  | presenting call, s =>
    match call.admitted with
    | .ok _ => some (taken env call s, call.getting.arrive (resetKey (trim call.token)) s)
    | .error _ => none
  | changing call userId hash, s => some (deleting call userId, s.setDb
      { s.db with users := s.db.users.update userId (withHash hash) (withHash_id hash) })
  | deleting call userId, s =>
    some (replied ((call.deleting.result "Redis del: ").map (fun _ => .changed userId)),
      call.deleting.written (resetKey (trim call.token)) none s)
  | other stmt, s => some (replied (.ok .other), stmt.write s)
  | replied _, _ => none

variable {env}

theorem step_program (f : ResetPhase) (s : ResetServer) :
    (f.program env).step s = (f.next env s).map (Prod.map (program env) id) := by
  cases f with
  | asking call =>
    rw [program, forgotPassword, next]
    change some (Tx.bind (Tx.bind (Tx.onPart _ _ (Tx.done (.ok
      (accountByEmail (call.address env) s.db)))) _) _, s) = _
    cases accountByEmail (call.address env) s.db with
    | none => rfl
    | some user =>
      rw [Option.map_some, Prod.map, found]
      rcases htoken : call.token with e | token
      · simp only [ForgotCall.drawn, htoken]
        rfl
      · rcases hconnected : call.connected with e | u
        · simp only [ForgotCall.drawn, htoken, hconnected]
          rfl
        · simp only [ForgotCall.drawn, htoken, hconnected]
          rfl
  | saving call token user =>
    rw [program, next]
    change some (Tx.bind (Tx.bind (Tx.done (call.saving.result "Redis set: ")) _) _, _) = _
    cases call.saving.result "Redis set: " with
    | error e => rfl
    | ok u =>
      unfold saved sendPasswordReset
      split <;> rfl
  | mailing call token user =>
    rw [program, next]
    change some (Tx.bind (Tx.bind (Tx.done (Tx.outcome _ s)) _) _, Tx.effect _ s) = _
    cases call.mailed <;> rfl
  | presenting call =>
    rw [program, resetPassword, next]
    rcases hlong : require (8 ≤ (trim call.newPassword).utf8ByteSize)
      "Password must be at least 8 characters" with e | u
    · simp only [ResetCall.admitted, hlong]
      rfl
    · rcases hconnected : call.connected with e | u'
      · simp only [ResetCall.admitted, hlong, hconnected]
        rfl
      · simp only [ResetCall.admitted, hlong, hconnected]
        change some (Tx.bind (Tx.bind (Tx.done (call.found s)) _) _, _) =
          some (program env (taken env call s), _)
        rw [taken]
        rcases call.found s with e | value
        · rfl
        · cases value with
          | none => rfl
          | some value =>
            change some (Tx.bind (Tx.bind (Tx.done ((env.parseUuid value).mapError _)) _) _, _) = _
            simp only [Except.bind, ResetCall.chosen]
            rcases env.parseUuid value with e | userId
            · rfl
            · change some (Tx.bind (Tx.bind (Tx.done
                ((env.hashPassword call.salt (trim call.newPassword)).mapError _)) _) _, _) = _
              rcases env.hashPassword call.salt (trim call.newPassword) with e | hash <;> rfl
  | changing call userId hash => rfl
  | deleting call userId =>
    rw [program, next]
    change some (Tx.bind (Tx.bind (Tx.done (call.deleting.result "Redis del: ")) _) _, _) = _
    cases call.deleting.result "Redis del: " <;> rfl
  | other stmt => rfl
  | replied reply => rfl

def mints : ResetPhase → Option String
  | asking call => call.drawn.toOption
  | saving _ token _ => some token
  | _ => none

def links : ResetPhase → Option (ForgotCall × String × User)
  | saving call token user => some (call, token, user)
  | mailing call token user => some (call, token, user)
  | _ => none

/-- The new password that is not stored yet, with its account. -/
def changes : ResetPhase → Option (ResetCall × Uuid)
  | changing call userId _ => some (call, userId)
  | _ => none

def uses : ResetPhase → Option String
  | changing call _ _ => some (trim call.token)
  | deleting call _ => some (trim call.token)
  | _ => none

end ResetPhase

/-! ## What a statement does -/

/-- What a statement shows: a token is drawn for the account with an address, and the password of an
account is replaced for a token. -/
inductive ResetEvent where
  | minted (token email : String) (userId : Uuid)
  | changed (token : String) (userId : Uuid)

/-- What the next statement of a handler shows. -/
def ResetPhase.observe (env : ResetEnv) : ResetPhase → ResetServer → Option ResetEvent
  | asking call, s => (accountByEmail (call.address env) s.db).bind (fun user =>
      call.drawn.toOption.map (fun token => .minted token (call.address env) user.id))
  | changing call userId _, _ => some (.changed (trim call.token) userId)
  | _, _ => none

/-- What a statement does to the tokens, the links and the mails. -/
structure ResetEffect (env : ResetEnv) (f f' : ResetPhase) (s s' : ResetServer) : Prop where
  stored : ∀ token value, s'.redis (resetKey token) = some value →
    s.redis (resetKey token) = some value ∨
      ∃ call user, f = .saving call token user ∧ f'.mints = none ∧ value = uuidString user.id
  linked : ∀ call token user, f'.links = some (call, token, user) →
    f.links = some (call, token, user) ∨
      f.observe env s = some (.minted token (call.address env) user.id)
  accepted : ∀ call userId, f'.changes = some (call, userId) →
    f = .presenting call ∧ ∃ value, s.redis (resetKey (trim call.token)) = some value ∧
      env.parseUuid value = .ok userId
  shown : ∀ token userId, f.observe env s = some (.changed token userId) →
    ∃ call, f.changes = some (call, userId) ∧ trim call.token = token
  mailed : s'.mails = s.mails ∨ ∃ call token user, f.links = some (call, token, user) ∧
    s'.mails = s.mails ++ [(call.address env, resetUrl env token)]
  mints : ∀ token, f'.mints = some token → f.mints = some token
  uses : ∀ token, f'.uses = some token →
    f.uses = some token ∨ ∃ value, s.redis (resetKey token) = some value
  changed : ∀ userId, f' = .replied (.ok (.changed userId)) →
    ∃ call, f = .deleting call userId ∧ s'.redis (resetKey (trim call.token)) = none

section
variable {env : ResetEnv} {f f' : ResetPhase} {s s' : ResetServer}

@[simp] theorem ResetServer.redis_setKey_self (s : ResetServer) (key : String)
    (value : Option String) : (s.setKey key value).redis key = value := Function.update_self _ _ _

theorem ResetServer.redis_setKey_of_ne (s : ResetServer) {key key' : String} (h : key' ≠ key)
    (value : Option String) : (s.setKey key value).redis key' = s.redis key' :=
  Function.update_of_ne h _ _

theorem RedisCommand.redis_of_arrive {c : RedisCommand} {key key' value : String}
    (h : (c.arrive key s).redis key' = some value) : s.redis key' = some value := by
  unfold arrive at h
  split at h
  · by_cases hkey : key' = key
    · subst hkey
      simp at h
    · rwa [s.redis_setKey_of_ne hkey] at h
  · exact h

theorem RedisCommand.redis_of_written {c : RedisCommand} {key key' value : String}
    {stored : Option String} (h : (c.written key stored s).redis key' = some value) :
    s.redis key' = some value ∨ (key' = key ∧ stored = some value) := by
  unfold written at h
  split at h
  · exact .inl (redis_of_arrive h)
  · by_cases hkey : key' = key
    · subst hkey
      exact .inr ⟨rfl, by simpa using h⟩
    · exact .inl (by rwa [s.redis_setKey_of_ne hkey] at h)

@[simp] theorem RedisCommand.mails_arrive (c : RedisCommand) (key : String) (s : ResetServer) :
    (c.arrive key s).mails = s.mails := by
  unfold arrive
  split <;> rfl

@[simp] theorem RedisCommand.mails_written (c : RedisCommand) (key : String)
    (value : Option String) (s : ResetServer) : (c.written key value s).mails = s.mails := by
  unfold written
  split <;> simp [ResetServer.setKey]

theorem RedisCommand.written_of_ok {c : RedisCommand} {what key : String} {value : Option String}
    {u : Unit} (h : c.result what = .ok u) : c.written key value s = s.setKey key value := by
  rw [written, RedisCommand.result_ok.mp h]

theorem resetKey_inj {token token' : String} (h : resetKey token = resetKey token') :
    token = token' := by
  simpa [resetKey] using h

/-- The account of a new password that is accepted is the one that is stored for its token. -/
theorem ResetCall.stored_of_chosen {call : ResetCall} {userId : Uuid} {hash : String}
    (h : (call.found s).bind (call.chosen env) = .ok (userId, hash)) :
    ∃ value, s.redis (resetKey (trim call.token)) = some value ∧ env.parseUuid value = .ok userId := by
  unfold found at h
  cases hresult : call.getting.result "Redis get: " with
  | error e =>
    rw [hresult] at h
    cases h
  | ok u =>
    rw [hresult] at h
    change call.chosen env ((call.getting.arrive _ s).redis _) = _ at h
    cases hvalue : (call.getting.arrive (resetKey (trim call.token)) s).redis
        (resetKey (trim call.token)) with
    | none =>
      rw [hvalue] at h
      cases h
    | some value =>
      rw [hvalue, chosen] at h
      obtain ⟨id, hparse, hhash⟩ := bind_eq_ok.mp h
      have hid : id = userId := by
        cases hpw : env.hashPassword call.salt (trim call.newPassword) with
        | error e =>
          rw [hpw] at hhash
          cases hhash
        | ok hash' =>
          rw [hpw] at hhash
          cases hhash
          rfl
      exact ⟨value, RedisCommand.redis_of_arrive hvalue, hid ▸ mapError_eq_ok.mp hparse⟩

@[simp] theorem ResetServer.mails_setDb (s : ResetServer) (d : Db) : (s.setDb d).mails = s.mails :=
  rfl

@[simp] theorem ResetServer.redis_setDb (s : ResetServer) (d : Db) : (s.setDb d).redis = s.redis :=
  rfl

namespace ResetPhase

theorem effect_asking (call : ForgotCall) : ResetEffect env (.asking call)
    (found call (accountByEmail (call.address env) s.db)) s s := by
  cases haccount : accountByEmail (call.address env) s.db with
  | none => constructor <;> simp [found, links, changes, observe, mints, uses, haccount]
  | some user =>
    cases hdrawn : call.drawn with
    | error e =>
      constructor <;>
        simp [found, links, changes, observe, mints, uses, haccount, hdrawn, Except.toOption]
    | ok token =>
      constructor <;>
        simp [found, links, changes, observe, mints, uses, haccount, hdrawn, Except.toOption]

theorem effect_saving (call : ForgotCall) (token : String) (user : User) :
    ResetEffect env (.saving call token user)
      (match call.saving.result "Redis set: " with
        | .ok _ => saved env call token user
        | .error e => replied (.error e))
      s (call.saving.written (resetKey token) (some (uuidString user.id)) s) := by
  have hstored : ∀ token' value,
      (call.saving.written (resetKey token) (some (uuidString user.id)) s).redis (resetKey token') =
          some value →
        s.redis (resetKey token') = some value ∨ (token = token' ∧ value = uuidString user.id) := by
    intro token' value h
    rcases RedisCommand.redis_of_written h with h | ⟨hkey, h⟩
    · exact .inl h
    · exact .inr ⟨(resetKey_inj hkey).symm, (Option.some.inj h).symm⟩
  cases call.saving.result "Redis set: " with
  | error e =>
    constructor <;> simp [links, changes, observe, mints, uses]
    exact hstored
  | ok u =>
    unfold saved
    by_cases hmail : env.resendConfigured
    · constructor <;> simp [hmail, links, changes, observe, mints, uses]
      exact hstored
    · constructor <;> simp [hmail, links, changes, observe, mints, uses]
      exact hstored

theorem effect_presenting (call : ResetCall) : ResetEffect env (.presenting call)
    (taken env call s) s (call.getting.arrive (resetKey (trim call.token)) s) := by
  have hstored : ∀ token value,
      (call.getting.arrive (resetKey (trim call.token)) s).redis (resetKey token) = some value →
        s.redis (resetKey token) = some value := fun _ _ h => RedisCommand.redis_of_arrive h
  unfold taken
  cases hchosen : (call.found s).bind (call.chosen env) with
  | error e =>
    constructor <;> simp [links, changes, observe, mints, uses]
    exact hstored
  | ok choice =>
    obtain ⟨value, hvalue, hparse⟩ := ResetCall.stored_of_chosen hchosen
    constructor <;> simp [links, changes, observe, mints, uses]
    · exact hstored
    · exact ⟨value, hvalue, hparse⟩
    · exact ⟨value, hvalue⟩

theorem effect_deleting (call : ResetCall) (userId : Uuid) : ResetEffect env (.deleting call userId)
    (replied ((call.deleting.result "Redis del: ").map (fun _ => .changed userId)))
    s (call.deleting.written (resetKey (trim call.token)) none s) := by
  have hstored : ∀ token value,
      (call.deleting.written (resetKey (trim call.token)) none s).redis (resetKey token) =
        some value → s.redis (resetKey token) = some value := by
    intro token value h
    rcases RedisCommand.redis_of_written h with h | ⟨-, h⟩
    · exact h
    · cases h
  cases hresult : call.deleting.result "Redis del: " with
  | error e =>
    constructor <;> simp [links, changes, observe, mints, uses, Except.map]
    exact hstored
  | ok u =>
    constructor <;> simp [links, changes, observe, mints, uses, Except.map]
    · exact hstored
    · rw [RedisCommand.written_of_ok hresult, ResetServer.redis_setKey_self]

theorem effect (hnext : f.next env s = some (f', s')) : ResetEffect env f f' s s' := by
  cases f with
  | asking call =>
    cases hnext
    exact effect_asking call
  | saving call token user =>
    cases hnext
    exact effect_saving call token user
  | mailing call token user =>
    rw [next] at hnext
    cases hmailed : call.mailed with
    | error e =>
      rw [hmailed] at hnext
      cases hnext
      constructor <;> simp [links, changes, observe, mints, uses]
    | ok u =>
      rw [hmailed] at hnext
      cases hnext
      constructor <;> simp [links, changes, observe, mints, uses]
  | presenting call =>
    rw [next] at hnext
    cases hadmitted : call.admitted with
    | error e =>
      rw [hadmitted] at hnext
      cases hnext
    | ok u =>
      rw [hadmitted] at hnext
      cases hnext
      exact effect_presenting call
  | changing call userId hash =>
    cases hnext
    constructor <;> simp [links, changes, observe, mints, uses]
  | deleting call userId =>
    cases hnext
    exact effect_deleting call userId
  | other stmt =>
    cases hnext
    constructor <;> simp [links, changes, observe, mints, uses]
    · exact stmt.keeps s
    · exact stmt.mails s
  | replied reply => cases hnext

end ResetPhase
end

/-! ## Runs -/

/-- A request for a link, a new password, or a statement of another handler. -/
inductive ResetParty where
  | asks (call : ForgotCall)
  | resets (call : ResetCall)
  | others (stmt : TokenlessStmt)

def ResetParty.start : ResetParty → ResetPhase
  | asks call => .asking call
  | resets call => .presenting call
  | others stmt => .other stmt

section
variable {ι : Type} {env : ResetEnv}

def Minted (env : ResetEnv) (events : List ResetEvent) (token : String) (userId : Uuid) : Prop :=
  ∃ email id, .minted token email id ∈ events ∧ env.parseUuid (uuidString id) = .ok userId

def Authorized (env : ResetEnv) (events : List ResetEvent) : Prop :=
  ∀ before token userId after, events = before ++ .changed token userId :: after →
    Minted env before token userId

/-- What holds of the tokens in Redis, of the links and of the mails. -/
structure ResetInv (env : ResetEnv) (mails : List (String × String))
    (s : Sys ι ResetServer ResetPhase) (events : List ResetEvent) : Prop where
  stored : ∀ token value, s.db.redis (resetKey token) = some value →
    ∃ email id, .minted token email id ∈ events ∧ value = uuidString id
  linked : ∀ i call token user, (s.rest i).links = some (call, token, user) →
    .minted token (call.address env) user.id ∈ events
  accepted : ∀ i call userId, (s.rest i).changes = some (call, userId) →
    Minted env events (trim call.token) userId
  authorized : Authorized env events
  mailed : ∃ sent, s.db.mails = mails ++ sent ∧ ∀ mail ∈ sent, ∃ token userId,
    .minted token mail.1 userId ∈ events ∧ mail.2 = resetUrl env token

theorem Minted.append {events : List ResetEvent} {token : String} {userId : Uuid}
    (h : Minted env events token userId) (events' : List ResetEvent) :
    Minted env (events ++ events') token userId := by
  obtain ⟨email, id, hmem, hparse⟩ := h
  exact ⟨email, id, List.mem_append_left _ hmem, hparse⟩

theorem Authorized.append {events : List ResetEvent} (h : Authorized env events)
    {event : Option ResetEvent}
    (hevent : ∀ token userId, event = some (.changed token userId) →
      Minted env events token userId) : Authorized env (events ++ event.toList) := by
  cases event with
  | none => simpa using h
  | some event =>
    intro before token userId after heq
    rcases List.eq_nil_or_concat after with rfl | ⟨after', last, rfl⟩
    · obtain ⟨rfl, hlast⟩ := List.append_inj' heq rfl
      exact hevent token userId (by simpa using hlast)
    · have heq' : events ++ [event] = (before ++ .changed token userId :: after') ++ [last] := by
        simpa using heq
      exact h before token userId after' (List.append_inj' heq' rfl).1

/-- However the statements are interleaved, the invariant holds. -/
theorem ResetInv.step [DecidableEq ι] {mails : List (String × String)}
    {s s' : Sys ι ResetServer ResetPhase} {i : ι} {events : List ResetEvent}
    (h : ResetInv env mails s events)
    (hstep : Autocommit.step (ResetPhase.next env) s i = some s') :
    ResetInv env mails s' (events ++ ((s.rest i).observe env s.db).toList) := by
  obtain ⟨hnext, hothers⟩ := rest_of_step hstep
  have heffect := ResetPhase.effect hnext
  have hold : ∀ {event}, event ∈ events → event ∈ events ++ ((s.rest i).observe env s.db).toList :=
    fun h => List.mem_append_left _ h
  constructor
  · intro token value hvalue
    rcases heffect.stored token value hvalue with hs | ⟨call, user, hphase, -, rfl⟩
    · obtain ⟨email, id, hmem, heq⟩ := h.stored token value hs
      exact ⟨email, id, hold hmem, heq⟩
    · exact ⟨_, _, hold (h.linked i call token user (by rw [hphase]; rfl)), rfl⟩
  · intro j call token user hlinks
    by_cases hj : j = i
    · subst hj
      rcases heffect.linked call token user hlinks with hs | hminted
      · exact hold (h.linked j call token user hs)
      · rw [hminted]
        simp
    · rw [hothers j hj] at hlinks
      exact hold (h.linked j call token user hlinks)
  · intro j call userId hchanges
    by_cases hj : j = i
    · subst hj
      obtain ⟨-, value, hvalue, hparse⟩ := heffect.accepted call userId hchanges
      obtain ⟨email, id, hmem, rfl⟩ := h.stored _ _ hvalue
      exact ⟨email, id, hold hmem, hparse⟩
    · rw [hothers j hj] at hchanges
      exact (h.accepted j call userId hchanges).append _
  · refine h.authorized.append ?_
    intro token userId hshown
    obtain ⟨call, hchanges, rfl⟩ := heffect.shown token userId hshown
    exact h.accepted i call userId hchanges
  · obtain ⟨sent, hsent, hall⟩ := h.mailed
    have hall' : ∀ mail ∈ sent, ∃ token userId,
        ResetEvent.minted token mail.1 userId ∈ events ++ ((s.rest i).observe env s.db).toList ∧
          mail.2 = resetUrl env token := by
      intro mail hmail
      obtain ⟨token, userId, hmem, hurl⟩ := hall mail hmail
      exact ⟨token, userId, hold hmem, hurl⟩
    rcases heffect.mailed with hs | ⟨call, token, user, hlinks, hs⟩
    · exact ⟨sent, hs.trans hsent, hall'⟩
    · refine ⟨sent ++ [(call.address env, resetUrl env token)], by rw [hs, hsent]; simp, ?_⟩
      intro mail hmail
      rcases List.mem_append.mp hmail with hmail | hmail
      · exact hall' mail hmail
      · rw [List.mem_singleton.mp hmail]
        exact ⟨token, user.id, hold (h.linked i call token user hlinks), rfl⟩

/-- The handlers before their first statement. -/
def resetHandlers (server : ResetServer) (parties : ι → ResetParty) :
    Sys ι ResetServer ResetPhase := ⟨server, fun i => (parties i).start⟩

theorem ResetInv.start {server : ResetServer} (hempty : ∀ token, server.redis (resetKey token) = none)
    (parties : ι → ResetParty) :
    ResetInv env server.mails (resetHandlers server parties) [] := by
  have hstart : ∀ p : ResetParty, p.start.links = none ∧ p.start.changes = none := by
    intro p
    cases p <;> exact ⟨rfl, rfl⟩
  constructor
  · intro token value hvalue
    cases (hempty token).symm.trans hvalue
  · intro i call token user hlinks
    cases (hstart (parties i)).1.symm.trans hlinks
  · intro i call userId hchanges
    cases (hstart (parties i)).2.symm.trans hchanges
  · intro before token userId after heq
    simp at heq
  · exact ⟨[], by simp [resetHandlers], by simp⟩

/-- An identifier of 128 bits that is written and read again is the same. -/
def UuidRoundTrip (env : ResetEnv) : Prop :=
  ∀ id id', id < 2 ^ 128 → env.parseUuid (uuidString id) = .ok id' → id' = id

/-- Every password that is replaced is the one of the account for which the token was drawn before,
whose identifier has 128 bits. -/
def AuthorizedAccounts (events : List ResetEvent) : Prop :=
  ∀ before token userId after, events = before ++ .changed token userId :: after →
    ∃ email id, .minted token email id ∈ before ∧ (id < 2 ^ 128 → userId = id)

theorem Authorized.accounts {events : List ResetEvent} (h : Authorized env events)
    (hread : UuidRoundTrip env) : AuthorizedAccounts events := by
  intro before token userId after heq
  obtain ⟨email, id, hmem, hparse⟩ := h before token userId after heq
  exact ⟨email, id, hmem, fun hid => hread id userId hid hparse⟩

/-- A password is replaced only for an account that was found by the address for which the token was
drawn, and the link with a token is mailed only to that address. -/
theorem reset_password_authorized [DecidableEq ι] (env : ResetEnv) (hread : UuidRoundTrip env)
    (server : ResetServer) (hempty : ∀ token, server.redis (resetKey token) = none) (parties : ι → ResetParty)
    (is : List ι) (s : Sys ι ResetServer ResetPhase)
    (hrun : run (ResetPhase.next env) (resetHandlers server parties) is = some s) :
    AuthorizedAccounts (trace (ResetPhase.next env) (ResetPhase.observe env)
      (resetHandlers server parties) is) ∧
    ∃ sent, s.db.mails = server.mails ++ sent ∧ ∀ mail ∈ sent, ∃ token userId,
      .minted token mail.1 userId ∈ trace (ResetPhase.next env) (ResetPhase.observe env)
        (resetHandlers server parties) is ∧ mail.2 = resetUrl env token := by
  have hinv : ResetInv env server.mails s ([] ++ trace (ResetPhase.next env)
      (ResetPhase.observe env) (resetHandlers server parties) is) :=
    run_induction (C := fun _ _ => True) (fun _ _ _ _ _ h hstep => h.step hstep)
      (ResetInv.start hempty parties) (along_of_forall (fun _ _ => trivial) _ _) hrun
  exact ⟨hinv.authorized.accounts hread, hinv.mailed⟩

/-! ## Tokens that are used up -/

def ResetPhase.resetCall : ResetPhase → Option ResetCall
  | presenting call => some call
  | changing call _ _ => some call
  | deleting call _ => some call
  | _ => none

def TokenSpent (s : Sys ι ResetServer ResetPhase) (token : String) : Prop :=
  s.db.redis (resetKey token) = none ∧ ∀ i, (s.rest i).mints ≠ some token

/-- A token that is stored, or that was accepted, is not going to be stored again; and one that was
used up is spent. -/
structure OnceInv (parties : ι → ResetParty) (s : Sys ι ResetServer ResetPhase) : Prop where
  minted : ∀ i token, (s.rest i).mints = some token →
    ∃ call, parties i = .asks call ∧ call.token = .ok token
  party : ∀ i call, (s.rest i).resetCall = some call → parties i = .resets call
  stored : ∀ token value, s.db.redis (resetKey token) = some value →
    ∀ i, (s.rest i).mints ≠ some token
  used : ∀ i token, (s.rest i).uses = some token → ∀ j, (s.rest j).mints ≠ some token
  spent : ∀ i call userId, parties i = .resets call →
    s.rest i = .replied (.ok (.changed userId)) → TokenSpent s (trim call.token)

/-- No two requests draw the same token. -/
def DistinctTokens (parties : ι → ResetParty) : Prop :=
  ∀ i j call call' token, parties i = .asks call → parties j = .asks call' →
    call.token = .ok token → call'.token = .ok token → i = j

theorem OnceInv.start {server : ResetServer} (hempty : ∀ token, server.redis (resetKey token) = none)
    (parties : ι → ResetParty) : OnceInv parties (resetHandlers server parties) := by
  have huses : ∀ p : ResetParty, p.start.uses = none := by
    intro p
    cases p <;> rfl
  constructor
  · intro i token hmints
    change (parties i).start.mints = some token at hmints
    cases hparty : parties i with
    | asks call =>
      rw [hparty] at hmints
      refine ⟨call, rfl, ?_⟩
      cases htoken : call.token with
      | error e => simp [ResetParty.start, ResetPhase.mints, ForgotCall.drawn, htoken, Except.bind,
          Except.toOption] at hmints
      | ok token' =>
        cases hconnected : call.connected <;>
          simp [ResetParty.start, ResetPhase.mints, ForgotCall.drawn, htoken, hconnected, Except.bind,
            Except.mapError, Except.map, Except.toOption] at hmints
        rw [hmints]
    | resets call =>
      rw [hparty] at hmints
      cases hmints
    | others stmt =>
      rw [hparty] at hmints
      cases hmints
  · intro i call hcall
    change (parties i).start.resetCall = some call at hcall
    cases hparty : parties i with
    | resets call' =>
      rw [hparty] at hcall
      cases hcall
      rfl
    | asks call' =>
      rw [hparty] at hcall
      cases hcall
    | others stmt =>
      rw [hparty] at hcall
      cases hcall
  · intro token value hvalue
    cases (hempty token).symm.trans hvalue
  · intro i token h
    cases (huses (parties i)).symm.trans h
  · intro i call userId hparty hreplied
    change (parties i).start = _ at hreplied
    rw [hparty] at hreplied
    cases hreplied

theorem TokenSpent.taken {s : Sys ι ResetServer ResetPhase} {call : ResetCall}
    (h : TokenSpent s (trim call.token)) :
    ∃ e, ResetPhase.taken env call s.db = .replied (.error e) := by
  unfold ResetPhase.taken ResetCall.found
  cases call.getting.result "Redis get: " with
  | error e => exact ⟨e, rfl⟩
  | ok u =>
    have hnone : (call.getting.arrive (resetKey (trim call.token)) s.db).redis
        (resetKey (trim call.token)) = none := by
      refine Option.eq_none_iff_forall_ne_some.mpr (fun value hvalue => ?_)
      have hstored := RedisCommand.redis_of_arrive hvalue
      rw [h.1] at hstored
      cases hstored
    refine ⟨.badRequest "Invalid or expired token", ?_⟩
    simp [Except.map, Except.bind, ResetCall.chosen, hnone]

section
variable [DecidableEq ι] {parties : ι → ResetParty} {s s' : Sys ι ResetServer ResetPhase} {i : ι}

theorem mints_of_step (hstep : Autocommit.step (ResetPhase.next env) s i = some s') {j : ι}
    {token : String} (h : (s'.rest j).mints = some token) : (s.rest j).mints = some token := by
  obtain ⟨hnext, hothers⟩ := rest_of_step hstep
  by_cases hj : j = i
  · subst hj
    exact (ResetPhase.effect hnext).mints token h
  · rwa [hothers j hj] at h

theorem TokenSpent.step (hstep : Autocommit.step (ResetPhase.next env) s i = some s') {token : String}
    (h : TokenSpent s token) : TokenSpent s' token := by
  refine ⟨Option.eq_none_iff_forall_ne_some.mpr ?_, fun j hj => h.2 j (mints_of_step hstep hj)⟩
  intro value hvalue
  rcases (ResetPhase.effect (rest_of_step hstep).1).stored token value hvalue with
    hs | ⟨call, user, hphase, -, -⟩
  · rw [h.1] at hs
    cases hs
  · exact h.2 i (by rw [hphase]; rfl)

theorem ResetPhase.resetCall_next {f f' : ResetPhase} {d d' : ResetServer} {call : ResetCall}
    (hnext : f.next env d = some (f', d')) (h : f'.resetCall = some call) :
    f.resetCall = some call := by
  cases f with
  | asking call' =>
    cases hnext
    unfold found at h
    split at h
    · cases h
    · split at h <;> cases h
  | saving call' token user =>
    cases hnext
    unfold saved at h
    split at h
    · split at h <;> cases h
    · cases h
  | mailing call' token user =>
    rw [next] at hnext
    split at hnext <;> cases hnext <;> cases h
  | presenting call' =>
    rw [next] at hnext
    split at hnext
    · cases hnext
      unfold taken at h
      split at h
      · cases h
      · exact h
    · cases hnext
  | changing call' userId hash =>
    cases hnext
    exact h
  | deleting call' userId =>
    cases hnext
    cases h
  | other stmt =>
    cases hnext
    cases h
  | replied reply => cases hnext

theorem OnceInv.step (hdistinct : DistinctTokens parties) (h : OnceInv parties s)
    (hstep : Autocommit.step (ResetPhase.next env) s i = some s') : OnceInv parties s' := by
  obtain ⟨hnext, hothers⟩ := rest_of_step hstep
  have heffect := ResetPhase.effect hnext
  constructor
  · exact fun j token hmints => h.minted j token (mints_of_step hstep hmints)
  · intro j call hcall
    by_cases hj : j = i
    · subst hj
      exact h.party j call (ResetPhase.resetCall_next hnext hcall)
    · rw [hothers j hj] at hcall
      exact h.party j call hcall
  · intro token value hvalue j hmints
    rcases heffect.stored token value hvalue with hs | ⟨call, user, hphase, hleft, -⟩
    · exact h.stored token value hs j (mints_of_step hstep hmints)
    · have hj : j ≠ i := by
        rintro rfl
        rw [hleft] at hmints
        cases hmints
      obtain ⟨call₁, hparty₁, htoken₁⟩ := h.minted j token (mints_of_step hstep hmints)
      obtain ⟨call₂, hparty₂, htoken₂⟩ := h.minted i token (by rw [hphase]; rfl)
      exact hj (hdistinct j i call₁ call₂ token hparty₁ hparty₂ htoken₁ htoken₂)
  · intro j token huses k hmints
    have hbefore := mints_of_step hstep hmints
    by_cases hj : j = i
    · subst hj
      rcases heffect.uses token huses with hs | ⟨value, hvalue⟩
      · exact h.used j token hs k hbefore
      · exact h.stored token value hvalue k hbefore
    · rw [hothers j hj] at huses
      exact h.used j token huses k hbefore
  · intro j call userId hparty hreplied
    by_cases hj : j = i
    · subst hj
      obtain ⟨call', hphase, hnone⟩ := heffect.changed userId hreplied
      have hcall := h.party j call' (by rw [hphase]; rfl)
      rw [hparty] at hcall
      cases hcall
      exact ⟨hnone, fun k hmints =>
        h.used j (trim call.token) (by rw [hphase]; rfl) k (mints_of_step hstep hmints)⟩
    · rw [hothers j hj] at hreplied
      exact (h.spent j call userId hparty hreplied).step hstep

def Refused (call : ResetCall) (f : ResetPhase) : Prop :=
  f = .presenting call ∨ ∃ e, f = .replied (.error e)

theorem Refused.step {call : ResetCall} {j : ι} (hspent : TokenSpent s (trim call.token))
    (h : Refused call (s.rest j)) (hstep : Autocommit.step (ResetPhase.next env) s i = some s') :
    Refused call (s'.rest j) := by
  obtain ⟨hnext, hothers⟩ := rest_of_step hstep
  by_cases hj : j = i
  · subst hj
    rcases h with h | ⟨e, h⟩
    · rw [h, ResetPhase.next] at hnext
      split at hnext
      · obtain ⟨hphase, -⟩ := Prod.mk.inj (Option.some.inj hnext)
        rw [← hphase]
        exact .inr hspent.taken
      · cases hnext
    · rw [h] at hnext
      cases hnext
  · rwa [hothers j hj]

end

/-- A new password that is asked for after its token was used up is refused, whatever happens in
between. -/
theorem reset_token_single_use [DecidableEq ι] (env : ResetEnv) (server : ResetServer)
    (hempty : ∀ token, server.redis (resetKey token) = none) (parties : ι → ResetParty)
    (hdistinct : DistinctTokens parties) (is js : List ι) (s s' : Sys ι ResetServer ResetPhase)
    (hrun : run (ResetPhase.next env) (resetHandlers server parties) is = some s)
    (hrest : run (ResetPhase.next env) s js = some s') {i j : ι} {call call' : ResetCall}
    {userId : Uuid} (hi : parties i = .resets call)
    (hover : s.rest i = .replied (.ok (.changed userId)))
    (hj : s.rest j = .presenting call') (htoken : trim call'.token = trim call.token) :
    s'.rest j = .presenting call' ∨ ∃ e, s'.rest j = .replied (.error e) := by
  have hinv : OnceInv parties s := run_invariant (C := fun _ _ => True)
    (fun _ _ _ _ h hstep => h.step hdistinct hstep) (OnceInv.start hempty parties)
    (along_of_forall (fun _ _ => trivial) _ _) hrun
  have hspent : TokenSpent s (trim call'.token) := by
    rw [htoken]
    exact hinv.spent i call userId hi hover
  have hend : TokenSpent s' (trim call'.token) ∧ Refused call' (s'.rest j) :=
    run_invariant (C := fun _ _ => True)
      (P := fun s => TokenSpent s (trim call'.token) ∧ Refused call' (s.rest j))
      (fun _ _ _ _ h hstep => ⟨h.1.step hstep, h.2.step h.1 hstep⟩) ⟨hspent, .inl hj⟩
      (along_of_forall (fun _ _ => trivial) _ _) hrest
  exact hend.2

end

/-! ## Alice's links -/

/-- The server after the registration, with nothing in Redis. -/
def registeredAlice : ResetServer :=
  { resetServer "alice@example.org" with redis := fun _ => none }

/-- Alice asks for a link, and presents its token twice. -/
def askedOnce : Fin 3 → ResetParty
  | 0 => .asks ⟨" Alice@Example.org", .ok "77aa", .ok (), ⟨false, .answered⟩, .ok ()⟩
  | 1 => .resets ⟨"77aa", "battery staple", .ok (), ⟨false, .answered⟩, "vutsrqponmlkjihgfedcbO",
      ⟨false, .answered⟩⟩
  | 2 => .resets ⟨" 77aa", "correct horse", .ok (), ⟨false, .answered⟩, "abcdefghijklmnopqrstuu",
      ⟨false, .answered⟩⟩

theorem distinctTokens_askedOnce : DistinctTokens askedOnce := by
  intro i j call call' token hi hj _ _
  have hfirst : ∀ k call, askedOnce k = .asks call → k = 0 := by
    intro k call hk
    fin_cases k
    · rfl
    · cases hk
    · cases hk
  rw [hfirst i call hi, hfirst j call' hj]

def afterReset : Option (Sys (Fin 3) ResetServer ResetPhase) :=
  run (ResetPhase.next sampleResetEnv) (resetHandlers registeredAlice askedOnce) [0, 0, 0, 1, 1, 1]

theorem afterReset_isSome : afterReset.isSome := by decide +kernel

theorem replied_afterReset : (afterReset.get afterReset_isSome).rest 1 =
    .replied (.ok (.changed 1)) := rfl

theorem uuidRoundTrip_sample : UuidRoundTrip sampleResetEnv := by
  intro id id' hid h
  simp only [sampleResetEnv, sampleAuthEnv] at h
  split at h
  · rename_i heq
    cases h
    exact (uuidString_inj hid (by decide) heq).symm
  · cases h

/-- The password is replaced for a token that was drawn for Alice's address. -/
theorem reset_password_authorized_alice :
    ∃ s, afterReset = some s ∧ s.rest 1 = .replied (.ok (.changed 1)) ∧
      AuthorizedAccounts (trace (ResetPhase.next sampleResetEnv)
        (ResetPhase.observe sampleResetEnv) (resetHandlers registeredAlice askedOnce)
        [0, 0, 0, 1, 1, 1]) :=
  ⟨_, (Option.some_get afterReset_isSome).symm, replied_afterReset,
    (reset_password_authorized sampleResetEnv uuidRoundTrip_sample registeredAlice (fun _ => rfl)
      askedOnce _ _ (Option.some_get afterReset_isSome).symm).1⟩

/-- The second new password is refused. -/
theorem reset_token_single_use_alice :
    ∃ s s', afterReset = some s ∧ run (ResetPhase.next sampleResetEnv) s [2] = some s' ∧
      (s'.rest 2 = (askedOnce 2).start ∨ ∃ e, s'.rest 2 = .replied (.error e)) :=
  ⟨_, _, (Option.some_get afterReset_isSome).symm, rfl,
    reset_token_single_use sampleResetEnv registeredAlice (fun _ => rfl) askedOnce
      distinctTokens_askedOnce _ [2] _ _ (Option.some_get afterReset_isSome).symm rfl
      (i := 1) (j := 2) rfl replied_afterReset rfl (by decide)⟩

end SyncServer.Auth
