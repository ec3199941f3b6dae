import SyncServer.Schema
import SyncServer.Transaction.Autocommit

/-! # Refresh tokens

The handlers of `/auth/refresh` and `/auth/logout`, whose statements are not in a
transaction. A token is consumed by marking it revoked and exchanged by minting a
successor in its family; a replay and a logout revoke the family.
-/

namespace SyncServer.Auth
open Transaction

/-- The functions and settings behind the tokens: SHA-256 in hexadecimal, the encoding of
access tokens for a user, a role and two timestamps, and the two lifetimes in seconds. -/
structure TokenEnv where
  hashToken : String → String
  issueAccessToken : Uuid → String → Int → Int → Except String String
  jwtAccessExpirySecs : Int
  jwtRefreshExpirySecs : Int

structure TokenResponse where
  accessToken : String
  refreshToken : String
  expiresIn : Int
deriving DecidableEq, Repr

/-- The clock when a pair of tokens is made, and its random values. -/
structure Minting where
  mintedAt : Int
  newId : Uuid
  newRefreshToken : String
deriving DecidableEq, Repr

/-- A call of `refresh`: the token presented, the clock when its expiry is checked, and the
new pair. -/
structure RefreshCall extends Minting where
  refreshToken : String
  now : Int
deriving DecidableEq, Repr

def tokenByHash (hash : String) (s : Db) : Option RefreshToken :=
  s.refreshTokens.rows.find? (fun r => r.tokenHash = hash)

def revoked (r : RefreshToken) : RefreshToken := { r with revoked := true }

def revokeIf (p : RefreshToken → Prop) [DecidablePred p] (r : RefreshToken) : RefreshToken :=
  if p r then revoked r else r

theorem revokeIf_id (p : RefreshToken → Prop) [DecidablePred p] (r : RefreshToken) :
    (revokeIf p r).id = r.id := by
  unfold revokeIf
  split <;> rfl

/-- `UPDATE refresh_tokens SET revoked = true WHERE ..`. -/
def revokeWhere (p : RefreshToken → Prop) [DecidablePred p] (s : Db) : Db :=
  { s with refreshTokens := s.refreshTokens.map (revokeIf p) (revokeIf_id p) }

def revokeFamily (family : Uuid) : Query Unit :=
  Query.exec (fun _ => []) (fun s => .ok ((), revokeWhere (fun r => r.family = family) s))

def revokeToken (id : Uuid) : Query Unit :=
  Query.exec (fun _ => []) (fun s => .ok ((), revokeWhere (fun r => r.id = id) s))

def addToken (row : RefreshToken) (s : Db) : Except DbError (Unit × Db) :=
  match s.refreshTokens.insert row with
  | none => .error .uniqueViolation
  | some t =>
    if (tokenByHash row.tokenHash s).isSome then .error .uniqueViolation
    else if s.userExists row.userId then .ok ((), { s with refreshTokens := t })
    else .error .foreignKeyViolation

def insertToken (row : RefreshToken) : Query Unit := Query.exec (fun _ => []) (addToken row)

/-- The row that `mint_tokens` stores. -/
def mintedToken (env : TokenEnv) (userId family : Uuid) (mint : Minting) : RefreshToken where
  id := mint.newId
  userId := userId
  tokenHash := env.hashToken mint.newRefreshToken
  family := family
  revoked := false
  expiresAt := mint.mintedAt + env.jwtRefreshExpirySecs * 1000000

/-- The access token that `mint_tokens` issues. -/
def accessTokenFor (env : TokenEnv) (userId : Uuid) (role : String) (mint : Minting) :
    Except AppError String :=
  let iat := mint.mintedAt / 1000000
  (env.issueAccessToken userId role iat (iat + env.jwtAccessExpirySecs)).mapError .internal

/-- `mint_tokens`. -/
def mintTokens (env : TokenEnv) (userId : Uuid) (role : String) (family : Uuid)
    (mint : Minting) : Query TokenResponse := do
  let accessToken ← Tx.done (accessTokenFor env userId role mint)
  insertToken (mintedToken env userId family mint)
  pure ⟨accessToken, mint.newRefreshToken, env.jwtAccessExpirySecs⟩

theorem keeps_mintTokens {τ : Type} {π : Db → τ} (hπ : ∀ d t, π { d with refreshTokens := t } = π d)
    (env : TokenEnv) (userId : Uuid) (role : String) (family : Uuid) (mint : Minting) :
    (mintTokens env userId role family mint).Keeps π := by
  refine Tx.keeps_bind trivial (fun accessToken => Tx.keeps_bind ?_ (fun _ => Tx.keeps_pure _ _))
  refine Query.keeps_exec (fun d a d' h => ?_)
  unfold addToken at h
  split at h
  · cases h
  split at h
  · cases h
  split at h
  · cases h
    exact hπ d _
  · cases h

/-- `refresh`. -/
def refresh (env : TokenEnv) (call : RefreshCall) : Query TokenResponse := do
  let found ← Tx.query (tokenByHash (env.hashToken call.refreshToken))
  let stored ← Tx.okOr .unauthorized found
  if stored.revoked then do
    revokeFamily stored.family
    throw .unauthorized
  else if stored.expiresAt < call.now then throw .unauthorized
  else do
    revokeToken stored.id
    let found ← Tx.query (fun s => s.users.get stored.userId)
    let user ← Tx.okOr .unauthorized found
    mintTokens env user.id user.role stored.family call.toMinting

/-- `logout`. -/
def logout (env : TokenEnv) (refreshToken : String) : Query Unit := do
  let found ← Tx.query (tokenByHash (env.hashToken refreshToken))
  match found with
  | some stored => revokeFamily stored.family
  | none => pure ()

theorem keeps_refresh {τ : Type} {π : Db → τ} (hπ : ∀ d t, π { d with refreshTokens := t } = π d)
    (env : TokenEnv) (call : RefreshCall) : (refresh env call).Keeps π := by
  apply Tx.keeps_bind (Tx.keeps_query _ _)
  intro found
  apply Tx.keeps_bind (Tx.keeps_okOr _ _ found)
  intro stored
  split
  · exact Tx.keeps_bind (Tx.writes_exec (fun d => hπ d _) _) (fun _ => Tx.keeps_throw _ _)
  split
  · trivial
  apply Tx.keeps_bind (Tx.writes_exec (fun d => hπ d _) _)
  intro _
  apply Tx.keeps_bind (Tx.keeps_query _ _)
  intro found
  exact Tx.keeps_bind (Tx.keeps_okOr _ _ found) (fun user => keeps_mintTokens hπ _ _ _ _ _)

/-! ## Phases -/

inductive Request where
  | refresh (call : RefreshCall)
  | logout (refreshToken : String)
deriving DecidableEq, Repr

/-- The handler of a request; a logout has no tokens to answer with. -/
def Request.program (env : TokenEnv) : Request → Query (Option TokenResponse)
  | refresh call => do
    let tokens ← Auth.refresh env call
    pure (some tokens)
  | logout refreshToken => do
    Auth.logout env refreshToken
    pure none

/-- Where a handler is: each phase but the last is about to execute one statement. -/
inductive Phase where
  | lookup (request : Request)
  | revokeReplayed (stored : RefreshToken)
  | consume (call : RefreshCall) (stored : RefreshToken)
  | findUser (call : RefreshCall) (stored : RefreshToken)
  | mint (call : RefreshCall) (stored : RefreshToken) (user : User) (accessToken : String)
  | revokeLoggedOut (stored : RefreshToken)
  | done (result : Except AppError (Option TokenResponse))

/-- What is left of the handler in a phase. -/
def Phase.program (env : TokenEnv) : Phase → Query (Option TokenResponse)
  | lookup request => request.program env
  | revokeReplayed stored => do
    revokeFamily stored.family
    throw .unauthorized
  | consume call stored => do
    revokeToken stored.id
    let found ← Tx.query (fun s => s.users.get stored.userId)
    let user ← Tx.okOr .unauthorized found
    let tokens ← mintTokens env user.id user.role stored.family call.toMinting
    pure (some tokens)
  | findUser call stored => do
    let found ← Tx.query (fun s => s.users.get stored.userId)
    let user ← Tx.okOr .unauthorized found
    let tokens ← mintTokens env user.id user.role stored.family call.toMinting
    pure (some tokens)
  | mint call stored user accessToken => do
    insertToken (mintedToken env user.id stored.family call.toMinting)
    pure (some ⟨accessToken, call.newRefreshToken, env.jwtAccessExpirySecs⟩)
  | revokeLoggedOut stored => do
    revokeFamily stored.family
    pure none
  | done result => .done result

def Request.found : Request → Option RefreshToken → Phase
  | refresh _, none => .done (.error .unauthorized)
  | refresh call, some stored =>
    if stored.revoked then .revokeReplayed stored
    else if stored.expiresAt < call.now then .done (.error .unauthorized)
    else .consume call stored
  | logout _, none => .done (.ok none)
  | logout _, some stored => .revokeLoggedOut stored

/-- The hash that a request looks up. -/
def Request.hash (env : TokenEnv) : Request → String
  | refresh call => env.hashToken call.refreshToken
  | logout refreshToken => env.hashToken refreshToken

def foundUser (env : TokenEnv) (call : RefreshCall) (stored : RefreshToken) :
    Option User → Phase
  | none => .done (.error .unauthorized)
  | some user =>
    match accessTokenFor env user.id user.role call.toMinting with
    | .error e => .done (.error e)
    | .ok accessToken => .mint call stored user accessToken

/-- One statement of a handler. -/
def Phase.next (env : TokenEnv) : Phase → Db → Option (Phase × Db)
  | lookup request, s => some (request.found (tokenByHash (request.hash env) s), s)
  | revokeReplayed stored, s =>
    some (.done (.error .unauthorized), revokeWhere (fun r => r.family = stored.family) s)
  | consume call stored, s => some (.findUser call stored, revokeWhere (fun r => r.id = stored.id) s)
  | findUser call stored, s => some (foundUser env call stored (s.users.get stored.userId), s)
  | mint call stored user accessToken, s =>
    match addToken (mintedToken env user.id stored.family call.toMinting) s with
    | .error e => some (.done (.error (.database e)), s)
    | .ok (_, s') => some (.done (.ok (some
        ⟨accessToken, call.newRefreshToken, env.jwtAccessExpirySecs⟩)), s')
  | revokeLoggedOut stored, s =>
    some (.done (.ok none), revokeWhere (fun r => r.family = stored.family) s)
  | done _, _ => none

/-- What `refresh` does after its lookup. -/
theorem program_found_refresh (env : TokenEnv) (call : RefreshCall) (o : Option RefreshToken) :
    ((do
      let stored ← Tx.okOr .unauthorized o
      if stored.revoked then do
        revokeFamily stored.family
        throw .unauthorized
      else if stored.expiresAt < call.now then throw .unauthorized
      else do
        revokeToken stored.id
        let found ← Tx.query (fun s => s.users.get stored.userId)
        let user ← Tx.okOr .unauthorized found
        mintTokens env user.id user.role stored.family call.toMinting : Query TokenResponse) >>=
          fun tokens => (pure (some tokens) : Query (Option TokenResponse))) =
      ((Request.refresh call).found o).program env := by
  cases o with
  | none => rfl
  | some stored =>
    simp only [Request.found]
    change (if stored.revoked = true then _ else _) >>= _ = _
    split
    · rw [Tx.bind_assoc]
      rfl
    split
    · rfl
    · simp only [Tx.bind_assoc]
      rfl

theorem program_foundUser (env : TokenEnv) (call : RefreshCall) (stored : RefreshToken)
    (o : Option User) :
    (Tx.okOr .unauthorized o >>= fun user => do
      let tokens ← mintTokens env user.id user.role stored.family call.toMinting
      (pure (some tokens) : Query (Option TokenResponse))) =
      (foundUser env call stored o).program env := by
  cases o with
  | none => rfl
  | some user =>
    change mintTokens env user.id user.role stored.family call.toMinting >>= _ = _
    rw [mintTokens, foundUser]
    cases accessTokenFor env user.id user.role call.toMinting with
    | error e => rfl
    | ok accessToken =>
      change (insertToken _ >>= _) >>= _ = _
      rw [Tx.bind_assoc]
      rfl

theorem step_program (env : TokenEnv) (f : Phase) (s : Db) :
    (f.program env).step s = (f.next env s).map (Prod.map (Phase.program env) id) := by
  cases f with
  | lookup request =>
    cases request with
    | refresh call =>
      exact congrArg (fun t => some (t, s)) (program_found_refresh env call _)
    | logout refreshToken =>
      have h : ∀ o, ((match o with
          | some stored => revokeFamily stored.family
          | none => pure () : Query Unit) >>= fun _ => (pure none : Query (Option TokenResponse))) =
          ((Request.logout refreshToken).found o).program env := by
        intro o
        cases o <;> rfl
      exact congrArg (fun t => some (t, s)) (h _)
  | revokeReplayed stored => rfl
  | consume call stored => rfl
  | findUser call stored => exact congrArg (fun t => some (t, s)) (program_foundUser env call stored _)
  | mint call stored user accessToken =>
    rcases h : addToken (mintedToken env user.id stored.family call.toMinting) s with e | ⟨x, s'⟩
    all_goals
      simp only [Phase.next, h]
      change some (Tx.bind (Tx.done (Tx.outcome _ s)) _, Tx.effect _ s) = _
      simp only [Tx.outcome, Tx.effect, h]
      rfl
  | revokeLoggedOut stored => rfl
  | done result => rfl

def phases (env : TokenEnv) : Phases Phase Db RowLock AppError (Option TokenResponse) :=
  ⟨Phase.program env, Phase.next env, step_program env⟩

end SyncServer.Auth
