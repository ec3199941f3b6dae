import SyncServer.Accounts.Handlers

/-! # Who a request comes from

The extractors of a request's account: a JSON Web Token in the `Authorization` header for
every route, an agent token also for the routes of administrators, and a token in the query
of a WebSocket handshake.
-/

namespace SyncServer.Auth
open Transaction Accounts

/-- The payload of an access token. -/
structure Claims where
  sub : String
  role : String
  iat : Int
  exp : Int
deriving DecidableEq, Repr

/-- `Claims::new`. -/
def Claims.new (userId : Uuid) (role : String) (iat exp : Int) : Claims :=
  ⟨uuidString userId, role, iat, exp⟩

/-- The libraries of the extractors and of the logins. `verifyAccessToken` decodes a token
that is valid at the given time. -/
structure AuthEnv extends AccountEnv where
  verifyAccessToken : String → Int → Option Claims
  parseUuid : String → Except String Uuid
  verifyPassword : String → String → Except String Bool

/-- `Claims::user_id`. -/
def Claims.userId (env : AuthEnv) (claims : Claims) : Except AppError Uuid :=
  match env.parseUuid claims.sub with
  | .ok id => .ok id
  | .error e => .error (.internal ("Invalid user_id in token: " ++ e))

/-- `str::strip_prefix`. -/
def stripStart (start s : String) : Option String :=
  if startsWith s start then some (String.ofList (s.toList.drop start.toList.length)) else none

theorem stripStart_append (start s : String) : stripStart start (start ++ s) = some s := by
  simp [stripStart, startsWith]

/-- `bearer_token`, from the `Authorization` header of a request. -/
def bearerToken (authorization : Option String) : Except AppError String :=
  match authorization.bind (stripStart "Bearer ") with
  | some token => .ok token
  | none => .error .unauthorized

def verified (env : AuthEnv) (token : String) (now : Int) : Except AppError Claims :=
  match env.verifyAccessToken token now with
  | some claims => .ok claims
  | none => .error .unauthorized

/-- `extract_claims`. -/
def extractClaims (env : AuthEnv) (authorization : Option String) (now : Int) :
    Except AppError Claims := do
  let token ← bearerToken authorization
  verified env token now

def claimedUser (env : AuthEnv) (claims : Claims) : Except AppError Uuid :=
  (claims.userId env).mapError (fun _ => .unauthorized)

def letIn : Option User → Except AppError User
  | some u => if u.isActive then .ok u else .error .unauthorized
  | none => .error .unauthorized

/-- `AuthUser::from_request`. -/
def authUser (env : AuthEnv) (authorization : Option String) (now : Int) : Query Claims := do
  let claims ← Tx.done (extractClaims env authorization now)
  let userId ← Tx.done (claimedUser env claims)
  let found ← findById userId
  let _ ← Tx.done (letIn found)
  pure claims

/-! ## Administrators -/

/-- The readings of the clock for a request of an administrator. -/
structure AdminTimes where
  verifiedAt : Int
  lookedUpAt : Int
  claimedAt : Int
deriving DecidableEq, Repr

/-- `agent_token_service::verify`; the column `last_used_at` is not modelled. -/
def verifyAgentToken (env : AuthEnv) (rawToken : String) (now : Int) :
    Query (Option AgentToken) := do
  let found ← Tx.query (fun s =>
    s.agentTokens.rows.find? (fun r => r.tokenHash = env.tokens.hashToken rawToken))
  pure (found.filter (fun token =>
    token.revokedAt.isNone && !token.expiresAt.any (fun t => decide (t ≤ now))))

inductive AdminAuth where
  | jwt (claims : Claims)
  | agentToken (claims : Claims)
deriving DecidableEq, Repr

def activeAdmin : Option User → Except AppError User
  | some u => if u.isActive ∧ u.role = "admin" then .ok u else .error .unauthorized
  | none => .error .unauthorized

def agentClaims (env : AuthEnv) (token : String) (times : AdminTimes) : Query AdminAuth := do
  let found ← verifyAgentToken env token times.lookedUpAt
  let agentToken ← Tx.okOr .unauthorized found
  let creator ← findById agentToken.createdBy
  let creator ← Tx.done (activeAdmin creator)
  let now := times.claimedAt / 1000000
  pure (.agentToken (Claims.new agentToken.createdBy creator.role now (now + 300)))

/-- `extract_admin_auth`. -/
def extractAdminAuth (env : AuthEnv) (authorization : Option String) (times : AdminTimes) :
    Query AdminAuth := do
  let token ← Tx.done (bearerToken authorization)
  match env.verifyAccessToken token times.verifiedAt with
  | some claims => pure (.jwt claims)
  | none =>
    if startsWith token "agt_" then agentClaims env token times else throw .unauthorized

/-- The rest of `AdminUser::from_request`: agent tokens have been checked already. -/
def admitAdmin (env : AuthEnv) : AdminAuth → Query Claims
  | .agentToken claims => pure claims
  | .jwt claims => do
    let userId ← Tx.done (claimedUser env claims)
    let found ← findById userId
    let _ ← Tx.done (letIn found)
    if claims.role = "admin" then pure claims else throw .forbidden

/-- `AdminUser::from_request`. -/
def adminUser (env : AuthEnv) (authorization : Option String) (times : AdminTimes) :
    Query Claims := do
  let auth ← extractAdminAuth env authorization times
  admitAdmin env auth

/-! ## WebSockets -/

/-- The handshake of `ws_handler`: the account that the session is for. -/
def wsHandshake (env : AuthEnv) (token : String) (now : Int) : Query Uuid := do
  let claims ← Tx.done (verified env token now)
  let userId ← Tx.done (claims.userId env)
  let found ← findById userId
  let _ ← Tx.okOr .unauthorized found
  pure userId

end SyncServer.Auth
