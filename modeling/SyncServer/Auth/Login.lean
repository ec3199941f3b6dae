import SyncServer.Auth.Extractors

/-! # Logging in

A password, the key of a device, or the approval of somebody who is logged in already gives
a new pair of tokens.
-/

namespace SyncServer.Auth
open Transaction Accounts

/-- A login with a password, and what the server draws for its tokens. -/
structure LoginCall where
  email : String
  password : String
  altchaPayload : Option String
  acceptedTermsVersion : Option Int
  family : Uuid
  minting : Minting
deriving DecidableEq, Repr

/-- `find_by_email`: the active account with an email address. -/
def findByEmail (email : String) : Query (Option User) :=
  Tx.query (fun s => s.users.rows.find? (fun r => r.email = email && r.isActive))

def checkPassword (env : AuthEnv) (call : LoginCall) (user : User) : Except AppError Unit :=
  match env.verifyPassword call.password user.passwordHash with
  | .error e => .error (.internal e)
  | .ok pwOk =>
    if pwOk = false then .error .unauthorized
    else if user.isApproved = false then .error .forbidden
    else checkAltcha env.toAccountEnv call.altchaPayload

/-- `login`. -/
def login (env : AuthEnv) (call : LoginCall) : Query TokenResponse := do
  let found ← findByEmail (env.names.unicode.toLowercase call.email)
  let user ← Tx.okOr .unauthorized found
  Tx.done (checkPassword env call user)
  recordTermsAcceptance user.id call.acceptedTermsVersion
  mintTokens env.tokens user.id user.role call.family call.minting

/-! ## Approval by QR code -/

/-- The state of a login by QR code, as it is kept in Redis. -/
structure QrLoginSessionRecord where
  secret : String
  status : String
  accessToken : Option String
  refreshToken : Option String
  expiresIn : Option Int
deriving DecidableEq, Repr

def qrLoginStatusPending : String := "pending"

def qrLoginStatusApproved : String := "approved"

/-- A request to approve a login. `record` is what the session id stands for in Redis,
`saved` is the outcome of storing the new record. -/
structure ApproveQrCall where
  authorization : Option String
  now : Int
  sessionId : String
  secret : String
  record : Except AppError (Option QrLoginSessionRecord)
  saved : Except AppError Unit
  family : Uuid
  minting : Minting

/-- The checks of `approve_qr_login` on the session. -/
def checkQrSession (call : ApproveQrCall) : Except AppError QrLoginSessionRecord := do
  let secret := trim call.secret
  require (trim call.sessionId ≠ "" ∧ secret ≠ "") "session_id and secret are required"
  let record ← call.record
  match record with
  | none => .error (.badRequest "QR login session expired")
  | some record => if record.secret ≠ secret then .error .unauthorized else .ok record

def QrLoginSessionRecord.approved (record : QrLoginSessionRecord) (tokens : TokenResponse) :
    QrLoginSessionRecord :=
  { record with
    status := qrLoginStatusApproved
    accessToken := some tokens.accessToken
    refreshToken := some tokens.refreshToken
    expiresIn := some tokens.expiresIn }

def approvePending (env : AuthEnv) (call : ApproveQrCall) (claims : Claims)
    (record : QrLoginSessionRecord) : Query QrLoginSessionRecord := do
  let userId ← Tx.done (claims.userId env)
  let tokens ← mintTokens env.tokens userId claims.role call.family call.minting
  Tx.done call.saved
  pure (record.approved tokens)

/-- `approve_qr_login`; the answer is the record as it is afterwards. -/
def approveQrLogin (env : AuthEnv) (call : ApproveQrCall) : Query QrLoginSessionRecord := do
  let claims ← authUser env call.authorization call.now
  let record ← Tx.done (checkQrSession call)
  if record.status ≠ qrLoginStatusPending then pure record
  else approvePending env call claims record

end SyncServer.Auth
