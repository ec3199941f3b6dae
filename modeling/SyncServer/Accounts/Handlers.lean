import SyncServer.Accounts.Users
import SyncServer.Auth.RefreshTokens
import SyncServer.Moderation.Text
import SyncServer.Server

/-! # The handlers that write accounts

Registration, the setup of the first administrator, the login of a device, and the
update of a profile.
-/

namespace SyncServer.Accounts
open Transaction Auth

/-- The libraries and the configuration of the handlers. -/
structure AccountEnv where
  names : NameEnv
  tokens : TokenEnv
  decodeBase64 : String → Option (List UInt8)
  verifyJsonSolution : String → String → Bool
  hashPassword : String → String → Except String String
  altchaHmacKey : Option String
  maxUsers : Option Nat

/-! ## Checks -/

/-- `routes::profile::is_valid_username`. -/
def Profile.isValidUsername (value : String) : Bool :=
  let len := value.toList.length
  2 ≤ len && len ≤ 32 && value.toList.all (fun c => !isControl c)

/-- `routes::auth::is_valid_username`, which ignores white space at the ends. -/
def isValidUsername (value : String) : Bool := Profile.isValidUsername (trim value)

/-- The checks on the fields of a new account; `username` is also given as trimmed. -/
def checkFields (trimmed email username password : String) : Except AppError Unit := do
  require (trimmed ≠ "" ∧ email ≠ "" ∧ 8 ≤ password.utf8ByteSize)
    "username, email required; password must be ≥8 chars"
  require (isValidUsername username) "username must be 2-32 characters (no control characters)"

/-- `verify_altcha`. -/
def verifyAltcha (env : AccountEnv) (payload hmacKey : String) : Bool :=
  match env.decodeBase64 (trim payload) with
  | none => false
  | some decoded =>
    match String.fromUTF8? ⟨decoded.toArray⟩ with
    | none => false
    | some json => env.verifyJsonSolution json hmacKey

def checkAltcha (env : AccountEnv) (payload : Option String) : Except AppError Unit :=
  match env.altchaHmacKey with
  | none => .ok ()
  | some hmacKey => do
    require (payload.getD "" ≠ "") "altcha_payload is required"
    if verifyAltcha env (payload.getD "") hmacKey then .ok () else .error .unauthorized

/-! ## The registration limiter -/

def registrationMaxPerHour : Nat := 5

/-- `is_registration_rate_limited`, which forgets what is older than an hour. -/
def isRegistrationRateLimited (ip : String) (now : Int) : Handler Bool :=
  Tx.exec (fun _ => []) (fun s =>
    let kept := s.registrations.filter (fun e => e.1 ≠ ip || now - e.2 < 3600)
    .ok (decide (registrationMaxPerHour ≤ kept.countP (fun e => e.1 = ip)),
      { s with registrations := kept }))

/-- `record_registration`. -/
def recordRegistration (ip : String) (now : Int) : Handler Unit :=
  Tx.exec (fun _ => []) (fun s => .ok ((), { s with registrations := s.registrations ++ [(ip, now)] }))

def refuseIfLimited (ip : String) (now : Int) : Handler Unit := do
  let limited ← isRegistrationRateLimited ip now
  if limited then
    throw (.tooManyRequests "Too many accounts created from this IP. Try again later.")
  else pure ()

/-! ## The handlers -/

def currentSafetyTermsVersion : Int := 1

/-- `record_terms_acceptance_conn` for the current version; its columns are not modelled. -/
def recordTermsAcceptance (user : Uuid) (accepted : Option Int) : Query Unit :=
  if accepted = some currentSafetyTermsVersion then do
    let found ← findById user
    let _ ← Tx.okOr (.database .notFound) found
    pure ()
  else pure ()

theorem keeps_recordTermsAcceptance {τ : Type} {π : Db → τ} (user : Uuid)
    (accepted : Option Int) : (recordTermsAcceptance user accepted).Keeps π := by
  unfold recordTermsAcceptance
  split
  · exact Tx.keeps_bind (Tx.keeps_query _ _) (fun found =>
      Tx.keeps_bind (Tx.keeps_okOr _ _ found) (fun _ => Tx.keeps_pure _ _))
  · trivial

/-- A request to register, with what the server draws and reads for it: the clock of the
limiter at the beginning and at the end, the id of the account, the salt of the password. -/
structure RegisterCall where
  username : String
  email : String
  password : String
  altchaPayload : Option String
  acceptedTermsVersion : Option Int
  clientIp : String
  now : Int
  recordedAt : Int
  newId : Uuid
  salt : String
deriving DecidableEq, Repr

def checkRegistration (env : AccountEnv) (call : RegisterCall) : Except AppError Unit := do
  checkFields (trim call.username) (trim call.email) call.username call.password
  checkAltcha env call.altchaPayload

/-- `register`; the answer is the account and whether it awaits approval. -/
def register (env : AccountEnv) (call : RegisterCall) : Handler (User × Bool) := do
  refuseIfLimited call.clientIp call.now
  Tx.done (checkRegistration env call)
  let passwordHash ← Tx.done ((env.hashPassword call.salt call.password).mapError .internal)
  let approvalRequired ← onDb isApprovalRequired
  let maxUsers ← onDb (effectiveMaxUsers env.maxUsers)
  let user ← onDb (createUser {
    id := call.newId
    username := call.username
    email := env.names.unicode.toLowercase call.email
    passwordHash := passwordHash
    role := "user"
    deviceAuthPubkey := none
    isApproved := !approvalRequired } maxUsers)
  onDb (recordTermsAcceptance user.id call.acceptedTermsVersion)
  recordRegistration call.clientIp call.recordedAt
  pure (user, approvalRequired)

structure SetupAdminCall where
  username : String
  email : String
  password : String
  setupToken : Option String
  newId : Uuid
  salt : String
deriving DecidableEq, Repr

def SetupAdminCall.storedEmail (env : AccountEnv) (call : SetupAdminCall) : String :=
  env.names.unicode.toLowercase (trim call.email)

def checkSetup (env : AccountEnv) (call : SetupAdminCall) : Except AppError Unit :=
  checkFields (trim call.username) (call.storedEmail env) (trim call.username) call.password

def clearSetupToken : Handler Unit :=
  Tx.exec (fun _ => []) (fun s => .ok ((), { s with setupToken := none }))

/-- `setup_admin`. -/
def setupAdmin (env : AccountEnv) (call : SetupAdminCall) : Handler User := do
  Tx.done (checkSetup env call)
  let adminCount ← onDb (Tx.query (fun s => s.users.rows.countP (fun r => r.role = "admin")))
  if 0 < adminCount then do
    clearSetupToken
    throw (.conflict "Admin account is already configured")
  else do
    let expected ← Tx.query Server.setupToken
    let setupToken := trim (call.setupToken.getD "")
    if setupToken = "" ∨ expected ≠ some setupToken then throw .forbidden
    else do
      let passwordHash ← Tx.done ((env.hashPassword call.salt call.password).mapError .internal)
      let user ← onDb (createUser {
        id := call.newId
        username := trim call.username
        email := call.storedEmail env
        passwordHash := passwordHash
        role := "admin"
        deviceAuthPubkey := none
        isApproved := true } none)
      clearSetupToken
      pure user

/-- A login of a device; `password` is the one drawn for a new account. -/
structure DeviceLoginCall where
  deviceAuthPubkey : String
  altchaPayload : Option String
  acceptedTermsVersion : Option Int
  clientIp : String
  now : Int
  recordedAt : Int
  newId : Uuid
  password : Uuid
  salt : String
  family : Uuid
  minting : Minting
deriving DecidableEq, Repr

def checkDevice (env : AccountEnv) (call : DeviceLoginCall) : Except AppError Unit := do
  require (trim call.deviceAuthPubkey ≠ "") "device_auth_pubkey is required"
  checkAltcha env call.altchaPayload

def admitted (existing : User) : Except AppError User :=
  if existing.isActive = false then .error .unauthorized
  else if existing.isApproved = false then .error .forbidden
  else .ok existing

def newDeviceUser (env : AccountEnv) (call : DeviceLoginCall) (passwordHash : String)
    (approvalRequired : Bool) : NewUser :=
  let pubkey := trim call.deviceAuthPubkey
  { id := call.newId
    username := "u" ++ env.names.sha256.short 15 pubkey
    email := "device+" ++ env.names.sha256.short 32 pubkey ++ "@device.sync.invalid"
    passwordHash := passwordHash
    role := "user"
    deviceAuthPubkey := some pubkey
    isApproved := !approvalRequired }

/-- The account of an unknown device, or none if it awaits approval. -/
def registerDevice (env : AccountEnv) (call : DeviceLoginCall) : Handler (Option User) := do
  refuseIfLimited call.clientIp call.now
  let passwordHash ←
    Tx.done ((env.hashPassword call.salt (uuidString call.password)).mapError .internal)
  let approvalRequired ← onDb isApprovalRequired
  let maxUsers ← onDb (effectiveMaxUsers env.maxUsers)
  let created ← Tx.attempt
    (onDb (createUser (newDeviceUser env call passwordHash approvalRequired) maxUsers))
  match created with
  | .ok created => do
    recordRegistration call.clientIp call.recordedAt
    pure (if approvalRequired then none else some created)
  | .error (.conflict _) => do
    let found ← onDb (findByDeviceAuthPubkey (trim call.deviceAuthPubkey))
    let existing ← Tx.okOr .unauthorized found
    let user ← Tx.done (admitted existing)
    pure (some user)
  | .error other => throw other

/-- The account of a device, known or not; none if it awaits approval. -/
def deviceUser (env : AccountEnv) (call : DeviceLoginCall) : Option User → Handler (Option User)
  | some existing => do
    let user ← Tx.done (admitted existing)
    pure (some user)
  | none => registerDevice env call

/-- `device_login`; no tokens are issued while the account awaits approval. -/
def deviceLogin (env : AccountEnv) (call : DeviceLoginCall) : Handler (Option TokenResponse) := do
  Tx.done (checkDevice env call)
  let found ← onDb (findByDeviceAuthPubkey (trim call.deviceAuthPubkey))
  let user ← deviceUser env call found
  match user with
  | none => pure none
  | some user => do
    onDb (recordTermsAcceptance user.id call.acceptedTermsVersion)
    let tokens ← onDb (mintTokens env.tokens user.id user.role call.family call.minting)
    pure (some tokens)

/-! ## Profiles -/

def descriptionMaxWords : Nat := 100

def avatarMaxBytes : Nat := 256 * 1024

/-- `validate_avatar_base64`. -/
def validateAvatarBase64 (env : AccountEnv) (avatar : String) : Except AppError Unit :=
  match env.decodeBase64 (trim avatar) with
  | none => .error (.badRequest "avatar_base64 must be valid base64")
  | some decoded => require (decoded.length ≤ avatarMaxBytes) "avatar image must be <= 256KB"

/-- `validate_message_public_key`. -/
def validateMessagePublicKey (env : AccountEnv) (key : String) : Except AppError Unit :=
  match env.decodeBase64 (trim key) with
  | none => .error (.badRequest "message_public_key must be valid base64")
  | some decoded => require (decoded.length = 32) "message_public_key must decode to 32 bytes"

def checkUsername (env : AccountEnv) (username : Option String) :
    Except AppError (Option String) :=
  match (username.map trim).filter (· ≠ "") with
  | none => .ok none
  | some username => do
    require (Profile.isValidUsername username)
      "username must be 2-32 characters and may include UTF-8 letters, symbols, and spaces"
    Moderation.ensureTextIsAllowed env.names.unicode "username" username
    pure (some username)

def checkDescription (env : AccountEnv) :
    Option (Option String) → Except AppError (Option (Option String))
  | none => .ok none
  | some none => .ok (some none)
  | some (some raw) =>
    let trimmed := trim raw
    if trimmed = "" then .ok (some none)
    else do
      require ((splitWhitespace trimmed).length ≤ descriptionMaxWords)
        "description must be 100 words or less"
      Moderation.ensureTextIsAllowed env.names.unicode "description" trimmed
      pure (some (some trimmed))

/-- The checks of `update_me` on a request, and what is to be written. -/
def checkProfile (env : AccountEnv) (body : ProfileChanges) : Except AppError ProfileChanges := do
  let nextUsername ← checkUsername env body.username
  let nextDescription ← checkDescription env body.description
  match body.avatarBase64 with
  | some (some avatar) => validateAvatarBase64 env avatar
  | _ => pure ()
  match body.messagePublicKey with
  | some (some key) => validateMessagePublicKey env key
  | _ => pure ()
  pure { body with username := nextUsername, description := nextDescription }

/-- `update_me`. -/
def updateMe (env : AccountEnv) (userId : Uuid) (body : ProfileChanges) : Handler User := do
  let changes ← Tx.done (checkProfile env body)
  onDb (updateProfile userId changes)

/-! ## What the handlers write -/

def accountsAndKeys (d : Db) :
    Table Uuid User User.id × Table Uuid FederationActorKey FederationActorKey.id :=
  (d.users, d.federationActorKeys)

section
variable {W : (Server → Server) → Prop} {α : Type}
  (hW : ∀ w : Server → Server, (∀ s, accountsAndKeys (w s).db = accountsAndKeys s.db) → W w)
include hW

theorem writes_onDb {q : Query α} (h : q.Keeps accountsAndKeys) : (onDb q).Writes W :=
  Tx.writes_onPart (fun _ hw => hW _ (fun s => hw s.db)) h

theorem writes_refuseIfLimited (ip : String) (now : Int) : (refuseIfLimited ip now).Writes W := by
  refine Tx.writes_bind (Tx.writes_exec (hW _ (fun _ => rfl)) _) (fun limited => ?_)
  split <;> trivial

theorem writes_recordRegistration (ip : String) (now : Int) :
    (recordRegistration ip now).Writes W :=
  Tx.writes_exec (hW _ (fun _ => rfl)) _

theorem writes_clearSetupToken : clearSetupToken.Writes W :=
  Tx.writes_exec (hW _ (fun _ => rfl)) _

theorem writes_register {env : AccountEnv} {call : RegisterCall}
    (hnew : checkRegistration env call = .ok () → ∀ new maxUsers, new.username = call.username →
      new.email = env.names.unicode.toLowercase call.email →
      (onDb (createUser new maxUsers)).Writes W) :
    (register env call).Writes W := by
  refine Tx.writes_bind (writes_refuseIfLimited hW _ _) (fun _ => ?_)
  rcases hcheck : checkRegistration env call with e | ⟨⟩
  · exact trivial
  refine Tx.writes_bind (Tx.writes_done _ _) (fun _ => ?_)
  refine Tx.writes_bind (Tx.writes_done _ _) (fun passwordHash => ?_)
  refine Tx.writes_bind (writes_onDb hW (Tx.keeps_query _ _)) (fun approvalRequired => ?_)
  refine Tx.writes_bind (writes_onDb hW (Tx.keeps_query _ _)) (fun maxUsers => ?_)
  refine Tx.writes_bind (hnew hcheck _ _ rfl rfl) (fun user => ?_)
  refine Tx.writes_bind (writes_onDb hW (keeps_recordTermsAcceptance _ _)) (fun _ => ?_)
  exact Tx.writes_bind (writes_recordRegistration hW _ _) (fun _ => trivial)

theorem writes_setupAdmin {env : AccountEnv} {call : SetupAdminCall}
    (hnew : checkSetup env call = .ok () → ∀ new maxUsers, new.username = trim call.username →
      new.email = call.storedEmail env → (onDb (createUser new maxUsers)).Writes W) :
    (setupAdmin env call).Writes W := by
  unfold setupAdmin
  rcases hcheck : checkSetup env call with e | ⟨⟩
  · exact trivial
  refine Tx.writes_bind (Tx.writes_done _ _) (fun _ => ?_)
  refine Tx.writes_bind (writes_onDb hW (Tx.keeps_query _ _)) (fun adminCount => ?_)
  split
  · exact Tx.writes_bind (writes_clearSetupToken hW) (fun _ => trivial)
  refine Tx.writes_bind (Tx.writes_query (hW _ (fun _ => rfl)) _) (fun expected => ?_)
  dsimp only
  split
  · trivial
  refine Tx.writes_bind (Tx.writes_done _ _) (fun passwordHash => ?_)
  refine Tx.writes_bind (hnew hcheck _ _ rfl rfl) (fun user => ?_)
  exact Tx.writes_bind (writes_clearSetupToken hW) (fun _ => trivial)

section
variable {env : AccountEnv} {call : DeviceLoginCall}
  (hnew : ∀ hash approval maxUsers,
    (onDb (createUser (newDeviceUser env call hash approval) maxUsers)).Writes W)
include hnew

theorem writes_registerDevice : (registerDevice env call).Writes W := by
  refine Tx.writes_bind (writes_refuseIfLimited hW _ _) (fun _ => ?_)
  refine Tx.writes_bind (Tx.writes_done _ _) (fun passwordHash => ?_)
  refine Tx.writes_bind (writes_onDb hW (Tx.keeps_query _ _)) (fun approvalRequired => ?_)
  refine Tx.writes_bind (writes_onDb hW (Tx.keeps_query _ _)) (fun maxUsers => ?_)
  refine Tx.writes_bind (Tx.writes_attempt (hnew _ _ _)) (fun created => ?_)
  split
  · exact Tx.writes_bind (writes_recordRegistration hW _ _) (fun _ => trivial)
  · refine Tx.writes_bind (writes_onDb hW (Tx.keeps_query _ _)) (fun found => ?_)
    refine Tx.writes_bind (Tx.writes_okOr _ _ found) (fun existing => ?_)
    exact Tx.writes_bind (Tx.writes_done _ _) (fun _ => trivial)
  · trivial

theorem writes_deviceLogin : (deviceLogin env call).Writes W := by
  refine Tx.writes_bind (Tx.writes_done _ _) (fun _ => ?_)
  refine Tx.writes_bind (writes_onDb hW (Tx.keeps_query _ _)) (fun found => ?_)
  refine Tx.writes_bind ?_ (fun user => ?_)
  · cases found with
    | some existing => exact Tx.writes_bind (Tx.writes_done _ _) (fun _ => trivial)
    | none => exact writes_registerDevice hW hnew
  split
  · trivial
  · refine Tx.writes_bind (writes_onDb hW (keeps_recordTermsAcceptance _ _)) (fun _ => ?_)
    refine Tx.writes_bind (writes_onDb hW (keeps_mintTokens (fun _ _ => rfl) _ _ _ _ _)) (fun _ => ?_)
    trivial

end
end

end SyncServer.Accounts
