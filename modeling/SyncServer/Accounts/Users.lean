import SyncServer.Base.Http
import SyncServer.Base.Text
import SyncServer.Schema

/-! # The user service

Accounts are inserted by registration and by the federation, which represents a
remote person by a shadow account. A shadow account is recognised by its username
`user@host` and by the domain of its email address.
-/

namespace SyncServer.Accounts
open Transaction

structure Sha256 where
  hex : String → String
  length_hex : ∀ s, (hex s).toList.length = 64
  digits_hex : ∀ s, ∀ c ∈ (hex s).toList, c ∈ "0123456789abcdef".toList

def Sha256.short (sha : Sha256) (n : Nat) (s : String) : String :=
  String.ofList ((sha.hex s).toList.take n)

/-- The libraries that the names of accounts depend on. -/
structure NameEnv where
  unicode : Unicode
  parseUrl : String → Except String Url
  sha256 : Sha256

structure NewUser where
  id : Uuid
  username : String
  email : String
  passwordHash : String
  role : String
  deviceAuthPubkey : Option String
  isApproved : Bool
deriving DecidableEq, Repr

/-- The row of a new account, with the defaults of the columns that it does not name. -/
def NewUser.row (new : NewUser) : User where
  id := new.id
  username := new.username
  email := new.email
  passwordHash := new.passwordHash
  avatarBase64 := none
  description := none
  messagePublicKey := none
  role := new.role
  isActive := true
  deviceAuthPubkey := new.deviceAuthPubkey
  isApproved := new.isApproved
  dmRestrictedUntil := none
  safetyWarningCount := 0
  yellowCardExpiresAt := none

def clash (r r' : User) : Bool :=
  r.username = r'.username || r.email = r'.email ||
    (r.deviceAuthPubkey.isSome && r.deviceAuthPubkey = r'.deviceAuthPubkey)

def addUser (row : User) (s : Db) : Except DbError (User × Db) :=
  if row.role ∉ ["admin", "user", "moderator"] then .error .checkViolation
  else if s.users.rows.any (clash row) then .error .uniqueViolation
  else match s.users.insert row with
    | none => .error .uniqueViolation
    | some t => .ok (row, { s with users := t })

theorem addUser_ok {row u : User} {s s' : Db} (h : addUser row s = .ok (u, s')) :
    u = row ∧ ∃ t, s.users.insert row = some t ∧ s' = { s with users := t } := by
  unfold addUser at h
  split at h
  · cases h
  split at h
  · cases h
  split at h
  · cases h
  rename_i t ht
  cases h
  exact ⟨rfl, t, ht, rfl⟩

def insertUser (new : NewUser) : Query User := Query.exec (fun _ => []) (addUser new.row)

def userByUsername (name : String) (s : Db) : Option User :=
  s.users.rows.find? (fun r => r.username = name)

/-- `find_by_username`. -/
def findByUsername (name : String) : Query (Option User) := Tx.query (userByUsername name)

/-- `find_by_device_auth_pubkey`. -/
def findByDeviceAuthPubkey (pubkey : String) : Query (Option User) :=
  Tx.query (fun s => s.users.rows.find? (fun r => r.deviceAuthPubkey = some pubkey))

/-- `find_by_id`. -/
def findById (id : Uuid) : Query (Option User) := Tx.query (fun s => s.users.get id)

/-! ## Settings -/

/-- `is_approval_required`. -/
def isApprovalRequired : Query Bool :=
  Tx.query (fun s => (s.adminSettings.get "registration_requires_approval").any
    (fun r => r.value = "true"))

/-- `effective_max_users`: the setting if it is a number, otherwise the configuration. -/
def effectiveMaxUsers (maxUsers : Option Nat) : Query (Option Nat) :=
  Tx.query (fun s => ((s.adminSettings.get "max_users").bind (fun r => parseU32 r.value)).or maxUsers)

/-! ## New accounts and profiles -/

def checkUserCap (maxUsers : Option Nat) : Query Unit :=
  match maxUsers with
  | none => pure ()
  | some cap => do
    let count ← Tx.query (fun s => s.users.rows.length)
    if cap ≤ count then
      throw (.conflict ("Instance user limit reached (max_users=" ++ toString cap ++ ")"))
    else pure ()

/-- `create_user`. -/
def createUser (new : NewUser) (maxUsers : Option Nat) : Query User := do
  checkUserCap maxUsers
  let inserted ← Tx.attempt (insertUser new)
  match inserted with
  | .error (.database .uniqueViolation) => throw (.conflict "Email or username already taken")
  | result => Tx.done result

/-- The new values of a profile; what is absent stays. -/
structure ProfileChanges where
  username : Option String
  avatarBase64 : Option (Option String)
  description : Option (Option String)
  messagePublicKey : Option (Option String)
deriving DecidableEq, Repr

/-- The profile of `existing` with the changes, written over a row. -/
def ProfileChanges.over (changes : ProfileChanges) (existing r : User) : User :=
  { r with
    username := changes.username.getD existing.username
    avatarBase64 := changes.avatarBase64.getD existing.avatarBase64
    description := changes.description.getD existing.description
    messagePublicKey := changes.messagePublicKey.getD existing.messagePublicKey }

theorem ProfileChanges.over_id (changes : ProfileChanges) (existing r : User) :
    (changes.over existing r).id = r.id := rfl

/-- The texts of a profile. -/
def profileTexts (u : User) : List String :=
  u.username :: (u.avatarBase64.toList ++ u.description.toList ++ u.messagePublicKey.toList)

/-- A federation table refers to an account by its username. -/
def refersTo (s : Db) (username : String) : Bool :=
  s.federationInboxActivities.rows.any (fun r => r.recipientUsername = username) ||
    s.federationRemoteMessages.rows.any (fun r => r.recipientUsername = username) ||
    s.federationActorKeys.rows.any (fun r => r.actorUsername = username) ||
    s.federationDeliveries.rows.any (fun r => r.senderUsername = username)

def setProfile (changes : ProfileChanges) (existing : User) (s : Db) :
    Except DbError (User × Db) :=
  -- the texts are checked when they are bound, before any row is looked for
  if ¬ (profileTexts (changes.over existing existing)).all isText then
    .error .characterNotInRepertoire
  else match s.users.get existing.id with
  | none => .error .notFound
  | some r =>
    let r' := changes.over existing r
    if r'.avatarBase64.any (fun a => 400000 < a.toList.length) then .error .checkViolation
    else if s.users.rows.any (fun u => u.id ≠ r.id && u.username = r'.username) then
      .error .uniqueViolation
    else if r'.username ≠ r.username ∧ refersTo s r.username then .error .foreignKeyViolation
    else .ok (r', { s with
      users := s.users.update existing.id (changes.over existing) (changes.over_id existing) })

/-- `update_profile`. -/
def updateProfile (userId : Uuid) (changes : ProfileChanges) : Query User := do
  let found ← findById userId
  let existing ← Tx.okOr .notFound found
  let updated ← Tx.attempt (Query.exec (fun _ => []) (setProfile changes existing))
  match updated with
  | .error (.database .uniqueViolation) => throw (.conflict "Username already taken")
  | result => Tx.done result

/-! ## Shadow accounts -/

def federatedShadowEmailDomain : String := "federated.sync.invalid"

def federatedDisabledPasswordHash : String :=
  "$2b$12$rMj14yi8T5IeDV.9xR4Lxehx2Y8M7vY4QfPh6UfZIe8TVfEfHE7Ni"

structure FederatedIdentity where
  remoteUserId : String
  remoteHost : String
deriving DecidableEq, Repr

/-- `normalize_remote_user_id`. -/
def normalizeRemoteUserId (env : NameEnv) (raw : String) : Except AppError String := do
  let normalized := env.unicode.toLowercase (trim raw)
  require (normalized ≠ "") "recipient_id cannot be empty"
  require (normalized.toList.all (fun c => c.isAlphanum || c = '.' || c = '_' || c = '-'))
    "recipient_id contains unsupported characters"
  pure normalized

/-- `normalize_remote_host`. -/
def normalizeRemoteHost (env : NameEnv) (serverUrl : String) : Except AppError String :=
  match env.parseUrl (trim serverUrl) with
  | .error e => .error (.badRequest ("Invalid recipient_server_url: " ++ e))
  | .ok parsed =>
    match parsed.host with
    | none => .error (.badRequest "recipient_server_url must include host")
    | some host => .ok (env.unicode.toLowercase host)

def federatedShadowUsername (remoteUserId remoteHost : String) : String :=
  remoteUserId ++ "@" ++ remoteHost

def federatedShadowEmail (env : NameEnv) (username : String) : String :=
  "fed+" ++ env.sha256.short 32 username ++ "@" ++ federatedShadowEmailDomain

/-- `parse_federated_shadow_username`. -/
def parseFederatedShadowUsername (username : String) : Option FederatedIdentity := do
  let (remoteUserId, remoteHost) ← splitOnce '@' username
  if remoteUserId = "" ∨ remoteHost = "" then none
  else if ¬ remoteUserId.toList.all (fun c => c.isAlphanum || c = '.' || c = '_' || c = '-') then
    none
  else if ¬ remoteHost.toList.all (fun c => c.isAlphanum || c = '.' || c = '-') then none
  else some ⟨remoteUserId, remoteHost⟩

/-- `federated_identity_for_user`. -/
def federatedIdentityForUser (user : User) : Option FederatedIdentity :=
  if endsWith user.email federatedShadowEmailDomain then
    parseFederatedShadowUsername user.username
  else none

def newShadow (env : NameEnv) (username : String) (id : Uuid) : NewUser where
  id := id
  username := username
  email := federatedShadowEmail env username
  passwordHash := federatedDisabledPasswordHash
  role := "user"
  deviceAuthPubkey := none
  isApproved := true

def deactivated (r : User) : User := { r with isActive := false }

theorem deactivated_id (r : User) : (deactivated r).id = r.id := rfl

/-- `UPDATE users SET is_active = false WHERE id = .. RETURNING *`. -/
def deactivate (id : Uuid) : Query User :=
  Query.exec (fun _ => []) (fun s =>
    match s.users.get id with
    | none => .error .notFound
    | some r => .ok (deactivated r, { s with users := s.users.update id deactivated deactivated_id }))

/-- `ensure_federated_shadow_user`. -/
def ensureFederatedShadowUser (env : NameEnv) (remoteUserId remoteServerUrl : String)
    (newId : Uuid) : Query User := do
  let normalizedRemoteUserId ← Tx.done (normalizeRemoteUserId env remoteUserId)
  let normalizedHost ← Tx.done (normalizeRemoteHost env remoteServerUrl)
  let shadowUsername := federatedShadowUsername normalizedRemoteUserId normalizedHost
  let found ← findByUsername shadowUsername
  match found with
  | some existing => pure existing
  | none => do
    let inserted ← Tx.attempt (insertUser (newShadow env shadowUsername newId))
    match inserted with
    | .ok inserted => deactivate inserted.id
    | .error (.database .uniqueViolation) => do
      let found ← findByUsername shadowUsername
      Tx.okOr .notFound found
    | .error other => throw other

theorem keeps_deactivate {τ : Type} {π : Db → τ} (hπ : ∀ d t, π { d with users := t } = π d)
    (id : Uuid) : (deactivate id).Keeps π := by
  apply Query.keeps_exec
  intro d a d' h
  split at h
  · cases h
  · cases h
    exact hπ d _

/-! ## What a new account writes -/

def Adds (row : User) (d d' : Db) : Prop :=
  d'.users = d.users ∨ d.users.insert row = some d'.users

theorem writes_createUser_of {W : (Db → Db) → Prop} (new : NewUser) (maxUsers : Option Nat)
    (hid : W id) (hinsert : (insertUser new).Writes W) : (createUser new maxUsers).Writes W := by
  apply Tx.writes_bind
  · unfold checkUserCap
    split
    · trivial
    · refine Tx.writes_bind (Tx.writes_query hid _) (fun count => ?_)
      split <;> trivial
  intro _
  apply Tx.writes_bind (Tx.writes_attempt hinsert)
  intro inserted
  split <;> trivial

theorem writes_insertUser (new : NewUser) :
    (insertUser new).Writes (fun w => ∀ d, Adds new.row d (w d)) := by
  refine Query.writes_exec (fun d => .inl rfl) (fun d a d' h => ?_)
  obtain ⟨-, t, ht, rfl⟩ := addUser_ok h
  exact .inr ht

theorem writes_createUser (new : NewUser) (maxUsers : Option Nat) :
    (createUser new maxUsers).Writes (fun w => ∀ d, Adds new.row d (w d)) :=
  writes_createUser_of new maxUsers (fun _ => .inl rfl) (writes_insertUser new)

theorem keeps_checkUserCap (maxUsers : Option Nat) : (checkUserCap maxUsers).Keeps id := by
  unfold checkUserCap
  split
  · trivial
  · apply Tx.keeps_bind (Tx.keeps_query _ _)
    intro count
    split <;> trivial

theorem run_createUser_cases (new : NewUser) (maxUsers : Option Nat) (s : Db) :
    (∃ e, (createUser new maxUsers).run s = (.error e, s)) ∨
      ∃ t, s.users.insert new.row = some t ∧
        (createUser new maxUsers).run s = (.ok new.row, { s with users := t }) := by
  have hcap := (keeps_checkUserCap maxUsers).run s
  rcases hcheck : (checkUserCap maxUsers).run s with ⟨e | ⟨⟩, d⟩
  · left
    rw [hcheck] at hcap
    obtain rfl : d = s := hcap
    exact ⟨e, Tx.run_bind_error hcheck _⟩
  rw [hcheck] at hcap
  obtain rfl : d = s := hcap
  rw [createUser, Tx.run_bind_ok hcheck, Tx.run_bind_ok (Tx.run_attempt _ _)]
  rcases Query.run_exec_cases (fun _ => []) (addUser new.row) d with ⟨e, he⟩ | ⟨row, d', hadd, hok⟩
  · left
    rw [insertUser, he]
    dsimp only
    split <;> exact ⟨_, rfl⟩
  · right
    obtain ⟨rfl, t, hinsert, rfl⟩ := addUser_ok hadd
    refine ⟨t, hinsert, ?_⟩
    rw [insertUser, hok]
    rfl

theorem keeps_createUser {τ : Type} {π : Db → τ} (hπ : ∀ d t, π { d with users := t } = π d)
    (new : NewUser) (maxUsers : Option Nat) : (createUser new maxUsers).Keeps π := by
  apply writes_createUser_of new maxUsers (fun _ => rfl)
  apply Query.keeps_exec
  intro d a d' h
  obtain ⟨-, t, -, rfl⟩ := addUser_ok h
  exact hπ d t

end SyncServer.Accounts
