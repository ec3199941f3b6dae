import SyncServer.Accounts.Shadows
import SyncServer.Auth.Login
import SyncServer.Auth.Rotation

/-! # Suspended accounts

A suspended account may not authenticate a request or get new tokens. All the entry points
check this but two: `/auth/refresh` and the handshake of a WebSocket look up the account and
do not look whether it is active.
-/

namespace SyncServer.Auth
open Transaction Accounts

/-- The account exists and is not active. -/
def Suspended (u : Uuid) (s : Db) : Prop := ∃ row, s.users.get u = some row ∧ row.isActive = false

def Issued (u : Uuid) (s s' : Db) : Prop :=
  ∃ row ∈ s'.refreshTokens.rows, row.userId = u ∧ s.refreshTokens.get row.id = none

variable {u : Uuid} {s s' : Db}

theorem Suspended.ne_of_active (h : Suspended u s) {user : User} (hu : user ∈ s.users.rows)
    (ha : user.isActive = true) : user.id ≠ u := by
  rintro rfl
  obtain ⟨row, hrow, hinactive⟩ := h
  rw [Table.get_eq_some.mpr ⟨hu, rfl⟩] at hrow
  cases hrow
  rw [ha] at hinactive
  cases hinactive

theorem Suspended.not_active (h : Suspended u s) {user : User} (hu : s.users.get u = some user) :
    user.isActive = false := by
  obtain ⟨row, hrow, hinactive⟩ := h
  rw [hu] at hrow
  cases hrow
  exact hinactive

theorem Suspended.of_users (h : Suspended u s) (hs : s'.users = s.users) : Suspended u s' := by
  obtain ⟨row, hrow⟩ := h
  exact ⟨row, hs ▸ hrow⟩

theorem Suspended.adds (h : Suspended u s) {row : User} (hadds : Adds row s s') :
    Suspended u s' := by
  obtain hsame | hinsert := hadds
  · exact h.of_users hsame
  · obtain ⟨r, hr, hinactive⟩ := h
    refine ⟨r, ?_, hinactive⟩
    rw [Table.get_of_insert hinsert, if_neg]
    · exact hr
    · rintro rfl
      rw [Table.get_eq_none_of_insert hinsert] at hr
      cases hr

/-! ## New tokens -/

theorem not_issued_of_eq (h : s'.refreshTokens = s.refreshTokens) : ¬ Issued u s s' := by
  rintro ⟨row, hrow, -, hnew⟩
  rw [h] at hrow
  rw [Table.get_eq_some.mpr ⟨hrow, rfl⟩] at hnew
  cases hnew

theorem issued_congr {s₁ s₂ : Db} (h : s₁.refreshTokens = s₂.refreshTokens) :
    Issued u s₁ s' ↔ Issued u s₂ s' := by
  rw [Issued, h, ← Issued]

/-- A pair of tokens can be made for the account. -/
structure Mintable (tokens : TokenEnv) (userId : Uuid) (role : String) (mint : Minting) (s : Db) :
    Prop where
  issues : ∃ accessToken, accessTokenFor tokens userId role mint = .ok accessToken
  freshId : s.refreshTokens.get mint.newId = none
  freshHash : tokenByHash (tokens.hashToken mint.newRefreshToken) s = none
  user : s.userExists userId

theorem addToken_ok_iff (row : RefreshToken) : (∃ s', addToken row s = .ok ((), s')) ↔
    s.refreshTokens.get row.id = none ∧ tokenByHash row.tokenHash s = none ∧
      s.userExists row.userId := by
  unfold addToken
  rcases hinsert : s.refreshTokens.insert row with _ | t
  · have hsome := Table.insert_eq_none.mp hinsert
    rw [Option.isSome_iff_ne_none] at hsome
    exact ⟨fun ⟨_, h⟩ => (by cases h), fun h => absurd h.1 hsome⟩
  · have hfree := Table.get_eq_none_of_insert hinsert
    simp only [hfree, true_and]
    rcases hhash : tokenByHash row.tokenHash s with _ | other
    · by_cases huser : s.userExists row.userId
      · simp [huser]
      · simp [huser]
    · simp

/-- `mint_tokens` gives tokens to its account only, and does so if it can. -/
theorem issued_mintTokens {tokens : TokenEnv} {userId : Uuid} {role : String} {family : Uuid}
    {mint : Minting} : Issued u s ((mintTokens tokens userId role family mint).run s).2 ↔
      userId = u ∧ Mintable tokens userId role mint s := by
  rw [mintTokens]
  rcases htoken : accessTokenFor tokens userId role mint with e | accessToken
  · refine ⟨fun h => absurd h (not_issued_of_eq rfl), ?_⟩
    rintro ⟨-, h⟩
    obtain ⟨accessToken, h⟩ := h.issues
    rw [htoken] at h
    cases h
  rw [Tx.run_bind_ok (Tx.run_done _ _)]
  have hiff := addToken_ok_iff (s := s) (mintedToken tokens userId family mint)
  rcases hadd : addToken (mintedToken tokens userId family mint) s with e | ⟨⟨⟩, s₁⟩
  · rw [insertToken, Tx.run_bind_error (Query.run_exec_error hadd)]
    refine ⟨fun h => absurd h (not_issued_of_eq rfl), ?_⟩
    rintro ⟨-, h⟩
    obtain ⟨s', hs'⟩ := hiff.mpr ⟨h.freshId, h.freshHash, h.user⟩
    rw [hadd] at hs'
    cases hs'
  · rw [insertToken, Tx.run_bind_ok (Query.run_exec_ok.mpr hadd)]
    obtain ⟨hid, hhash, huser⟩ := hiff.mp ⟨s₁, hadd⟩
    have hrows := (addToken_ok hadd).2
    constructor
    · rintro ⟨row, hrow, hu, hnew⟩
      refine ⟨?_, ⟨accessToken, htoken⟩, hid, hhash, huser⟩
      change row ∈ s₁.refreshTokens.rows at hrow
      rw [hrows, List.mem_append, List.mem_singleton] at hrow
      obtain hrow | rfl := hrow
      · rw [Table.get_eq_some.mpr ⟨hrow, rfl⟩] at hnew
        cases hnew
      · exact hu
    · rintro ⟨rfl, -⟩
      refine ⟨mintedToken tokens userId family mint, ?_, rfl, hid⟩
      change _ ∈ s₁.refreshTokens.rows
      rw [hrows]
      exact List.mem_append_right _ (List.mem_singleton_self _)

theorem not_issued_bind {σ α β : Type} {π : σ → Db} {t : Tx σ RowLock AppError α}
    {f : α → Tx σ RowLock AppError β} {d : σ} (ht : t.Keeps (fun d => (π d).refreshTokens))
    (hf : ∀ a d', t.run d = (.ok a, d') → ¬ Issued u (π d') (π ((f a).run d').2)) :
    ¬ Issued u (π d) (π ((t >>= f).run d).2) := by
  rw [Tx.run_bind]
  rcases hrun : t.run d with ⟨e | a, d'⟩
  · exact not_issued_of_eq (ht.of_run hrun)
  · rw [issued_congr (ht.of_run hrun).symm]
    exact hf a d' hrun

/-! ## Logins -/

theorem login_not_issued (h : Suspended u s) (env : AuthEnv) (call : LoginCall) :
    ¬ Issued u s ((login env call).run s).2 := by
  have hactive : ∀ email user, s.users.rows.find? (fun r => r.email = email && r.isActive) =
      some user → user.id ≠ u := by
    intro email user hfind
    have hp := List.find?_some hfind
    rw [Bool.and_eq_true] at hp
    exact h.ne_of_active (List.mem_of_find?_eq_some hfind) hp.2
  rw [login, findByEmail, Tx.run_bind_ok (Tx.run_query _ _)]
  apply not_issued_bind (π := id) (Tx.keeps_okOr _ _ _)
  intro user d hrun
  obtain ⟨hfind, rfl⟩ := Tx.run_okOr_ok.mp hrun
  apply not_issued_bind (π := id) (Tx.keeps_done _ _)
  intro _ d _
  apply not_issued_bind (π := id) (keeps_recordTermsAcceptance _ _)
  intro _ d _ hissued
  exact hactive _ user hfind (issued_mintTokens.mp hissued).1

theorem admitted_ok {existing user : User} (h : admitted existing = .ok user) :
    user = existing ∧ existing.isActive = true := by
  unfold admitted at h
  split at h
  · cases h
  split at h
  · cases h
  rename_i hactive _
  cases h
  exact ⟨rfl, by simpa using hactive⟩

theorem keeps_db_refuseIfLimited (ip : String) (now : Int) :
    (refuseIfLimited ip now).Keeps Server.db := by
  apply Tx.keeps_bind (Tx.writes_exec (fun _ => rfl) _)
  intro limited
  split <;> trivial

theorem createUser_ok {new : NewUser} {maxUsers : Option Nat} {user : User}
    (h : (createUser new maxUsers).run s = (.ok user, s')) :
    user = new.row ∧ s.users.get new.id = none := by
  rcases run_createUser_cases new maxUsers s with ⟨e, he⟩ | ⟨t, hinsert, hok⟩
  · rw [he] at h
    cases h
  · rw [hok] at h
    cases h
    exact ⟨rfl, Table.get_eq_none_of_insert hinsert⟩

/-- A device logs in to an active account, or to a new one. -/
theorem registerDevice_ne {s s' : Server} (h : Suspended u s.db) {env : AccountEnv}
    {call : DeviceLoginCall} {user : User}
    (hrun : (registerDevice env call).run s = (.ok (some user), s')) : user.id ≠ u := by
  obtain ⟨⟨⟩, s₁, hlimit, hrun⟩ := Tx.run_bind_eq_ok hrun
  obtain ⟨passwordHash, s₂, hhash, hrun⟩ := Tx.run_bind_eq_ok hrun
  obtain ⟨approvalRequired, s₃, happroval, hrun⟩ := Tx.run_bind_eq_ok hrun
  obtain ⟨maxUsers, s₄, hmax, hrun⟩ := Tx.run_bind_eq_ok hrun
  obtain ⟨created, s₅, hcreate, hrun⟩ := Tx.run_bind_eq_ok hrun
  have hdb₁ := (keeps_db_refuseIfLimited _ _).of_run hlimit
  have hdb₂ := (Tx.keeps_done Server.db _).of_run hhash
  have hdb₃ := (keeps_onDb (Tx.keeps_query id _)).of_run happroval
  have hdb₄ := (keeps_onDb (Tx.keeps_query id _)).of_run hmax
  have hdb : s₄.db = s.db := hdb₄.trans (hdb₃.trans (hdb₂.trans hdb₁))
  rw [Tx.run_attempt, run_onDb] at hcreate
  cases hcreate
  dsimp only at hrun
  split at hrun
  · rename_i created hcreated
    obtain ⟨⟨⟩, s₅, -, hrun⟩ := Tx.run_bind_eq_ok hrun
    rw [Tx.run_pure] at hrun
    have huser : created = user := by
      cases approvalRequired <;> simp_all
    obtain ⟨row, hrow, -⟩ := h
    obtain ⟨rfl, hfree⟩ := createUser_ok (Prod.ext hcreated rfl)
    rw [hdb] at hfree
    intro hid
    rw [← hid, ← huser] at hrow
    cases hfree.symm.trans hrow
  · have hsuspended : Suspended u ((createUser
        (newDeviceUser env call passwordHash approvalRequired) maxUsers).run s₄.db).2 := by
      apply Tx.Writes.run (I := Suspended u) _ (hdb ▸ h)
      exact Tx.writes_mono (fun w hw d hd => hd.adds (hw d)) (writes_createUser _ _)
    obtain ⟨found, s₅, hfound, hrun⟩ := Tx.run_bind_eq_ok hrun
    rw [run_onDb, findByDeviceAuthPubkey, Tx.run_query] at hfound
    obtain ⟨existing, s₆, hexisting, hrun⟩ := Tx.run_bind_eq_ok hrun
    obtain ⟨admitted, s₇, hadmit, hanswer⟩ := Tx.run_bind_eq_ok hrun
    cases hfound
    cases hanswer
    obtain ⟨hfind, -⟩ := Tx.run_okOr_ok.mp hexisting
    obtain ⟨rfl, hactive⟩ := admitted_ok (congrArg Prod.fst hadmit)
    exact hsuspended.ne_of_active (List.mem_of_find?_eq_some hfind) hactive
  · cases hrun

theorem deviceUser_ne {s s' : Server} (h : Suspended u s.db) {env : AccountEnv}
    {call : DeviceLoginCall} {found : Option User} {user : User}
    (hfound : found = s.db.users.rows.find?
      (fun r => r.deviceAuthPubkey = some (trim call.deviceAuthPubkey)))
    (hrun : (deviceUser env call found).run s = (.ok (some user), s')) : user.id ≠ u := by
  cases found with
  | none => exact registerDevice_ne h hrun
  | some existing =>
    obtain ⟨admitted, s₁, hadmit, hanswer⟩ := Tx.run_bind_eq_ok hrun
    cases hanswer
    obtain ⟨rfl, hactive⟩ := admitted_ok (congrArg Prod.fst hadmit)
    exact h.ne_of_active (List.mem_of_find?_eq_some hfound.symm) hactive

/-- The login of a device touches neither tokens nor agent tokens before it mints. -/
theorem keeps_deviceUser {τ : Type} {π : Db → τ} (hπ : ∀ d t, π { d with users := t } = π d)
    (env : AccountEnv) (call : DeviceLoginCall) (found : Option User) :
    (deviceUser env call found).Keeps (fun s => π s.db) := by
  have hdb : ∀ {α : Type} {t : Handler α}, t.Keeps Server.db → t.Keeps (fun s => π s.db) :=
    fun h => h.map π
  cases found with
  | some existing => exact Tx.keeps_bind (Tx.keeps_done _ _) (fun _ => Tx.keeps_pure _ _)
  | none =>
    apply Tx.keeps_bind (hdb (keeps_db_refuseIfLimited _ _))
    intro _
    apply Tx.keeps_bind (Tx.keeps_done _ _)
    intro passwordHash
    apply Tx.keeps_bind (keeps_onDb (Tx.keeps_query _ _))
    intro approvalRequired
    apply Tx.keeps_bind (keeps_onDb (Tx.keeps_query _ _))
    intro maxUsers
    apply Tx.keeps_bind (Tx.keeps_attempt (keeps_onDb (keeps_createUser hπ _ _)))
    intro created
    split
    · exact Tx.keeps_bind (Tx.writes_exec (fun _ => rfl) _) (fun _ => Tx.keeps_pure _ _)
    · apply Tx.keeps_bind (keeps_onDb (Tx.keeps_query _ _))
      intro found
      apply Tx.keeps_bind (Tx.keeps_okOr _ _ found)
      intro existing
      exact Tx.keeps_bind (Tx.keeps_done _ _) (fun _ => Tx.keeps_pure _ _)
    · trivial

theorem deviceLogin_not_issued {s : Server} (h : Suspended u s.db) (env : AccountEnv)
    (call : DeviceLoginCall) : ¬ Issued u s.db ((deviceLogin env call).run s).2.db := by
  apply not_issued_bind (π := Server.db) (Tx.keeps_done _ _)
  intro _ s₁ hcheck
  have hs₁ : s₁ = s := (Tx.keeps_done id _).of_run hcheck
  subst hs₁
  apply not_issued_bind (π := Server.db) (keeps_onDb (Tx.keeps_query _ _))
  intro found s₂ hfound
  rw [run_onDb] at hfound
  cases hfound
  apply not_issued_bind (π := Server.db) (keeps_deviceUser (fun _ _ => rfl) env call _)
  intro user s₃ huser
  cases user with
  | none => exact not_issued_of_eq rfl
  | some user =>
    have hne := deviceUser_ne h rfl huser
    apply not_issued_bind (π := Server.db) (keeps_onDb (keeps_recordTermsAcceptance _ _))
    intro _ s₄ _
    rw [Tx.run_bind_keeps (π := Server.db) _ (fun _ => Tx.keeps_pure _ _), run_onDb]
    exact fun hissued => hne (issued_mintTokens.mp hissued).1

/-! ## Extractors -/

theorem letIn_ok {found : Option User} {user : User} (h : letIn found = .ok user) :
    found = some user ∧ user.isActive = true := by
  unfold letIn at h
  split at h
  · split at h
    · rename_i hactive
      cases h
      exact ⟨rfl, hactive⟩
    · cases h
  · cases h

theorem claimedUser_ok {env : AuthEnv} {claims : Claims} {id : Uuid} :
    claimedUser env claims = .ok id ↔ claims.userId env = .ok id := by
  unfold claimedUser
  cases claims.userId env <;> simp [Except.mapError]

theorem userId_ok {env : AuthEnv} {claims : Claims} {id : Uuid} :
    claims.userId env = .ok id ↔ env.parseUuid claims.sub = .ok id := by
  unfold Claims.userId
  cases env.parseUuid claims.sub <;> simp

theorem lookup_ok {env : AuthEnv} {claims claims' : Claims} {f : Query Claims}
    (h : (do
      let userId ← Tx.done (claimedUser env claims)
      let found ← findById userId
      let _ ← Tx.done (letIn found)
      f : Query Claims).run s = (.ok claims', s')) :
    f.run s = (.ok claims', s') ∧ ∃ id user, claims.userId env = .ok id ∧
      s.users.get id = some user ∧ user.isActive = true := by
  obtain ⟨userId, s₁, hclaimed, hlookup⟩ := Tx.run_bind_eq_ok h
  have hs₁ : s₁ = s := (Tx.keeps_done id _).of_run hclaimed
  rw [findById, Tx.run_bind_ok (Tx.run_query _ _), hs₁] at hlookup
  obtain ⟨user, s₂, hletIn, hrest⟩ := Tx.run_bind_eq_ok hlookup
  have hs₂ : s₂ = s := (Tx.keeps_done id _).of_run hletIn
  obtain ⟨hget, hactive⟩ := letIn_ok (congrArg Prod.fst hletIn)
  rw [hs₂] at hrest
  exact ⟨hrest, userId, user, claimedUser_ok.mp (congrArg Prod.fst hclaimed), hget, hactive⟩

theorem authUser_ok {env : AuthEnv} {authorization : Option String} {now : Int} {claims : Claims}
    (h : (authUser env authorization now).run s = (.ok claims, s')) :
    s' = s ∧ ∃ id user, claims.userId env = .ok id ∧ s.users.get id = some user ∧
      user.isActive = true := by
  obtain ⟨claims', s₁, hclaims, h⟩ := Tx.run_bind_eq_ok h
  have hs₁ : s₁ = s := (Tx.keeps_done id _).of_run hclaims
  rw [hs₁] at h
  obtain ⟨hpure, hfound⟩ := lookup_ok h
  cases hpure
  exact ⟨rfl, hfound⟩

theorem keeps_lookup {τ : Type} {π : Db → τ} (env : AuthEnv) (claims : Claims) {f : Query Claims}
    (hf : f.Keeps π) : (do
      let userId ← Tx.done (claimedUser env claims)
      let found ← findById userId
      let _ ← Tx.done (letIn found)
      f : Query Claims).Keeps π := by
  apply Tx.keeps_bind (Tx.keeps_done _ _)
  intro userId
  apply Tx.keeps_bind (Tx.keeps_query _ _)
  intro found
  exact Tx.keeps_bind (Tx.keeps_done _ _) (fun _ => hf)

theorem keeps_authUser {τ : Type} {π : Db → τ} (env : AuthEnv) (authorization : Option String)
    (now : Int) : (authUser env authorization now).Keeps π :=
  Tx.keeps_bind (Tx.keeps_done _ _) (fun claims => keeps_lookup env claims (Tx.keeps_pure _ _))

theorem Suspended.claims_ne (h : Suspended u s) {env : AuthEnv} {claims : Claims}
    (hclaims : ∃ id user, claims.userId env = .ok id ∧ s.users.get id = some user ∧
      user.isActive = true) : claims.userId env ≠ .ok u := by
  obtain ⟨id, user, hid, hget, hactive⟩ := hclaims
  intro hu
  rw [hid] at hu
  cases hu
  have := h.not_active hget
  simp [hactive] at this

/-- The id of the creator of every agent token is read back from its text. -/
def AgentIds (env : AuthEnv) (s : Db) : Prop :=
  ∀ r ∈ s.agentTokens.rows, ∀ id, env.parseUuid (uuidString r.createdBy) = .ok id →
    id = r.createdBy

theorem activeAdmin_ok_iff {found : Option User} {user : User} :
    activeAdmin found = .ok user ↔
      found = some user ∧ user.isActive = true ∧ user.role = "admin" := by
  cases found with
  | none => simp [activeAdmin]
  | some u =>
    simp only [activeAdmin, Option.some.injEq]
    split
    · rename_i h
      constructor
      · rintro ⟨⟩
        exact ⟨rfl, h⟩
      · rintro ⟨rfl, -⟩
        rfl
    · rename_i h
      refine iff_of_false (by simp) ?_
      rintro ⟨rfl, hu⟩
      exact h hu

theorem agentClaims_ok {env : AuthEnv} {token : String} {times : AdminTimes} {auth : AdminAuth}
    (h : (agentClaims env token times).run s = (.ok auth, s')) :
    ∃ r ∈ s.agentTokens.rows, ∃ creator iat exp, s.users.get r.createdBy = some creator ∧
      creator.isActive = true ∧
      auth = .agentToken (Claims.new r.createdBy creator.role iat exp) := by
  rw [agentClaims, verifyAgentToken, Tx.bind_assoc, Tx.run_bind_ok (Tx.run_query _ _)] at h
  obtain ⟨found, s₁, hfound, h₁⟩ := Tx.run_bind_eq_ok h
  obtain ⟨agentToken, s₂, htoken, h₂⟩ := Tx.run_bind_eq_ok h₁
  rw [findById, Tx.run_bind_ok (Tx.run_query _ _)] at h₂
  obtain ⟨creator, s₃, hcreator, h₃⟩ := Tx.run_bind_eq_ok h₂
  cases hfound
  obtain ⟨hfilter, rfl⟩ := Tx.run_okOr_ok.mp htoken
  obtain ⟨hget, hactive, -⟩ := activeAdmin_ok_iff.mp (congrArg Prod.fst hcreator)
  cases h₃
  have hfind := (Option.filter_eq_some_iff.mp hfilter).1
  exact ⟨agentToken, List.mem_of_find?_eq_some hfind, creator, _, _, hget, hactive, rfl⟩

theorem adminUser_ok {env : AuthEnv} {authorization : Option String} {times : AdminTimes}
    {claims : Claims} (h : (adminUser env authorization times).run s = (.ok claims, s'))
    (hsuspended : Suspended u s) (hids : AgentIds env s) : claims.userId env ≠ .ok u := by
  obtain ⟨auth, s₁, hauth, hadmit⟩ := Tx.run_bind_eq_ok h
  obtain ⟨token, s₂, htoken, hverify⟩ := Tx.run_bind_eq_ok hauth
  have hs₂ : s₂ = s := (Tx.keeps_done id _).of_run htoken
  rw [hs₂] at hverify
  split at hverify
  · -- the claims of a token, whose account is looked up
    cases hverify
    obtain ⟨hpure, hfound⟩ := lookup_ok hadmit
    split at hpure
    · cases hpure
      exact hsuspended.claims_ne hfound
    · cases hpure
  · split at hverify
    · obtain ⟨r, hr, creator, iat, exp, hget, hactive, rfl⟩ := agentClaims_ok hverify
      rw [admitAdmin, Tx.run_pure] at hadmit
      have hclaims := Except.ok.inj (Prod.mk.inj hadmit).1
      intro hu
      rw [← hclaims, userId_ok] at hu
      rw [← hids r hr u hu] at hget
      have := hsuspended.not_active hget
      simp [hactive] at this
    · cases hverify

theorem keeps_adminUser {τ : Type} {π : Db → τ} (env : AuthEnv) (authorization : Option String)
    (times : AdminTimes) : (adminUser env authorization times).Keeps π := by
  apply Tx.keeps_bind
  · apply Tx.keeps_bind (Tx.keeps_done _ _)
    intro token
    split
    · trivial
    split
    · apply Tx.keeps_bind (Tx.keeps_bind (Tx.keeps_query _ _) (fun _ => Tx.keeps_pure _ _))
      intro found
      apply Tx.keeps_bind (Tx.keeps_okOr _ _ found)
      intro agentToken
      apply Tx.keeps_bind (Tx.keeps_query _ _)
      intro creator
      exact Tx.keeps_bind (Tx.keeps_done _ _) (fun _ => Tx.keeps_pure _ _)
    · trivial
  · intro auth
    cases auth with
    | agentToken claims => exact Tx.keeps_pure _ _
    | jwt claims =>
      apply keeps_lookup
      split <;> trivial

theorem keeps_wsHandshake {τ : Type} {π : Db → τ} (env : AuthEnv) (token : String) (now : Int) :
    (wsHandshake env token now).Keeps π := by
  apply Tx.keeps_bind (Tx.keeps_done _ _)
  intro claims
  apply Tx.keeps_bind (Tx.keeps_done _ _)
  intro userId
  apply Tx.keeps_bind (Tx.keeps_query _ _)
  intro found
  exact Tx.keeps_bind (Tx.keeps_okOr _ _ found) (fun _ => Tx.keeps_pure _ _)

theorem approveQrLogin_not_issued (h : Suspended u s) (env : AuthEnv) (call : ApproveQrCall) :
    ¬ Issued u s ((approveQrLogin env call).run s).2 := by
  rw [approveQrLogin, Tx.run_bind]
  rcases hauth : (authUser env call.authorization call.now).run s with ⟨e | claims, s₁⟩
  · exact not_issued_of_eq ((keeps_authUser env call.authorization call.now).of_run hauth)
  obtain ⟨rfl, hclaims⟩ := authUser_ok hauth
  dsimp only
  apply not_issued_bind (π := id) (Tx.keeps_done _ _)
  intro record s₂ hrecord
  have hs₂ : s₂ = s₁ := (Tx.keeps_done id _).of_run hrecord
  subst hs₂
  split
  · exact not_issued_of_eq rfl
  apply not_issued_bind (π := id) (Tx.keeps_done _ _)
  intro userId s₃ huserId
  rw [Tx.run_bind_keeps (π := id)]
  · intro hissued
    have hid : claims.userId env = .ok u :=
      (issued_mintTokens.mp hissued).1 ▸ congrArg Prod.fst huserId
    exact h.claims_ne hclaims hid
  · intro tokens
    exact Tx.keeps_bind (Tx.keeps_done _ _) (fun _ => Tx.keeps_pure _ _)

/-! ## The entry points without the check -/

theorem get_revokeWhere_eq_none (p : RefreshToken → Prop) [DecidablePred p] (id : Uuid) :
    (revokeWhere p s).refreshTokens.get id = none ↔ s.refreshTokens.get id = none := by
  rw [get_revokeWhere, Option.map_eq_none_iff]

theorem tokenByHash_revokeWhere_eq_none (p : RefreshToken → Prop) [DecidablePred p]
    (hash : String) : tokenByHash hash (revokeWhere p s) = none ↔ tokenByHash hash s = none := by
  have hhash : ∀ r : RefreshToken, (revokeIf p r).tokenHash = r.tokenHash := by
    intro r
    unfold revokeIf
    split <;> rfl
  simp [tokenByHash, revokeWhere, Table.map, hhash]

theorem issued_revokeWhere (p : RefreshToken → Prop) [DecidablePred p] :
    Issued u (revokeWhere p s) s' ↔ Issued u s s' := by
  unfold Issued
  simp only [get_revokeWhere_eq_none]

theorem not_issued_revokeWhere (p : RefreshToken → Prop) [DecidablePred p] :
    ¬ Issued u s (revokeWhere p s) := by
  rw [← issued_revokeWhere p]
  exact not_issued_of_eq rfl

theorem mintable_revokeWhere (p : RefreshToken → Prop) [DecidablePred p] {tokens : TokenEnv}
    {userId : Uuid} {role : String} {mint : Minting} :
    Mintable tokens userId role mint (revokeWhere p s) ↔ Mintable tokens userId role mint s := by
  constructor
  · intro h
    exact ⟨h.issues, (get_revokeWhere_eq_none p _).mp h.freshId,
      (tokenByHash_revokeWhere_eq_none p _).mp h.freshHash, h.user⟩
  · intro h
    exact ⟨h.issues, (get_revokeWhere_eq_none p _).mpr h.freshId,
      (tokenByHash_revokeWhere_eq_none p _).mpr h.freshHash, h.user⟩

/-- A refresh token of the account that can be exchanged. -/
structure Exchangeable (tokens : TokenEnv) (u : Uuid) (s : Db) (call : RefreshCall)
    (stored : RefreshToken) (user : User) : Prop where
  found : tokenByHash (tokens.hashToken call.refreshToken) s = some stored
  owner : stored.userId = u
  unrevoked : stored.revoked = false
  unexpired : ¬ stored.expiresAt < call.now
  account : s.users.get u = some user
  mintable : Mintable tokens u user.role call.toMinting s

/-- `refresh` issues tokens for whatever account the token belongs to. -/
theorem refresh_issued_iff {tokens : TokenEnv} {call : RefreshCall} :
    Issued u s ((refresh tokens call).run s).2 ↔
      ∃ stored user, Exchangeable tokens u s call stored user := by
  rw [refresh, Tx.run_bind_ok (Tx.run_query _ _)]
  rcases hfound : tokenByHash (tokens.hashToken call.refreshToken) s with _ | stored
  · constructor
    · exact fun h => absurd h (not_issued_of_eq rfl)
    · rintro ⟨stored, user, h⟩
      cases hfound.symm.trans h.found
  have hstored : ∀ stored' user, Exchangeable tokens u s call stored' user → stored' = stored :=
    fun stored' user h => Option.some.inj (h.found.symm.trans hfound)
  change Issued u s ((if stored.revoked = true then _ else _ : Query TokenResponse).run s).2 ↔ _
  by_cases hrevoked : stored.revoked = true
  · rw [if_pos hrevoked]
    constructor
    · exact fun h => absurd h (not_issued_revokeWhere _)
    · rintro ⟨stored', user, h⟩
      obtain rfl := hstored stored' user h
      simp [h.unrevoked] at hrevoked
  rw [if_neg hrevoked]
  by_cases hexpired : stored.expiresAt < call.now
  · rw [if_pos hexpired]
    constructor
    · exact fun h => absurd h (not_issued_of_eq rfl)
    · rintro ⟨stored', user, h⟩
      obtain rfl := hstored stored' user h
      exact absurd hexpired h.unexpired
  have hrevoke : (revokeToken stored.id).run s = (.ok (), revokeWhere (fun r => r.id = stored.id) s) :=
    Query.run_exec_ok.mpr rfl
  rw [if_neg hexpired, Tx.run_bind_ok hrevoke, Tx.run_bind_ok (Tx.run_query _ _)]
  change Issued u s ((Tx.okOr .unauthorized (s.users.get stored.userId) >>= _ :
    Query TokenResponse).run _).2 ↔ _
  rcases huser : s.users.get stored.userId with _ | user
  · constructor
    · exact fun h => absurd h (not_issued_revokeWhere _)
    · rintro ⟨stored', user, h⟩
      obtain rfl := hstored stored' user h
      rw [h.owner, h.account] at huser
      cases huser
  · have hid : user.id = stored.userId := Table.key_of_get huser
    rw [Tx.run_bind_ok (Tx.run_okOr_ok.mpr ⟨rfl, rfl⟩),
      ← issued_revokeWhere (fun r => r.id = stored.id), issued_mintTokens, mintable_revokeWhere, hid]
    constructor
    · rintro ⟨rfl, hmintable⟩
      exact ⟨stored, user, hfound, rfl, by simpa using hrevoked, hexpired, huser, hmintable⟩
    · rintro ⟨stored', user', h⟩
      obtain rfl := hstored stored' user' h
      rw [h.owner, h.account] at huser
      cases huser
      exact ⟨h.owner, h.owner ▸ h.mintable⟩

/-- The handshake lets in whoever has an account. -/
theorem wsHandshake_iff (h : Suspended u s) {env : AuthEnv} {token : String} {now : Int} :
    ((wsHandshake env token now).run s).1 = .ok u ↔
      ∃ claims, env.verifyAccessToken token now = some claims ∧ claims.userId env = .ok u := by
  rw [wsHandshake, verified]
  rcases env.verifyAccessToken token now with _ | claims
  · constructor
    · exact fun h => (by cases h)
    · exact fun ⟨claims, h, _⟩ => (by cases h)
  rw [Tx.run_bind_ok (Tx.run_done _ _), Tx.run_bind, Tx.run_done]
  rcases hclaims : claims.userId env with e | id
  · constructor
    · exact fun h => (by cases h)
    · rintro ⟨claims', hverify, hid⟩
      cases hverify
      cases hclaims.symm.trans hid
  have hrun : ((findById id >>= fun found => Tx.okOr .unauthorized found >>= fun _ =>
      (pure id : Query Uuid)).run s).1 = .ok u ↔ id = u ∧ (s.users.get id).isSome := by
    rw [findById, Tx.run_bind_ok (Tx.run_query _ _)]
    cases s.users.get id <;> simp [Tx.run_bind]
  obtain ⟨row, hrow, -⟩ := h
  refine hrun.trans ⟨?_, ?_⟩
  · rintro ⟨rfl, -⟩
    exact ⟨claims, rfl, hclaims⟩
  · rintro ⟨claims', hverify, hid⟩
    cases hverify
    cases hclaims.symm.trans hid
    simp [hrow]

/-! ## Requests -/

/-- A request to one of the entry points. -/
inductive AuthRequest where
  | login (call : LoginCall)
  | deviceLogin (call : DeviceLoginCall)
  | refresh (call : RefreshCall)
  | approveQrLogin (call : ApproveQrCall)
  | authUser (authorization : Option String) (now : Int)
  | adminUser (authorization : Option String) (times : AdminTimes)
  | wsHandshake (token : String) (now : Int)

/-- The program of a request, and the account that it is authenticated as. -/
def AuthRequest.program (env : AuthEnv) : AuthRequest → Handler (Option Uuid)
  | .login call => do
    let _ ← onDb (Auth.login env call)
    pure none
  | .deviceLogin call => do
    let _ ← Accounts.deviceLogin env.toAccountEnv call
    pure none
  | .refresh call => do
    let _ ← onDb (Auth.refresh env.tokens call)
    pure none
  | .approveQrLogin call => do
    let _ ← onDb (Auth.approveQrLogin env call)
    pure none
  | .authUser authorization now => do
    let claims ← onDb (Auth.authUser env authorization now)
    let userId ← Tx.done (claims.userId env)
    pure (some userId)
  | .adminUser authorization times => do
    let claims ← onDb (Auth.adminUser env authorization times)
    let userId ← Tx.done (claims.userId env)
    pure (some userId)
  | .wsHandshake token now => do
    let userId ← onDb (Auth.wsHandshake env token now)
    pure (some userId)

/-- The request is authenticated as the account, or gets new tokens for it. -/
def AuthRequest.Admits (env : AuthEnv) (u : Uuid) (s : Server) (r : AuthRequest) : Prop :=
  ((r.program env).run s).1 = .ok (some u) ∨ Issued u s.db ((r.program env).run s).2.db

/-- The requests for an account whose activity nobody checks. -/
inductive AuthRequest.Unchecked (env : AuthEnv) (u : Uuid) (s : Db) : AuthRequest → Prop
  | refresh {call : RefreshCall} {stored : RefreshToken} {user : User}
      (exchange : Exchangeable env.tokens u s call stored user) :
      AuthRequest.Unchecked env u s (.refresh call)
  | wsHandshake {token : String} {now : Int} {claims : Claims}
      (valid : env.verifyAccessToken token now = some claims)
      (account : claims.userId env = .ok u) :
      AuthRequest.Unchecked env u s (.wsHandshake token now)

theorem ne_of_tokens {α : Type} (t : Handler α) (s : Server) :
    ((t >>= fun _ => (pure none : Handler (Option Uuid))).run s).1 ≠ .ok (some u) := by
  rw [Tx.run_bind]
  rcases t.run s with ⟨_ | _, _⟩ <;> simp

theorem db_of_tokens {α : Type} (t : Handler α) (s : Server) :
    ((t >>= fun _ => (pure none : Handler (Option Uuid))).run s).2.db = (t.run s).2.db :=
  Tx.run_bind_keeps (π := Server.db) t (fun _ => Tx.keeps_pure _ _) s

theorem extractor_refuses {env : AuthEnv} {t : Query Claims} {s : Server}
    (hkeeps : t.Keeps Db.refreshTokens)
    (hne : ∀ claims d, t.run s.db = (.ok claims, d) → claims.userId env ≠ .ok u) :
    ¬ (((onDb t >>= fun claims => Tx.done (claims.userId env) >>= fun userId =>
        (pure (some userId) : Handler (Option Uuid))).run s).1 = .ok (some u) ∨
      Issued u s.db ((onDb t >>= fun claims => Tx.done (claims.userId env) >>= fun userId =>
        (pure (some userId) : Handler (Option Uuid))).run s).2.db) := by
  rintro (h | h)
  · obtain ⟨claims, s₁, hclaims, hrest⟩ := Tx.run_bind_eq_ok (Prod.ext h rfl)
    obtain ⟨id, s₂, hid, hpure⟩ := Tx.run_bind_eq_ok hrest
    rw [run_onDb] at hclaims
    cases hpure
    have hfst : (t.run s.db).1 = .ok claims := congrArg Prod.fst hclaims
    exact hne claims _ (Prod.ext hfst rfl) (congrArg Prod.fst hid)
  · refine not_issued_of_eq ?_ h
    apply Tx.Keeps.run (π := fun s : Server => s.db.refreshTokens)
    apply Tx.keeps_bind (keeps_onDb hkeeps)
    exact fun claims => Tx.keeps_bind (Tx.keeps_done _ _) (fun _ => Tx.keeps_pure _ _)

/-- A suspended account is let in by the unchecked requests only. -/
theorem admits_iff_unchecked {env : AuthEnv} {s : Server} (h : Suspended u s.db)
    (hids : AgentIds env s.db) (r : AuthRequest) :
    r.Admits env u s ↔ r.Unchecked env u s.db := by
  have hnone : ∀ {r : AuthRequest}, ¬ r.Admits env u s → (∀ call, r ≠ .refresh call) →
      (∀ token now, r ≠ .wsHandshake token now) →
      (r.Admits env u s ↔ r.Unchecked env u s.db) := by
    intro r hr hrefresh hws
    refine ⟨fun h => absurd h hr, fun h => ?_⟩
    cases h with
    | refresh => exact absurd rfl (hrefresh _)
    | wsHandshake => exact absurd rfl (hws _ _)
  cases r with
  | login call =>
    refine hnone ?_ (by simp) (by simp)
    rintro (hr | hr)
    · exact ne_of_tokens _ s hr
    · rw [AuthRequest.program, db_of_tokens, run_onDb] at hr
      exact login_not_issued h env call hr
  | deviceLogin call =>
    refine hnone ?_ (by simp) (by simp)
    rintro (hr | hr)
    · exact ne_of_tokens _ s hr
    · rw [AuthRequest.program, db_of_tokens] at hr
      exact deviceLogin_not_issued h _ call hr
  | refresh call =>
    rw [AuthRequest.Admits, AuthRequest.program, db_of_tokens, run_onDb]
    constructor
    · rintro (hr | hr)
      · exact absurd hr (ne_of_tokens _ s)
      · obtain ⟨stored, user, hexchange⟩ := refresh_issued_iff.mp hr
        exact .refresh hexchange
    · rintro ⟨hexchange⟩
      exact .inr (refresh_issued_iff.mpr ⟨_, _, hexchange⟩)
  | approveQrLogin call =>
    refine hnone ?_ (by simp) (by simp)
    rintro (hr | hr)
    · exact ne_of_tokens _ s hr
    · rw [AuthRequest.program, db_of_tokens, run_onDb] at hr
      exact approveQrLogin_not_issued h env call hr
  | authUser authorization now =>
    refine hnone ?_ (by simp) (by simp)
    apply extractor_refuses (keeps_authUser _ _ _)
    intro claims d hrun
    exact h.claims_ne (authUser_ok hrun).2
  | adminUser authorization times =>
    refine hnone ?_ (by simp) (by simp)
    apply extractor_refuses (keeps_adminUser _ _ _)
    intro claims d hrun
    exact adminUser_ok hrun h hids
  | wsHandshake token now =>
    have hfst : (((AuthRequest.wsHandshake token now).program env).run s).1 = .ok (some u) ↔
        ((Auth.wsHandshake env token now).run s.db).1 = .ok u := by
      rw [AuthRequest.program, Tx.run_bind, run_onDb]
      cases ((Auth.wsHandshake env token now).run s.db).1 <;> simp
    have hkeeps : ¬ Issued u s.db
        (((AuthRequest.wsHandshake token now).program env).run s).2.db := by
      apply not_issued_of_eq
      apply Tx.Keeps.run (π := fun s : Server => s.db.refreshTokens)
      exact Tx.keeps_bind (keeps_onDb (keeps_wsHandshake _ _ _)) (fun _ => Tx.keeps_pure _ _)
    rw [AuthRequest.Admits, hfst, wsHandshake_iff h]
    constructor
    · rintro (⟨claims, hvalid, hid⟩ | hr)
      · exact .wsHandshake hvalid hid
      · exact absurd hr hkeeps
    · intro hunchecked
      cases hunchecked with
      | wsHandshake hvalid hid => exact .inl ⟨_, hvalid, hid⟩

/-! ## Runs -/

theorem keeps_login (env : AuthEnv) (call : LoginCall) :
    (login env call).Keeps Db.agentTokens := by
  apply Tx.keeps_bind (Tx.keeps_query _ _)
  intro found
  apply Tx.keeps_bind (Tx.keeps_okOr _ _ found)
  intro user
  apply Tx.keeps_bind (Tx.keeps_done _ _)
  intro _
  apply Tx.keeps_bind (keeps_recordTermsAcceptance _ _)
  exact fun _ => keeps_mintTokens (fun _ _ => rfl) _ _ _ _ _

theorem keeps_deviceLogin (env : AccountEnv) (call : DeviceLoginCall) :
    (deviceLogin env call).Keeps (fun s => s.db.agentTokens) := by
  apply Tx.keeps_bind (Tx.keeps_done _ _)
  intro _
  apply Tx.keeps_bind (keeps_onDb (Tx.keeps_query _ _))
  intro found
  apply Tx.keeps_bind (keeps_deviceUser (fun _ _ => rfl) env call found)
  intro user
  cases user with
  | none => exact Tx.keeps_pure _ _
  | some user =>
    apply Tx.keeps_bind (keeps_onDb (keeps_recordTermsAcceptance _ _))
    intro _
    apply Tx.keeps_bind (keeps_onDb (keeps_mintTokens (fun _ _ => rfl) _ _ _ _ _))
    exact fun _ => Tx.keeps_pure _ _

theorem keeps_approveQrLogin (env : AuthEnv) (call : ApproveQrCall) :
    (approveQrLogin env call).Keeps Db.agentTokens := by
  apply Tx.keeps_bind (keeps_authUser _ _ _)
  intro claims
  apply Tx.keeps_bind (Tx.keeps_done _ _)
  intro record
  split
  · trivial
  apply Tx.keeps_bind (Tx.keeps_done _ _)
  intro userId
  apply Tx.keeps_bind (keeps_mintTokens (fun _ _ => rfl) _ _ _ _ _)
  exact fun tokens => Tx.keeps_bind (Tx.keeps_done _ _) (fun _ => Tx.keeps_pure _ _)

/-- What happens to a server: a request, or anything else that leaves the ids of the creators
of agent tokens readable. -/
inductive Step (env : AuthEnv) where
  | request (r : AuthRequest)
  | other (f : Server → Server) (keeps : ∀ s, AgentIds env s.db → AgentIds env (f s).db)

def Step.apply {env : AuthEnv} (s : Server) : Step env → Server
  | .request r => ((r.program env).run s).2
  | .other f _ => f s

def Step.Admits {env : AuthEnv} (u : Uuid) (s : Server) : Step env → Prop
  | .request r => r.Admits env u s
  | .other _ _ => False

def Step.Unchecked {env : AuthEnv} (u : Uuid) (s : Server) : Step env → Prop
  | .request r => r.Unchecked env u s.db
  | .other _ _ => False

/-- `P` holds of every step of a run that is made while the account is suspended. -/
def WhileSuspended {env : AuthEnv} (u : Uuid) (P : Server → Step env → Prop) :
    Server → List (Step env) → Prop
  | _, [] => True
  | s, step :: steps =>
    (Suspended u s.db → P s step) ∧ WhileSuspended u P (step.apply s) steps

section
-- what a request writes is read off its statements, without running it
attribute [local irreducible] Tx.Writes

theorem keeps_agentTokens (env : AuthEnv) (r : AuthRequest) :
    (r.program env).Keeps (fun s => s.db.agentTokens) := by
  have hquery : ∀ {α β : Type} {q : Query α} {f : α → Handler β}, q.Keeps Db.agentTokens →
      (∀ a, (f a).Keeps (fun s => s.db.agentTokens)) →
      (onDb q >>= f).Keeps (fun s => s.db.agentTokens) :=
    fun hq hf => Tx.keeps_bind (keeps_onDb hq) hf
  cases r with
  | login call => exact hquery (keeps_login env call) (fun _ => Tx.keeps_pure _ _)
  | deviceLogin call =>
    exact Tx.keeps_bind (keeps_deviceLogin _ call) (fun _ => Tx.keeps_pure _ _)
  | refresh call =>
    exact hquery (keeps_refresh (fun _ _ => rfl) _ call) (fun _ => Tx.keeps_pure _ _)
  | approveQrLogin call =>
    exact hquery (keeps_approveQrLogin env call) (fun _ => Tx.keeps_pure _ _)
  | authUser authorization now =>
    refine hquery (keeps_authUser env authorization now) (fun claims => ?_)
    exact Tx.keeps_bind (Tx.keeps_done _ _) (fun _ => Tx.keeps_pure _ _)
  | adminUser authorization times =>
    refine hquery (keeps_adminUser env authorization times) (fun claims => ?_)
    exact Tx.keeps_bind (Tx.keeps_done _ _) (fun _ => Tx.keeps_pure _ _)
  | wsHandshake token now =>
    exact hquery (keeps_wsHandshake env token now) (fun _ => Tx.keeps_pure _ _)

end

theorem AgentIds.step {env : AuthEnv} {s : Server} (h : AgentIds env s.db) (step : Step env) :
    AgentIds env (step.apply s).db := by
  cases step with
  | request r =>
    rw [Step.apply, AgentIds, (keeps_agentTokens env r).run s]
    exact h
  | other f hf => exact hf s h

/-- While an account is suspended no request is authenticated as it or gets new tokens for it,
in every run in which none of these requests exchanges one of its refresh tokens or opens a
WebSocket with one of its access tokens, and in no other. -/
theorem suspension_effective_iff (env : AuthEnv) (u : Uuid) (s : Server) (steps : List (Step env))
    (hids : AgentIds env s.db) :
    WhileSuspended u (fun s step => ¬ step.Admits u s) s steps ↔
      WhileSuspended u (fun s step => ¬ step.Unchecked u s) s steps := by
  induction steps generalizing s with
  | nil => exact Iff.rfl
  | cons step steps ih =>
    apply and_congr _ (ih _ (hids.step step))
    apply forall_congr'
    intro hsuspended
    cases step with
    | request r => exact not_congr (admits_iff_unchecked hsuspended hids r)
    | other f hf => exact Iff.rfl

/-! ## A suspended account with a token -/

def sampleAuthEnv : AuthEnv where
  toAccountEnv := { sampleAccountEnv with tokens := sampleEnv }
  verifyAccessToken token now :=
    if token = sampleAccessToken ∧ now < 901000000 then some (Claims.new 1 "user" 1 901) else none
  parseUuid s := if s = uuidString 1 then .ok 1 else .error "invalid character"
  verifyPassword _ _ := .ok false

def signedInServer : Server := ⟨signedIn, none, [], [], []⟩

/-- An administrator deactivates the account. -/
def suspend : Step sampleAuthEnv :=
  .other (fun s => ((onDb (deactivate 1)).run s).2) (fun s h => by
    have hkeeps := keeps_onDb (keeps_deactivate (π := Db.agentTokens) (fun _ _ => rfl) 1)
    rw [AgentIds, hkeeps.run s]
    exact h)

theorem suspended_signedIn : Suspended 1 (suspend.apply signedInServer).db :=
  ⟨_, rfl, rfl⟩

theorem agentIds_signedIn : AgentIds sampleAuthEnv signedInServer.db := by
  intro r hr
  cases hr

def refreshStep : Step sampleAuthEnv := .request (.refresh ⟨⟨1000000, 6, "b"⟩, "a", 1000000⟩)

def handshakeStep : Step sampleAuthEnv := .request (.wsHandshake sampleAccessToken 2000000)

def apiStep : Step sampleAuthEnv :=
  .request (.authUser (some ("Bearer " ++ sampleAccessToken)) 2000000)

theorem suspension_effective_iff_api : WhileSuspended 1 (fun s step => ¬ step.Admits 1 s)
    signedInServer [suspend, apiStep] :=
  (suspension_effective_iff sampleAuthEnv 1 signedInServer [suspend, apiStep]
    agentIds_signedIn).mpr ⟨fun _ h => h, fun _ h => (by cases h), trivial⟩

theorem verify_sampleAccessToken :
    sampleAuthEnv.verifyAccessToken sampleAccessToken 2000000
      = some (Claims.new 1 "user" 1 901) := by
  simp only [sampleAuthEnv]
  simp

theorem parseUuid_one : sampleAuthEnv.parseUuid (Claims.new 1 "user" 1 901).sub = .ok 1 := by
  simp [sampleAuthEnv, Claims.new]

/-- A user is suspended, and then exchanges a refresh token and opens a WebSocket. -/
theorem suspended_user_is_let_in :
    ∃ (env : AuthEnv) (u : Uuid) (s : Server) (off refresh handshake : Step env),
      AgentIds env s.db ∧ Suspended u (off.apply s).db ∧
      ¬ WhileSuspended u (fun s step => ¬ step.Admits u s) s [off, refresh] ∧
      ¬ WhileSuspended u (fun s step => ¬ step.Admits u s) s [off, handshake] := by
  refine ⟨sampleAuthEnv, 1, signedInServer, suspend, refreshStep, handshakeStep,
    agentIds_signedIn, suspended_signedIn, fun h => ?_, fun h => ?_⟩
  · apply h.2.1 suspended_signedIn
    exact .inr ⟨⟨6, 1, sampleHash "b", 7, false, 604801000000⟩, by decide, rfl, by decide⟩
  · apply h.2.1 suspended_signedIn
    apply (admits_iff_unchecked suspended_signedIn (agentIds_signedIn.step suspend) _).mpr
    exact .wsHandshake verify_sampleAccessToken (userId_ok.mpr parseUuid_one)

end SyncServer.Auth
