import SyncServer.Accounts.Profiles
import SyncServer.Accounts.ShadowAccount

/-! # Shadow accounts and local accounts

A username of the form `user@host` and an email address in the domain of the
federation are what makes an account a shadow account for the federation. Nothing
keeps a local account from having them; as long as none does, the accounts that the
federation finds or recognises are those that it inserted.
-/

namespace SyncServer.Accounts
open Transaction Auth

/-- The calls that write accounts. -/
inductive Call where
  | register (call : RegisterCall)
  | setupAdmin (call : SetupAdminCall)
  | deviceLogin (call : DeviceLoginCall)
  | updateMe (userId : Uuid) (body : ProfileChanges)
  | ensureShadow (remoteUserId remoteServerUrl : String) (newId : Uuid)

/-- The server after a call. -/
def Call.serve (env : AccountEnv) (s : Server) : Call → Server
  | register call => ((Accounts.register env call).run s).2
  | setupAdmin call => ((Accounts.setupAdmin env call).run s).2
  | deviceLogin call => ((Accounts.deviceLogin env call).run s).2
  | updateMe userId body => ((Accounts.updateMe env userId body).run s).2
  | ensureShadow remoteUserId remoteServerUrl newId =>
    ((onDb (ensureFederatedShadowUser env.names remoteUserId remoteServerUrl newId)).run s).2

/-- The server, and the ids of the accounts that `ensure_federated_shadow_user` inserted. -/
structure Instance where
  server : Server
  shadows : List Uuid

def Instance.users (s : Instance) : Table Uuid User User.id := s.server.db.users

/-- The id that a call to `ensure_federated_shadow_user` adds to the table. -/
def Call.inserted (s s' : Server) : Call → List Uuid
  | ensureShadow _ _ newId =>
    if s.db.users.get newId = none ∧ (s'.db.users.get newId).isSome then [newId] else []
  | _ => []

def Call.apply (env : AccountEnv) (s : Instance) (call : Call) : Instance :=
  let server := call.serve env s.server
  ⟨server, s.shadows ++ call.inserted s.server server⟩

def runCalls (env : AccountEnv) (s : Instance) (calls : List Call) : Instance :=
  calls.foldl (Call.apply env) s

/-! ## Names -/

def ShadowName (env : NameEnv) (username : String) : Prop :=
  ∃ remoteUserId remoteServerUrl id host, normalizeRemoteUserId env remoteUserId = .ok id ∧
    normalizeRemoteHost env remoteServerUrl = .ok host ∧
    username = federatedShadowUsername id host

structure OrdinaryName (env : NameEnv) (username email : String) : Prop where
  not_shadow : ¬ ShadowName env username
  not_parsed : ¬ (endsWith email federatedShadowEmailDomain = true ∧
    (parseFederatedShadowUsername username).isSome)

theorem ShadowName.at_mem {env : NameEnv} {username : String} (h : ShadowName env username) :
    '@' ∈ username.toList := by
  obtain ⟨_, _, id, host, -, -, rfl⟩ := h
  simp [federatedShadowUsername]

theorem parse_eq_none {username : String} (h : '@' ∉ username.toList) :
    parseFederatedShadowUsername username = none := by
  rw [parseFederatedShadowUsername, splitOnce_eq_none.mpr h]
  rfl

/-- A username without `@` is ordinary, whatever the email address. -/
theorem ordinaryName_of_not_mem (env : NameEnv) {username : String} (email : String)
    (h : '@' ∉ username.toList) : OrdinaryName env username email where
  not_shadow hs := h hs.at_mem
  not_parsed hp := by simp [parse_eq_none h] at hp

theorem ordinaryName_device (env : AccountEnv) (call : DeviceLoginCall) (hash : String)
    (approval : Bool) : OrdinaryName env.names (newDeviceUser env call hash approval).username
      (newDeviceUser env call hash approval).email := by
  apply ordinaryName_of_not_mem
  intro hat
  have hmem : '@' ∈ (env.names.sha256.hex (trim call.deviceAuthPubkey)).toList := by
    have : '@' ∈ (env.names.sha256.short 15 (trim call.deviceAuthPubkey)).toList := by
      simpa [newDeviceUser] using hat
    rw [Sha256.short, String.toList_ofList] at this
    exact List.mem_of_mem_take this
  have := env.names.sha256.digits_hex _ _ hmem
  revert this
  decide

/-- What the federation stores for a remote person. -/
structure IsShadow (env : NameEnv) (r : User) : Prop where
  inactive : r.isActive = false
  email : ∃ username, r.email = federatedShadowEmail env username

/-! ## The accounts stay separate -/

/-- The accounts in `shadows` are shadow accounts, and all others have ordinary names. -/
structure Separate (env : NameEnv) (shadows : List Uuid) (users : Table Uuid User User.id) :
    Prop where
  shadow : ∀ id ∈ shadows, ∃ r, users.get id = some r ∧ IsShadow env r
  ordinary : ∀ r ∈ users.rows, r.id ∉ shadows → OrdinaryName env r.username r.email

section
variable {env : NameEnv} {shadows : List Uuid} {users t : Table Uuid User User.id}

theorem Separate.fresh (h : Separate env shadows users) {id : Uuid} (hid : users.get id = none) :
    id ∉ shadows := by
  intro hmem
  obtain ⟨r, hr, -⟩ := h.shadow id hmem
  simp [hid] at hr

theorem Separate.insert (h : Separate env shadows users) {row : User}
    (hrow : OrdinaryName env row.username row.email) (hins : users.insert row = some t) :
    Separate env shadows t := by
  have hfresh := h.fresh (Table.get_eq_none_of_insert hins)
  refine ⟨fun id hid => ?_, fun r hr hns => ?_⟩
  · obtain ⟨r, hr, hs⟩ := h.shadow id hid
    have hne : row.id ≠ id := fun he => hfresh (he ▸ hid)
    exact ⟨r, by rw [Table.get_of_insert hins, if_neg hne, hr], hs⟩
  · rw [Table.rows_of_insert hins, List.mem_append, List.mem_singleton] at hr
    rcases hr with hr | rfl
    · exact h.ordinary r hr hns
    · exact hrow

theorem Separate.update (h : Separate env shadows users) {id : Uuid} {f : User → User}
    (hf : ∀ r, (f r).id = r.id) (hshadow : ∀ r, id ∈ shadows → IsShadow env r → IsShadow env (f r))
    (hordinary : ∀ r, users.get id = some r → id ∉ shadows →
      OrdinaryName env (f r).username (f r).email) :
    Separate env shadows (users.update id f hf) := by
  refine ⟨fun k hk => ?_, fun r hr hns => ?_⟩
  · obtain ⟨r, hr, hs⟩ := h.shadow k hk
    by_cases hki : k = id
    · subst hki
      exact ⟨f r, by rw [Table.get_update_self, hr]; rfl, hshadow r hk hs⟩
    · exact ⟨r, by rw [Table.get_update_of_ne _ f hf hki, hr], hs⟩
  · simp only [Table.update, Table.map, List.mem_map] at hr
    obtain ⟨r₀, hr₀, rfl⟩ := hr
    by_cases hid : r₀.id = id
    · rw [if_pos hid, hf] at hns
      rw [if_pos hid]
      exact hordinary r₀ (Table.get_eq_some.mpr ⟨hr₀, hid⟩) (hid ▸ hns)
    · rw [if_neg hid] at hns ⊢
      exact h.ordinary r₀ hr₀ hns

theorem Separate.insertShadow (h : Separate env shadows users) {row : User}
    (hrow : IsShadow env (deactivated row)) (hins : users.insert row = some t) :
    Separate env (shadows ++ [row.id]) (t.update row.id deactivated deactivated_id) := by
  have hfresh := h.fresh (Table.get_eq_none_of_insert hins)
  refine ⟨fun id hid => ?_, fun r hr hns => ?_⟩
  · by_cases hne : id = row.id
    · subst hne
      exact ⟨deactivated row, by simp [Table.get_of_insert hins], hrow⟩
    · obtain ⟨r, hr, hs⟩ := h.shadow id (by simpa [hne] using hid)
      refine ⟨r, ?_, hs⟩
      rw [Table.get_update_of_ne _ _ _ hne, Table.get_of_insert hins, if_neg (Ne.symm hne), hr]
  · rw [List.mem_append, List.mem_singleton, not_or] at hns
    simp only [Table.update, Table.map, Table.rows_of_insert hins, List.mem_map, List.mem_append,
      List.mem_singleton] at hr
    obtain ⟨r₀, hr₀, rfl⟩ := hr
    split at hns
    · exact absurd (by assumption) hns.2
    · rename_i hid
      rw [if_neg hid]
      exact h.ordinary r₀ (hr₀.resolve_right (fun he => hid (he ▸ rfl))) hns.1

end

/-! ## What the handlers write -/

def Safe (env : NameEnv) (shadows : List Uuid) (w : Server → Server) : Prop :=
  ∀ s, Separate env shadows s.db.users → Separate env shadows (w s).db.users

section
variable {env : NameEnv} {shadows : List Uuid} {α : Type}

theorem safe_of_users {w : Server → Server} (h : ∀ s, (w s).db.users = s.db.users) :
    Safe env shadows w := by
  intro s hs
  rwa [h]

theorem safe_of_accounts (w : Server → Server)
    (h : ∀ s, accountsAndKeys (w s).db = accountsAndKeys s.db) : Safe env shadows w :=
  safe_of_users (fun s => congrArg Prod.fst (h s))

theorem safe_createUser {new : NewUser} (h : OrdinaryName env new.username new.email)
    (maxUsers : Option Nat) : (onDb (createUser new maxUsers)).Writes (Safe env shadows) := by
  refine Tx.writes_onPart (fun w hw s hs => ?_) (writes_createUser new maxUsers)
  change Separate env shadows (w s.db).users
  rcases hw s.db with hsame | hins
  · rwa [hsame]
  · exact hs.insert h hins

theorem Separate.run_safe {t : Handler α} (ht : t.Writes (Safe env shadows)) {s : Server}
    (h : Separate env shadows s.db.users) : Separate env shadows (t.run s).2.db.users :=
  Tx.Writes.run (I := fun s : Server => Separate env shadows s.db.users) ht h

-- what a handler writes is read off its statements, without running it
attribute [local irreducible] Tx.Writes

theorem safe_register {env : AccountEnv} {call : RegisterCall}
    (h : checkRegistration env call = .ok () →
      OrdinaryName env.names call.username (env.names.unicode.toLowercase call.email)) :
    (register env call).Writes (Safe env.names shadows) := by
  refine writes_register safe_of_accounts (fun hcheck new maxUsers hname hemail => ?_)
  refine safe_createUser ?_ _
  rw [hname, hemail]
  exact h hcheck

theorem safe_setupAdmin {env : AccountEnv} {call : SetupAdminCall}
    (h : checkSetup env call = .ok () →
      OrdinaryName env.names (trim call.username) (call.storedEmail env)) :
    (setupAdmin env call).Writes (Safe env.names shadows) := by
  refine writes_setupAdmin safe_of_accounts (fun hcheck new maxUsers hname hemail => ?_)
  refine safe_createUser ?_ _
  rw [hname, hemail]
  exact h hcheck

theorem safe_deviceLogin (env : AccountEnv) (call : DeviceLoginCall) :
    (deviceLogin env call).Writes (Safe env.names shadows) :=
  writes_deviceLogin safe_of_accounts
    (fun hash approval _ => safe_createUser (ordinaryName_device env call hash approval) _)

/-! ## Calls -/

/-- What `ensure_federated_shadow_user` does: it fails, or finds an account by a shadow
username, or inserts a shadow account. -/
theorem run_ensureFederatedShadowUser (env : NameEnv) (remoteUserId remoteServerUrl : String)
    (newId : Uuid) (d : Db) :
    (∃ e, (ensureFederatedShadowUser env remoteUserId remoteServerUrl newId).run d =
      (.error e, d)) ∨
    (∃ username u, ShadowName env username ∧ userByUsername username d = some u ∧
      (ensureFederatedShadowUser env remoteUserId remoteServerUrl newId).run d = (.ok u, d)) ∨
    ∃ username t, d.users.insert (newShadow env username newId).row = some t ∧
      (ensureFederatedShadowUser env remoteUserId remoteServerUrl newId).run d =
        (.ok (deactivated (newShadow env username newId).row),
          { d with users := t.update newId deactivated deactivated_id }) := by
  rcases hid : normalizeRemoteUserId env remoteUserId with e | id
  · refine .inl ⟨e, ?_⟩
    rw [ensureFederatedShadowUser, hid]
    rfl
  rcases hhost : normalizeRemoteHost env remoteServerUrl with e | host
  · refine .inl ⟨e, ?_⟩
    rw [ensureFederatedShadowUser, hid, hhost]
    rfl
  have hname : ShadowName env (federatedShadowUsername id host) := ⟨_, _, id, host, hid, hhost, rfl⟩
  rw [run_ensureShadow hid hhost, shadowAccount]
  generalize federatedShadowUsername id host = username at hname
  rcases hfind : userByUsername username d with _ | existing
  · rcases hadd : addUser (newShadow env username newId).row d with e | ⟨u, d'⟩
    · cases e <;> exact .inl ⟨_, rfl⟩
    · obtain ⟨rfl, t, hins, rfl⟩ := addUser_ok hadd
      exact .inr (.inr ⟨username, t, hins, rfl⟩)
  · exact .inr (.inl ⟨username, existing, hname, hfind, rfl⟩)

end

/-! ## Runs -/

/-- A call that passes its checks gives an ordinary name to an account that is not a shadow
account, if it gives it a name. -/
def Call.Ordinary (env : AccountEnv) (s : Instance) : Call → Prop
  | register call => checkRegistration env call = .ok () →
      OrdinaryName env.names call.username (env.names.unicode.toLowercase call.email)
  | setupAdmin call => checkSetup env call = .ok () →
      OrdinaryName env.names (trim call.username) (call.storedEmail env)
  | deviceLogin _ => True
  | updateMe userId body => ∀ changes username user, checkProfile env body = .ok changes →
      changes.username = some username → s.users.get userId = some user →
      userId ∉ s.shadows → OrdinaryName env.names username user.email
  | ensureShadow _ _ _ => True

/-- All calls of a run are ordinary. -/
def OrdinaryRun (env : AccountEnv) (s : Instance) : List Call → Prop
  | [] => True
  | call :: calls => call.Ordinary env s ∧ OrdinaryRun env (call.apply env s) calls

section
variable {env : AccountEnv} {s : Instance}

attribute [local irreducible] Tx.Writes

theorem Separate.updateMe {shadows : List Uuid} {server : Server} {userId : Uuid}
    {body : ProfileChanges} (h : Separate env.names shadows server.db.users)
    (hc : (Call.updateMe userId body).Ordinary env ⟨server, shadows⟩) :
    Separate env.names shadows ((Accounts.updateMe env userId body).run server).2.db.users := by
  rcases run_updateMe_users env userId body server with hsame | ⟨changes, user, hcheck, hget, hrun⟩
  · rwa [hsame]
  rw [hrun]
  refine h.update _ (fun r _ hr => ⟨hr.inactive, hr.email⟩) (fun r hr hns => ?_)
  obtain rfl : user = r := Option.some.inj (hget.symm.trans hr)
  rcases hname : changes.username with _ | username
  · have : (changes.over user user).username = user.username := by
      simp [ProfileChanges.over, hname]
    rw [this]
    obtain ⟨hmem, hid⟩ := Table.get_eq_some.mp hget
    exact h.ordinary user hmem (hid ▸ hns)
  · have : (changes.over user user).username = username := by
      simp [ProfileChanges.over, hname]
    rw [this]
    exact hc changes username user hcheck hname hget hns

theorem inserted_of_users {s s' : Server} (h : s'.db.users = s.db.users) (call : Call) :
    call.inserted s s' = [] := by
  cases call with
  | ensureShadow remoteUserId remoteServerUrl newId =>
    rw [Call.inserted, h, if_neg]
    rintro ⟨hnone, hsome⟩
    simp [hnone] at hsome
  | _ => rfl

/-- The account that `ensure_federated_shadow_user` inserts is one of its accounts. -/
theorem inserted_ensureShadow {names : NameEnv} {server : Server} {username : String} {newId : Uuid}
    {t : Table Uuid User User.id} (remoteUserId remoteServerUrl : String)
    (hins : server.db.users.insert (newShadow names username newId).row = some t) :
    Call.inserted server
      (server.setDb { server.db with users := t.update newId deactivated deactivated_id })
      (.ensureShadow remoteUserId remoteServerUrl newId) = [newId] := by
  have hnone : server.db.users.get newId = none := Table.get_eq_none_of_insert hins
  have hsome : t.get newId = some (newShadow names username newId).row := Table.get_insert_self hins
  rw [Call.inserted, if_pos]
  exact ⟨hnone, by simp [Server.setDb, hsome]⟩

/-- What an answer of `ensure_federated_shadow_user` is, and what it does to the accounts. -/
theorem Separate.ensure (h : Separate env.names s.shadows s.users)
    (remoteUserId remoteServerUrl : String) (newId : Uuid) {s' : Instance}
    (hs' : s' = (Call.ensureShadow remoteUserId remoteServerUrl newId).apply env s) :
    Separate env.names s'.shadows s'.users ∧
      ∀ u, ((ensureFederatedShadowUser env.names remoteUserId remoteServerUrl newId).run
        s.server.db).1 = .ok u → u.id ∈ s'.shadows ∧ IsShadow env.names u := by
  subst hs'
  have hsame : ∀ call, Call.inserted s.server (s.server.setDb s.server.db) call = [] :=
    inserted_of_users rfl
  simp only [Call.apply, Call.serve, run_onDb, Instance.users]
  rcases run_ensureFederatedShadowUser env.names remoteUserId remoteServerUrl newId s.server.db with
    ⟨e, hrun⟩ | ⟨username, u, hname, hfind, hrun⟩ | ⟨username, t, hins, hrun⟩ <;>
    rw [hrun] <;> dsimp only
  · rw [hsame, List.append_nil]
    exact ⟨h, fun u hu => by cases hu⟩
  · rw [hsame, List.append_nil]
    refine ⟨h, fun u' hu => ?_⟩
    cases hu
    have hmem : u ∈ s.users.rows := List.mem_of_find?_eq_some hfind
    have husername : u.username = username := by simpa using List.find?_some hfind
    have hshadow : u.id ∈ s.shadows := by
      by_contra hns
      exact (h.ordinary u hmem hns).not_shadow (husername ▸ hname)
    obtain ⟨r, hr, hs⟩ := h.shadow u.id hshadow
    rw [Table.get_eq_some.mpr ⟨hmem, rfl⟩] at hr
    cases hr
    exact ⟨hshadow, hs⟩
  · have hnew : IsShadow env.names (deactivated (newShadow env.names username newId).row) :=
      ⟨rfl, username, rfl⟩
    rw [inserted_ensureShadow remoteUserId remoteServerUrl hins]
    refine ⟨h.insertShadow hnew hins, fun u hu => ?_⟩
    cases hu
    exact ⟨by simp [deactivated, NewUser.row, newShadow], hnew⟩

theorem Separate.call (h : Separate env.names s.shadows s.users) {call : Call}
    (hc : call.Ordinary env s) :
    Separate env.names (call.apply env s).shadows (call.apply env s).users := by
  cases call with
  | register call =>
    simp only [Call.apply, Call.inserted, Call.serve, Instance.users, List.append_nil]
    exact Separate.run_safe (safe_register hc) h
  | setupAdmin call =>
    simp only [Call.apply, Call.inserted, Call.serve, Instance.users, List.append_nil]
    exact Separate.run_safe (safe_setupAdmin hc) h
  | deviceLogin call =>
    simp only [Call.apply, Call.inserted, Call.serve, Instance.users, List.append_nil]
    exact Separate.run_safe (safe_deviceLogin env call) h
  | updateMe userId body =>
    simp only [Call.apply, Call.inserted, Call.serve, Instance.users, List.append_nil]
    exact Separate.updateMe h hc
  | ensureShadow remoteUserId remoteServerUrl newId =>
    exact (h.ensure remoteUserId remoteServerUrl newId rfl).1

theorem Separate.run (h : Separate env.names s.shadows s.users) {calls : List Call}
    (hcalls : OrdinaryRun env s calls) :
    Separate env.names (runCalls env s calls).shadows (runCalls env s calls).users := by
  induction calls generalizing s with
  | nil => exact h
  | cons call calls ih => exact ih (h.call hcalls.1) hcalls.2

end

/-- A server without accounts. -/
def Instance.fresh (server : Server) : Instance := ⟨server, []⟩

/-- In every run of ordinary calls from an empty table, the accounts that
`ensure_federated_shadow_user` returns are shadow accounts that it inserted, and only such
accounts have a federated identity. -/
theorem shadow_accounts_inserted (env : AccountEnv) (server : Server)
    (hempty : server.db.users = .empty) (calls : List Call)
    (hcalls : OrdinaryRun env (.fresh server) calls) (s : Instance)
    (hs : s = runCalls env (.fresh server) calls) :
    (∀ remoteUserId remoteServerUrl newId u,
      ((ensureFederatedShadowUser env.names remoteUserId remoteServerUrl newId).run
        s.server.db).1 = .ok u →
      u.id ∈ ((Call.ensureShadow remoteUserId remoteServerUrl newId).apply env s).shadows ∧
        IsShadow env.names u) ∧
    ∀ u ∈ s.users.rows, (federatedIdentityForUser u).isSome →
      u.id ∈ s.shadows ∧ IsShadow env.names u := by
  have h0 : Separate env.names (Instance.fresh server).shadows (Instance.fresh server).users := by
    refine ⟨fun id hid => absurd hid List.not_mem_nil, fun r hr => ?_⟩
    rw [Instance.users, Instance.fresh, hempty] at hr
    cases hr
  have h := h0.run hcalls
  rw [← hs] at h
  refine ⟨fun remoteUserId remoteServerUrl newId =>
    (Separate.ensure h remoteUserId remoteServerUrl newId rfl).2, fun u hu hsome => ?_⟩
  have hshadow : u.id ∈ s.shadows := by
    by_contra hns
    apply (h.ordinary u hu hns).not_parsed
    unfold federatedIdentityForUser at hsome
    split at hsome
    · rename_i hends
      exact ⟨hends, hsome⟩
    · cases hsome
  obtain ⟨r, hr, hr'⟩ := h.shadow u.id hshadow
  rw [Table.get_eq_some.mpr ⟨hu, rfl⟩] at hr
  cases hr
  exact ⟨hshadow, hr'⟩

/-! ## Runs with a remote person -/

def sampleSha256 : Sha256 where
  hex s := if s = "bob@remote.example" then
      "4402e9606201047ddb20f3ba14d1a74708fe67a10836e8dc6e1894b362eb405f"
    else "e3b0c44298fc1c149afbf4c8996fb92427ae41e4649b934ca495991b7852b855"
  length_hex s := by split <;> decide
  digits_hex s := by split <;> decide

def sampleNames : NameEnv where
  unicode := .ascii
  parseUrl s := if s = "https://remote.example" then
      .ok ⟨"https", some "remote.example", none, some [""]⟩
    else .error "relative URL without a base"
  sha256 := sampleSha256

def sampleAccountEnv : AccountEnv where
  names := sampleNames
  tokens := ⟨sampleSha256.hex, fun _ _ _ _ => .error "InvalidKeyFormat", 900, 604800⟩
  decodeBase64 _ := none
  verifyJsonSolution _ _ := false
  hashPassword _ _ := .ok "$2b$12$abcdefghijklmnopqrstuuFDJRuYeKkCzo3Wy7h8SxhBSHBAHiPK2"
  altchaHmacKey := none
  maxUsers := none

def newServer : Server := ⟨.empty, none, [], [], []⟩

def registration (username email : String) : Call :=
  .register ⟨username, email, "correct horse", none, none, "192.0.2.1", 100, 100, 1,
    "abcdefghijklmnopqrstuu"⟩

/-- Alice has an account, and the federation knows Bob. -/
def aliceAndBob : Instance :=
  runCalls sampleAccountEnv (.fresh newServer)
    [registration "alice" "alice@example.org", .ensureShadow "Bob" "https://remote.example" 7]

def bobShadow : User := deactivated (newShadow sampleNames "bob@remote.example" 7).row

/-- Bob is looked up again. -/
theorem shadow_accounts_inserted_bob :
    7 ∈ ((Call.ensureShadow "bob" "https://remote.example" 8).apply sampleAccountEnv
      aliceAndBob).shadows ∧ IsShadow sampleNames bobShadow := by
  have halice : OrdinaryName sampleNames "alice" "alice@example.org" :=
    ordinaryName_of_not_mem _ _ (by decide)
  exact (shadow_accounts_inserted sampleAccountEnv newServer rfl
    [registration "alice" "alice@example.org", .ensureShadow "Bob" "https://remote.example" 7]
    ⟨fun _ => halice, trivial, trivial⟩ aliceAndBob rfl).1 "bob" "https://remote.example" 8 bobShadow
      (by decide)

/-- Someone has registered under Bob's remote name. -/
def bobTaken (email : String) : Instance :=
  runCalls sampleAccountEnv (.fresh newServer) [registration "bob@remote.example" email]

/-- The federation takes the local account for Bob's shadow account, and with an email address
in its domain it recognises it as one. -/
theorem local_account_taken_for_shadow :
    (∃ u, ((ensureFederatedShadowUser sampleNames "bob" "https://remote.example" 8).run
        (bobTaken "bob@example.org").server.db).1 = .ok u ∧ u.isActive = true ∧
      ((Call.ensureShadow "bob" "https://remote.example" 8).apply sampleAccountEnv
        (bobTaken "bob@example.org")).shadows = []) ∧
      ∃ u ∈ (bobTaken "bob@federated.sync.invalid").users.rows,
        federatedIdentityForUser u = some ⟨"bob", "remote.example"⟩ ∧ u.isActive = true ∧
          (bobTaken "bob@federated.sync.invalid").shadows = [] := by
  constructor
  · exact ⟨_, Eq.refl _, by decide, by decide⟩
  · exact ⟨_, List.mem_cons_self, by decide, by decide, by decide⟩

end SyncServer.Accounts
