import SyncServer.Accounts.Deletion
import SyncServer.Accounts.Shadows
import SyncServer.Auth.Extractors
import SyncServer.Federation.DeliveryStates
import SyncServer.Federation.Identity

/-! # Actors

An account is an actor, with a URL, an inbox and a key. Its name goes out as it is stored, and what
comes in is looked up in lower case: an account is found by what names it if and only if its name
is one that WebFinger admits.
-/

namespace SyncServer.Federation
open Transaction Accounts

/-- The handler that a request reaches, with the user in the path. -/
inductive Route where
  | actorProfile (username : String)
  | inbox (username : String)
  | other
deriving DecidableEq, Repr

structure ActorEnv where
  accounts : AccountEnv
  outbox : OutboxEnv
  /-- Where a request to a URL goes. -/
  route : String → Route

def ActorEnv.domain (env : ActorEnv) : String := env.outbox.instanceDomain

/-- `str::to_lowercase`. -/
def ActorEnv.lower (env : ActorEnv) (s : String) : String := env.outbox.names.unicode.toLowercase s

/-! ## Handlers -/

def isActorChar (c : Char) : Bool := c.isLower || c.isDigit || c = '_' || c = '-' || c = '.'

/-- `parse_resource`. -/
def parseResource (unicode : Unicode) (resource expectedDomain : String) :
    Except AppError String :=
  match Auth.stripStart "acct:" resource with
  | none => .error (.badRequest "resource must start with acct:")
  | some rest =>
    match splitOnce '@' rest with
    | none => .error (.badRequest "resource must look like acct:user@domain")
    | some (username, domain) =>
      if domain ≠ expectedDomain then .error .notFound
      else
        let normalized := unicode.toLowercase (trim username)
        if normalized = "" then .error (.badRequest "username cannot be empty")
        else if normalized.toList.all isActorChar then .ok normalized
        else .error (.badRequest "username contains unsupported characters")

def webfingerDocument (domain username : String) : Json :=
  Json.ofFields [("subject", .string ("acct:" ++ username ++ "@" ++ domain)),
    ("links", .array [Json.ofFields [("rel", .string "self"),
      ("type", .string "application/activity+json"),
      ("href", .string (actorUrl domain username))]])]

/-- `webfinger`. -/
def webfinger (env : ActorEnv) (resource : String) : Query Json := do
  let username ← Tx.done (parseResource env.outbox.names.unicode resource env.domain)
  let found ← localUserExists username
  if ¬ found then throw .notFound
  else pure (webfingerDocument env.domain username)

def actorDocument (domain username : String) (key : FederationActorKey) : Json :=
  let id := actorUrl domain username
  Json.ofFields [("@context", .array [.string "https://www.w3.org/ns/activitystreams",
      .string "https://w3id.org/security/v1"]),
    ("id", .string id),
    ("type", .string "Person"),
    ("preferredUsername", .string username),
    ("inbox", .string (id ++ "/inbox")),
    ("outbox", .string (id ++ "/outbox")),
    ("publicKey", Json.ofFields [("id", .string key.keyId), ("owner", .string id),
      ("publicKeyPem", .string key.publicKeyPem)])]

/-- `actor_profile`; `generated` is the pair of keys that is drawn if there is none. -/
def actorProfile (env : ActorEnv) (path : String) (generated : GeneratedKey) : Query Json := do
  let username := env.lower path
  let found ← localUserExists username
  if ¬ found then throw .notFound
  else do
    let key ← ensureActorKeyMaterial env.outbox username generated
    pure (actorDocument env.domain username key)

/-! ## What leads to an account -/

def PlainName (name : String) : Prop :=
  name ≠ "" ∧ name ≠ "." ∧ name ≠ ".." ∧
    name.toList.all (fun c => c.isAlphanum || c = '_' || c = '-' || c = '.')

/-- What holds of the requests to the URLs of actors. -/
structure RouteLaws (env : ActorEnv) : Prop where
  plain : ∀ {name}, PlainName name → env.route (actorUrl env.domain name) = .actorProfile name ∧
    env.route (actorUrl env.domain name ++ "/inbox") = .inbox name
  /-- Dot segments are taken out of the path of a URL. -/
  dots : ∀ {name}, name = "." ∨ name = ".." → ∀ username,
    env.route (actorUrl env.domain name) ≠ .actorProfile username

/-- What names an account to other servers leads back to it. -/
structure Resolves (env : ActorEnv) (u : User) (generated : GeneratedKey) (d : Db) : Prop where
  /-- The URL is that of its profile, with the key that all its deliveries are signed with. -/
  profile : ∃ path key d', env.route (actorUrl env.domain u.username) = .actorProfile path ∧
    (actorProfile env path generated).run d = (.ok (actorDocument env.domain u.username key), d') ∧
    key.keyId = keyId env.domain u.username ∧
    ∀ generated', (ensureActorKeyMaterial env.outbox u.username generated').run d' = (.ok key, d')
  webfinger : (webfinger env ("acct:" ++ u.username ++ "@" ++ env.domain)).run d =
    (.ok (webfingerDocument env.domain u.username), d)
  inbox : ∃ path, env.route (actorUrl env.domain u.username ++ "/inbox") = .inbox path ∧
    userByUsername (env.lower path) d = some u

/-- A name that WebFinger admits and that is not a dot segment. -/
def ActorName (name : String) : Prop :=
  name ≠ "" ∧ name ≠ "." ∧ name ≠ ".." ∧ name.toList.all isActorChar

instance (name : String) : Decidable (ActorName name) := inferInstanceAs (Decidable (_ ∧ _))

/-! ## Names -/

theorem isActorChar_cases {c : Char} (h : isActorChar c = true) :
    (c.isAlphanum || c = '_' || c = '-' || c = '.') = true ∧ 45 ≤ c.toNat ∧ c.toNat ≤ 122 ∧
      c.toLower = c := by
  simp only [isActorChar, Bool.or_eq_true, decide_eq_true_eq] at h
  rcases h with (((h | h) | rfl) | rfl) | rfl
  · have hrange : 97 ≤ c.toNat ∧ c.toNat ≤ 122 := by
      simpa [isLower_eq] using h
    refine ⟨by simp [Char.isAlphanum, isAlpha_eq, h], by omega, by omega, ?_⟩
    rcases toLower_cases c with hc | ⟨-, hle, -⟩
    · exact hc
    · omega
  · have hrange : 48 ≤ c.toNat ∧ c.toNat ≤ 57 := by
      simpa [Char.isDigit, UInt32.le_iff_toNat_le] using h
    refine ⟨by simp [Char.isAlphanum, h], by omega, by omega, ?_⟩
    rcases toLower_cases c with hc | ⟨hge, -, -⟩
    · exact hc
    · omega
  all_goals decide

section
variable {name : String}

theorem ActorName.plain (h : ActorName name) : PlainName name := by
  obtain ⟨h₁, h₂, h₃, hchars⟩ := h
  refine ⟨h₁, h₂, h₃, List.all_eq_true.mpr (fun c hc => ?_)⟩
  exact (isActorChar_cases (List.all_eq_true.mp hchars c hc)).1

theorem toLowercase_actorChars (unicode : Unicode) (h : name.toList.all isActorChar = true) :
    unicode.toLowercase name = name := by
  rw [unicode.toLowercase_ascii]
  · have : name.toList.map Char.toLower = name.toList := by
      refine List.map_congr_left (fun c hc => ?_) |>.trans (List.map_id _)
      exact (isActorChar_cases (List.all_eq_true.mp h c hc)).2.2.2
    rw [this, String.ofList_toList]
  · intro c hc
    have := isActorChar_cases (List.all_eq_true.mp h c hc)
    omega

theorem trim_actorChars (h : name.toList.all isActorChar = true) : trim name = name := by
  have hall : ∀ c ∈ name.toList, isWhitespace c = false := by
    intro c hc
    have := isActorChar_cases (List.all_eq_true.mp h c hc)
    exact not_isWhitespace_of_range (by omega) (by omega)
  exact trim_eq_self (fun c hc => hall c (List.mem_of_mem_head? hc))
    (fun c hc => hall c (List.mem_of_mem_getLast? hc))

theorem parseResource_ok {unicode : Unicode} {resource domain : String}
    (h : parseResource unicode resource domain = .ok name) :
    name ≠ "" ∧ name.toList.all isActorChar = true := by
  unfold parseResource at h
  split at h
  · cases h
  split at h
  · cases h
  split at h
  · cases h
  dsimp only at h
  split at h
  · cases h
  rename_i hne
  split at h
  · rename_i hall
    cases h
    exact ⟨hne, hall⟩
  · cases h

theorem parseResource_actorName (unicode : Unicode) (domain : String) (hne : name ≠ "")
    (h : name.toList.all isActorChar = true) :
    parseResource unicode ("acct:" ++ name ++ "@" ++ domain) domain = .ok name := by
  have hat : '@' ∉ name.toList := by
    intro hmem
    have := List.all_eq_true.mp h _ hmem
    revert this
    decide
  have hassoc : "acct:" ++ name ++ "@" ++ domain = "acct:" ++ (name ++ String.singleton '@' ++ domain) := by
    simp [String.append_assoc]
  have hlower : unicode.toLowercase (trim name) = name := by
    rw [trim_actorChars h, toLowercase_actorChars unicode h]
  rw [hassoc, parseResource, Auth.stripStart_append]
  simp only [splitOnce_append hat, ne_eq, not_true_eq_false, if_false, hlower, if_neg hne, if_pos h]

end

theorem keyId_inj {domain a b : String} : keyId domain a = keyId domain b ↔ a = b := by
  simp [keyId, actorUrl]

theorem webfingerDocument_inj {domain a b : String} :
    webfingerDocument domain a = webfingerDocument domain b ↔ a = b := by
  constructor
  · intro h
    have hsubject : ∀ name, (webfingerDocument domain name).get "subject" =
        some (.string ("acct:" ++ name ++ "@" ++ domain)) := by
      intro name
      have hlt : "links" < "subject" := by decide
      simp only [webfingerDocument, Json.ofFields, List.foldl_cons, List.foldl_nil,
        Json.insertField, if_pos hlt]
      rfl
    have := (hsubject a).symm.trans ((congrArg (Json.get · "subject") h).trans (hsubject b))
    simpa using this
  · rintro rfl
    rfl

/-! ## Runs -/

/-- The calls that write accounts and the keys of their actors. -/
inductive ActorCall where
  | account (call : Call)
  | keyMaterial (username : String) (generated : GeneratedKey)
  | delete (userId : Uuid)

/-- The server after a call. -/
def ActorCall.serve (env : ActorEnv) (s : Server) : ActorCall → Server
  | account call => call.serve env.accounts s
  | keyMaterial username generated =>
    ((onDb (ensureActorKeyMaterial env.outbox username generated)).run s).2
  | delete userId => ((onDb (deleteUser userId)).run s).2

def runActors (env : ActorEnv) (s : Server) (calls : List ActorCall) : Server :=
  calls.foldl (ActorCall.serve env) s

/-- No username is taken twice, and every key has the name that its actor gives it. -/
structure Named (domain : String) (d : Db) : Prop where
  unique : (d.users.rows.map User.username).Nodup
  keys : ∀ k ∈ d.federationActorKeys.rows, k.keyId = keyId domain k.actorUsername

/-- A write that keeps `Named`. -/
def NamedWrite (domain : String) (w : Db → Db) : Prop := ∀ d, Named domain d → Named domain (w d)

section
variable {domain : String} {α : Type}

theorem namedWrite_of_names {q : Query α} (h : KeepsNames q) (h' : q.Keeps Db.federationActorKeys) :
    q.Writes (NamedWrite domain) := by
  refine Tx.writes_mono (fun w hw d hd => ?_) (Tx.writes_and h h')
  refine ⟨(hw.1 d).unique hd.unique, ?_⟩
  rw [hw.2 d]
  exact hd.keys

theorem namedWrite_createUser (new : NewUser) (maxUsers : Option Nat) :
    (createUser new maxUsers).Writes (NamedWrite domain) :=
  namedWrite_of_names (writes_createUser_of new maxUsers NamesKept.refl (keepsNames_insertUser new))
    (keeps_createUser (fun _ _ => rfl) new maxUsers)

theorem nodup_usernames_update {users : Table Uuid User User.id} {id : Uuid} {f : User → User}
    (hf : ∀ r, (f r).id = r.id) (hunique : (users.rows.map User.username).Nodup)
    (hfree : ∀ u ∈ users.rows, u.id ≠ id → ∀ r, (f r).username ≠ u.username) :
    ((users.update id f hf).rows.map User.username).Nodup := by
  simp only [Table.update, Table.map, List.map_map]
  refine List.Nodup.map_on (fun a ha b hb hab => ?_) hunique.of_map
  simp only [Function.comp_apply] at hab
  by_cases hida : a.id = id <;> by_cases hidb : b.id = id
  · have hget := Table.get_eq_some.mpr ⟨ha, hida⟩
    rw [Table.get_eq_some.mpr ⟨hb, hidb⟩] at hget
    exact (Option.some.inj hget).symm
  · rw [if_pos hida, if_neg hidb] at hab
    exact absurd hab (hfree b hb hidb a)
  · rw [if_neg hida, if_pos hidb] at hab
    exact absurd hab.symm (hfree a ha hida b)
  · rw [if_neg hida, if_neg hidb] at hab
    exact List.inj_on_of_nodup_map hunique ha hb hab

theorem namedWrite_updateProfile (userId : Uuid) (changes : ProfileChanges) :
    (updateProfile userId changes).Writes (NamedWrite domain) := by
  refine Tx.writes_bind (Tx.writes_query (fun _ h => h) _) (fun found => ?_)
  refine Tx.writes_bind (Tx.writes_okOr _ _ found) (fun existing => ?_)
  refine Tx.writes_bind (Tx.writes_attempt ?_) (fun updated => by split <;> trivial)
  refine Query.writes_exec (R := fun d d' => Named domain d → Named domain d') (fun _ h => h)
    (fun d user d' hset hd => ?_)
  obtain ⟨r, hget, rfl, hfree, rfl⟩ := setProfile_ok hset
  refine ⟨nodup_usernames_update (changes.over_id existing) hd.unique
    (fun u hu hid r' hname => hfree u hu ?_ hname.symm), hd.keys⟩
  rw [Table.key_of_get hget]
  exact hid

theorem namedWrite_ensureActorKey {row : FederationActorKey}
    (hrow : row.keyId = keyId domain row.actorUsername) :
    (ensureActorKey row).Writes (NamedWrite domain) := by
  refine Tx.writes_bind (Tx.writes_query (fun _ h => h) _) (fun existing => ?_)
  cases existing with
  | some found => trivial
  | none =>
    refine Tx.writes_bind ?_ (fun _ => ?_)
    · refine Query.writes_exec (R := fun d d' => Named domain d → Named domain d') (fun _ h => h)
        (fun d _ d' hadd hd => ?_)
      unfold addActorKey at hadd
      split at hadd
      · cases hadd
      split at hadd
      · cases hadd
      rename_i t ht
      split at hadd
      · cases hadd
        refine ⟨hd.unique, fun k hk => ?_⟩
        rw [Table.rows_of_insert ht, List.mem_append, List.mem_singleton] at hk
        rcases hk with hk | rfl
        · exact hd.keys k hk
        · exact hrow
      · cases hadd
    · refine Tx.writes_bind (Tx.writes_query (fun _ h => h) _) (fun found => ?_)
      exact Tx.writes_okOr _ _ found

theorem namedWrite_ensureActorKeyMaterial (env : OutboxEnv) (username : String)
    (generated : GeneratedKey) :
    (ensureActorKeyMaterial env username generated).Writes (NamedWrite env.instanceDomain) := by
  refine Tx.writes_bind (Tx.writes_query (fun _ h => h) _) (fun found => ?_)
  cases found with
  | some found => trivial
  | none => exact namedWrite_ensureActorKey rfl

theorem namedWrite_deleteUser (userId : Uuid) :
    (deleteUser userId).Writes (NamedWrite domain) := by
  refine Tx.writes_bind ?_ (fun affected => by split <;> trivial)
  refine Query.writes_exec (R := fun d d' => Named domain d → Named domain d') (fun _ h => h)
    (fun d _ d' hdel hd => ?_)
  split at hdel
  · cases hdel
    refine ⟨hd.unique.sublist (List.filter_sublist.map _), fun k hk => ?_⟩
    exact hd.keys k (List.mem_of_mem_filter hk)
  · cases hdel
    exact hd

theorem Named.run_onDb {q : Query α} (hq : q.Writes (NamedWrite domain)) {s : Server}
    (h : Named domain s.db) : Named domain ((onDb q).run s).2.db := by
  rw [SyncServer.run_onDb]
  exact Tx.Writes.run hq h

theorem Named.run_handler {t : Handler α}
    (ht : t.Writes (fun w => ∀ s, Named domain s.db → Named domain (w s).db)) {s : Server}
    (h : Named domain s.db) : Named domain (t.run s).2.db :=
  Tx.Writes.run (I := fun s : Server => Named domain s.db) ht h

-- what a call writes is read off its statements, without running it
attribute [local irreducible] Tx.Writes

theorem Named.account (env : AccountEnv) (call : Call) {s : Server} (h : Named domain s.db) :
    Named domain (call.serve env s).db := by
  have hsame : ∀ w : Server → Server, (∀ s, accountsAndKeys (w s).db = accountsAndKeys s.db) →
      ∀ s, Named domain s.db → Named domain (w s).db := by
    intro w hw s hs
    obtain ⟨husers, hkeys⟩ := Prod.mk.inj (hw s)
    exact ⟨husers ▸ hs.unique, hkeys ▸ hs.keys⟩
  have hnew : ∀ new maxUsers, (onDb (createUser new maxUsers)).Writes
      (fun w => ∀ s, Named domain s.db → Named domain (w s).db) := by
    intro new maxUsers
    exact Tx.writes_onPart (fun _ hw (s : Server) => hw s.db) (namedWrite_createUser new maxUsers)
  unfold Call.serve
  cases call with
  | register call =>
    exact h.run_handler (writes_register hsame (fun _ new maxUsers _ _ => hnew new maxUsers))
  | setupAdmin call =>
    exact h.run_handler (writes_setupAdmin hsame (fun _ new maxUsers _ _ => hnew new maxUsers))
  | deviceLogin call =>
    exact h.run_handler (writes_deviceLogin hsame (fun _ _ maxUsers => hnew _ maxUsers))
  | updateMe userId body =>
    refine h.run_handler (Tx.writes_bind (Tx.writes_done _ _) (fun changes => ?_))
    exact Tx.writes_onPart (fun _ hw (s : Server) => hw s.db)
      (namedWrite_updateProfile userId changes)
  | ensureShadow remoteUserId remoteServerUrl newId =>
    exact h.run_onDb (namedWrite_of_names (keepsNames_ensureFederatedShadowUser _ _ _ _)
      (keeps_ensureFederatedShadowUser (fun _ _ => rfl) _ _ _ _))

/-- Every call keeps `Named`. -/
theorem Named.serve (env : ActorEnv) (call : ActorCall) {s : Server} (h : Named env.domain s.db) :
    Named env.domain (call.serve env s).db := by
  unfold ActorCall.serve
  cases call with
  | account call => exact h.account env.accounts call
  | keyMaterial username generated =>
    exact h.run_onDb (namedWrite_ensureActorKeyMaterial env.outbox username generated)
  | delete userId => exact h.run_onDb (namedWrite_deleteUser userId)

theorem Named.run (env : ActorEnv) (calls : List ActorCall) {s : Server}
    (h : Named env.domain s.db) : Named env.domain (runActors env s calls).db := by
  induction calls generalizing s with
  | nil => exact h
  | cons call calls ih => exact ih (h.serve env call)

end

/-! ## Accounts that are found -/

section
variable {env : ActorEnv} {d : Db} {u : User} {generated : GeneratedKey}

theorem run_localUserExists (hu : u ∈ d.users.rows) :
    (localUserExists u.username).run d = (.ok true, d) := by
  have : d.users.rows.any (fun r => r.username = u.username) = true :=
    List.any_eq_true.mpr ⟨u, hu, by simp⟩
  rw [localUserExists, Tx.run_query, this]

theorem Named.userByUsername {domain : String} (h : Named domain d) (hu : u ∈ d.users.rows) :
    userByUsername u.username d = some u := by
  rcases hfind : Accounts.userByUsername u.username d with _ | v
  · exact absurd rfl (userByUsername_eq_none.mp hfind u hu)
  · have hname : v.username = u.username := by simpa using List.find?_some hfind
    rw [List.inj_on_of_nodup_map h.unique (List.mem_of_find?_eq_some hfind) hu hname]

theorem Named.canSign (h : Named env.domain d) (username : String) :
    CanSign env.outbox username d := by
  rw [CanSign, or_iff_not_imp_left]
  intro hnone k hk hkey
  rw [h.keys k hk] at hkey
  have hfind : actorKeyOf username d = none := by simpa using hnone
  rw [actorKeyOf, List.find?_eq_none] at hfind
  exact hfind k hk (by simpa using keyId_inj.mp hkey)

theorem run_actorProfile (h : Named env.domain d) (hu : u ∈ d.users.rows)
    (hfresh : d.federationActorKeys.get generated.id = none) {path : String}
    (hpath : env.lower path = u.username) :
    ∃ key d', (actorProfile env path generated).run d =
        (.ok (actorDocument env.domain u.username key), d') ∧
      key.keyId = keyId env.domain u.username ∧
      ∀ generated', (ensureActorKeyMaterial env.outbox u.username generated').run d' =
        (.ok key, d') := by
  have hexists := run_localUserExists hu
  obtain ⟨key, t, hrun, hkey⟩ := run_ensureActorKeyMaterial_key generated (h.canSign u.username)
    hfresh (List.any_eq_true.mpr ⟨u, hu, by simp⟩)
  refine ⟨key, _, ?_, ?_, run_ensureActorKeyMaterial_found hkey⟩
  · unfold actorProfile
    dsimp only
    rw [hpath, Tx.run_bind_ok hexists, if_neg (by simp), Tx.run_bind_ok hrun]
    rfl
  · have hnamed : Named env.domain { d with federationActorKeys := t } := by
      have := Tx.Writes.run (I := Named env.domain)
        (namedWrite_ensureActorKeyMaterial env.outbox u.username generated) h
      rwa [hrun] at this
    have hactor : key.actorUsername = u.username := by simpa using List.find?_some hkey
    rw [hnamed.keys key (List.mem_of_find?_eq_some hkey), hactor]

theorem resolves_of_actorName (laws : RouteLaws env) (h : Named env.domain d)
    (hu : u ∈ d.users.rows) (hfresh : d.federationActorKeys.get generated.id = none)
    (hname : ActorName u.username) : Resolves env u generated d := by
  obtain ⟨hprofile, hinbox⟩ := laws.plain hname.plain
  obtain ⟨hne, -, -, hchars⟩ := hname
  have hlower : env.lower u.username = u.username := toLowercase_actorChars _ hchars
  obtain ⟨key, d', hrun⟩ := run_actorProfile h hu hfresh hlower
  refine ⟨⟨_, key, d', hprofile, hrun⟩, ?_, _, hinbox, ?_⟩
  · have hparse := parseResource_actorName env.outbox.names.unicode env.domain hne hchars
    rw [webfinger, hparse, Tx.run_bind_ok (Tx.run_done _ _), Tx.run_bind_ok (run_localUserExists hu),
      if_neg (by simp)]
    rfl
  · rw [hlower]
    exact h.userByUsername hu

theorem Resolves.actorName (h : Resolves env u generated d) (laws : RouteLaws env) :
    ActorName u.username := by
  obtain ⟨username, d₁, hparse, hrest⟩ := Tx.run_bind_eq_ok h.webfinger
  obtain ⟨found, d₂, -, hdoc⟩ := Tx.run_bind_eq_ok hrest
  have hname := (Prod.mk.inj hparse).1
  have hsame : username = u.username := by
    split at hdoc
    · cases hdoc
    · exact webfingerDocument_inj.mp (Except.ok.inj (Prod.mk.inj hdoc).1)
  obtain ⟨hne, hchars⟩ := parseResource_ok (hsame ▸ hname)
  obtain ⟨path, -, -, hroute, -⟩ := h.profile
  exact ⟨hne, fun hdot => laws.dots (.inl hdot) path hroute,
    fun hdots => laws.dots (.inr hdots) path hroute, hchars⟩

end

/-- After every run of calls from a server without accounts, an account is found by what names it,
and its profile has the key of its deliveries, if and only if its name is one that WebFinger
admits and no dot segment. -/
theorem resolves_iff (env : ActorEnv) (laws : RouteLaws env) (server : Server)
    (husers : server.db.users = .empty) (hkeys : server.db.federationActorKeys = .empty)
    (calls : List ActorCall) (s : Server) (hs : s = runActors env server calls) (u : User)
    (hu : u ∈ s.db.users.rows) (generated : GeneratedKey)
    (hfresh : s.db.federationActorKeys.get generated.id = none) :
    Resolves env u generated s.db ↔ ActorName u.username := by
  have h₀ : Named env.domain server.db := by
    refine ⟨?_, fun k hk => ?_⟩
    · rw [husers]
      exact List.nodup_nil
    · rw [hkeys] at hk
      cases hk
  have hnamed : Named env.domain s.db := hs ▸ h₀.run env calls
  exact ⟨fun h => h.actorName laws, resolves_of_actorName laws hnamed hu hfresh⟩

/-! ## A name in capitals -/

def sampleRoute (url : String) : Route :=
  match Auth.stripStart "https://local.example/users/" url with
  | none => .other
  | some rest =>
    match splitOnce '/' rest with
    | none => if rest = "." ∨ rest = ".." then .other else .actorProfile rest
    | some (name, tail) =>
      if tail = "inbox" ∧ name ≠ "." ∧ name ≠ ".." then .inbox name else .other

def sampleActors : ActorEnv := ⟨sampleAccountEnv, sampleOutbox, sampleRoute⟩

theorem routeLaws_sampleActors : RouteLaws sampleActors where
  plain := by
    intro name hname
    obtain ⟨-, hdot, hdots, hchars⟩ := hname
    have hslash : '/' ∉ name.toList := by
      intro hmem
      have := List.all_eq_true.mp hchars _ hmem
      revert this
      decide
    have hinbox : actorUrl sampleActors.domain name ++ "/inbox" =
        "https://local.example/users/" ++ (name ++ String.singleton '/' ++ "inbox") := by
      change "https://local.example/users/" ++ name ++ "/inbox" = _
      simp [← String.toList_inj]
    constructor
    · change sampleRoute ("https://local.example/users/" ++ name) = _
      rw [sampleRoute, Auth.stripStart_append]
      simp only [splitOnce_eq_none.mpr hslash, hdot, hdots, or_self, if_false]
    · rw [hinbox]
      change sampleRoute _ = _
      rw [sampleRoute, Auth.stripStart_append]
      simp only [splitOnce_append hslash, hdot, hdots, ne_eq, not_false_eq_true, and_self, if_true]
  dots := by
    rintro name hname username
    have : sampleActors.route (actorUrl sampleActors.domain name) = .other := by
      rcases hname with rfl | rfl <;> decide
    simp [this]

/-- Somebody has registered. -/
def registered (username : String) : Server :=
  runActors sampleActors newServer [.account (registration username (username ++ "@example.org"))]

/-- Alice is found by what names her. -/
theorem resolves_iff_alice : ∃ u ∈ (registered "alice").db.users.rows, u.username = "alice" ∧
    Resolves sampleActors u aliceKey (registered "alice").db :=
  ⟨_, List.mem_cons_self, rfl, (resolves_iff sampleActors routeLaws_sampleActors newServer rfl rfl
    [.account (registration "alice" ("alice" ++ "@example.org"))] (registered "alice") rfl _
    List.mem_cons_self aliceKey (by decide)).mpr (by decide)⟩

/-- With a capital letter in her name she is not. -/
theorem capital_name_unresolved : ∃ u ∈ (registered "Alice").db.users.rows, u.username = "Alice" ∧
    sampleActors.route (actorUrl "local.example" "Alice") = .actorProfile "Alice" ∧
    ((actorProfile sampleActors "Alice" aliceKey).run (registered "Alice").db).1 =
      .error .notFound ∧
    ((webfinger sampleActors "acct:Alice@local.example").run (registered "Alice").db).1 =
      .error .notFound ∧
    ¬ Resolves sampleActors u aliceKey (registered "Alice").db := by
  have hprofile : ((actorProfile sampleActors "Alice" aliceKey).run (registered "Alice").db).1 =
      .error .notFound := rfl
  have hwebfinger : ((webfinger sampleActors "acct:Alice@local.example").run
      (registered "Alice").db).1 = .error .notFound := rfl
  refine ⟨_, List.mem_cons_self, rfl, by decide, hprofile, hwebfinger, fun h => ?_⟩
  have hfound := congrArg Prod.fst h.webfinger
  exact absurd (hwebfinger.symm.trans hfound) nofun

end SyncServer.Federation
