import SyncServer.Accounts.Shadows
import SyncServer.Auth.Rotation
import SyncServer.Guild.Suspicion
import SyncServer.Messaging.Direct

/-! # Contacts on other servers

A contact on another server is kept as a shadow account whose username holds the id of the person
and the host of the server. A reply to the contact is sent to the address that is read back from
the username. It is the address of the contact if and only if nothing else was in it.
-/

namespace SyncServer.Messaging
open Transaction Accounts Moderation Federation

/-! ## The handler -/

/-- A request to `resolve_contact`, with what it takes from outside. -/
structure ResolveContactCall where
  userId : Uuid
  recipientId : String
  recipientServerUrl : String
  now : Int
  audit : Uuid
  shadow : Uuid
deriving DecidableEq, Repr

structure ResolveContactResponse where
  partnerId : Uuid
  recipientId : String
  recipientServerUrl : String
  displayHandle : String
deriving DecidableEq, Repr

inductive ResolveContactAnswer where
  | resolved (response : ResolveContactResponse)
  | limited (guild : Guild.GuildSnapshot) (retryAfterSeconds : Int)
deriving DecidableEq, Repr

def resolveLocal (env : MessageEnv) (call : ResolveContactCall) (recipientId canonical : String) :
    Query ResolveContactResponse := do
  let localId ← Tx.done (parseLocalUuid env recipientId)
  ensureDirectMessageAllowed call.userId localId call.now
  let found ← findById localId
  let user ← Tx.okOr .notFound found
  pure ⟨user.id, recipientId, canonical, user.username⟩

def resolveRemote (env : MessageEnv) (call : ResolveContactCall)
    (recipientId canonical targetHost : String) : Query ResolveContactResponse := do
  let shadow ← ensureFederatedShadowUser env.outbox.names recipientId canonical call.shadow
  pure ⟨shadow.id, recipientId, canonical, recipientId ++ "@" ++ targetHost⟩

def resolveAllowed (env : MessageEnv) (call : ResolveContactCall) :
    Query ResolveContactResponse := do
  let recipientId := env.outbox.names.unicode.toLowercase (trim call.recipientId)
  Tx.done (require (recipientId ≠ "") "recipient_id cannot be empty")
  let serverUrl ← Tx.done (normalizeServerUrl env.outbox.names call.recipientServerUrl)
  let targetHost := env.outbox.names.unicode.toLowercase (serverUrl.host.getD "")
  if targetHost = instanceHost env.outbox.names env.outbox.instanceDomain then
    resolveLocal env call recipientId (canonicalServerUrl serverUrl)
  else resolveRemote env call recipientId (canonicalServerUrl serverUrl) targetHost

/-- `resolve_contact`. -/
def resolveContact (env : MessageEnv) (call : ResolveContactCall) :
    Handler ResolveContactAnswer := do
  let result ← onDb (Guild.resolveContactWithGuild env.guild call.userId call.now
    call.audit).asStatement
  match result with
  | .limited guild retryAfterSeconds => pure (.limited guild retryAfterSeconds)
  | .allowed => do
    let response ← onDb (resolveAllowed env call)
    pure (.resolved response)

/-! ## URLs of servers -/

structure Rooted (env : OutboxEnv) (text : String) : Prop where
  path : ∃ path, env.urlPath text = .ok path ∧ (path = "" ∨ path = "/")
  withPath : ∀ p, ∃ rest, env.withPath text ("/" ++ p) = text ++ "/" ++ rest

/-- What holds of the URLs that the parser returns, and of the texts that are made of them. -/
structure UrlLaws (env : OutboxEnv) : Prop where
  reparse : ∀ {raw url}, env.names.parseUrl raw = .ok url → url.host.isSome →
    ∃ url', env.names.parseUrl (canonicalServerUrl url) = .ok url' ∧ url'.host = url.host
  trimmed : ∀ {raw url}, env.names.parseUrl raw = .ok url → url.host.isSome →
    trim (canonicalServerUrl url) = canonicalServerUrl url
  scheme : ∀ {raw url}, env.names.parseUrl raw = .ok url → ':' ∉ url.scheme.toList
  rooted : ∀ {raw url}, env.names.parseUrl raw = .ok url → url.host.isSome →
    Rooted env (canonicalServerUrl url) ∧ Rooted env (canonicalServerUrl { url with port := none })
  https_host : ∀ {raw url host}, env.names.parseUrl raw = .ok url → url.scheme = "https" →
    url.host = some host → env.names.unicode.toLowercase host = host
  https_text : ∀ {host path : String}, env.urlPath ("https://" ++ host) = .ok path →
    ∀ p, ∃ rest, env.withPath ("https://" ++ host) p = "https://" ++ rest

/-- A host that can be read back from a username. -/
def ReadableHost (host : String) : Prop :=
  host ≠ "" ∧ host.toList.all (fun c => c.isAlphanum || c = '.' || c = '-')

instance (host : String) : Decidable (ReadableHost host) := inferInstanceAs (Decidable (_ ∧ _))

/-- An id that `normalize_remote_user_id` returns. -/
structure NormalId (unicode : Unicode) (id : String) : Prop where
  nonempty : id ≠ ""
  chars : id.toList.all (fun c => c.isAlphanum || c = '.' || c = '_' || c = '-')
  lower : unicode.toLowercase (trim id) = id

theorem parse_shadowUsername {unicode : Unicode} {id host : String} (hid : NormalId unicode id) :
    parseFederatedShadowUsername (federatedShadowUsername id host) = some ⟨id, host⟩ ↔
      ReadableHost host := by
  have hat : '@' ∉ id.toList := by
    intro h
    have := List.all_eq_true.mp hid.chars _ h
    revert this
    decide
  have hsplit : splitOnce '@' (federatedShadowUsername id host) = some (id, host) :=
    splitOnce_append hat
  rw [parseFederatedShadowUsername, hsplit]
  change (if id = "" ∨ host = "" then none else if ¬ _ then none else if ¬ _ then none else _) = _ ↔ _
  rw [if_neg (not_not.mpr hid.chars)]
  unfold ReadableHost
  by_cases hempty : host = ""
  · simp [hempty]
  · generalize host.toList.all (fun c => c.isAlphanum || c = '.' || c = '-') = readable
    cases readable <;> simp [hempty, hid.nonempty]

theorem not_isWhitespace_of_hostChar {c : Char}
    (h : (c.isAlphanum || c = '.' || c = '-') = true) : isWhitespace c = false := by
  have hrange : 45 ≤ c.toNat ∧ c.toNat ≤ 122 := by
    simp only [Bool.or_eq_true, decide_eq_true_eq] at h
    rcases h with (h | rfl) | rfl
    · have := isAlphanum_range h
      omega
    · decide
    · decide
  exact not_isWhitespace_of_range (by omega) (by omega)

theorem trim_httpsText {host : String} (h : ReadableHost host) :
    trim ("https://" ++ host) = "https://" ++ host := by
  apply trim_eq_self
  · intro c hc
    have hhead : ("https://" ++ host).toList.head? = some 'h' := by simp
    rw [hhead] at hc
    cases hc
    decide
  · intro c hc
    have hmem : c ∈ host.toList := by
      rw [String.toList_append, List.getLast?_append_of_ne_nil _ (by simpa using h.1)] at hc
      exact List.mem_of_getLast? hc
    exact not_isWhitespace_of_hostChar (List.all_eq_true.mp h.2 c hmem)

theorem buildRemoteInboxUrl_rooted {env : OutboxEnv} {text recipientId id : String}
    (h : Rooted env text) (htrim : trim text = text)
    (hid : env.names.unicode.toLowercase (trim recipientId) = id) (hne : id ≠ "") :
    ∃ rest, buildRemoteInboxUrl env text recipientId = .ok (text ++ "/" ++ rest) := by
  obtain ⟨path, hpath, hroot⟩ := h.path
  have htrimmed : trimEndMatches '/' path = "" := by
    rcases hroot with rfl | rfl <;> decide
  obtain ⟨rest, hrest⟩ := h.withPath ("users/" ++ id ++ "/inbox")
  refine ⟨rest, ?_⟩
  unfold buildRemoteInboxUrl
  simp only [htrim, hpath, hid, if_neg hne, htrimmed, ← hrest]
  rfl

theorem scheme_of_canonical {url : Url} (h : ':' ∉ url.scheme.toList) {rest rest' : String}
    (heq : canonicalServerUrl url ++ "/" ++ rest = "https://" ++ rest') : url.scheme = "https" := by
  have hleft : ∃ tail, canonicalServerUrl url ++ "/" ++ rest =
      url.scheme ++ String.singleton ':' ++ tail := by
    unfold canonicalServerUrl
    rcases url.port with _ | port
    · exact ⟨"//" ++ url.host.getD "" ++ "/" ++ rest, by simp [← String.toList_inj]⟩
    · exact ⟨"//" ++ url.host.getD "" ++ ":" ++ toString port ++ "/" ++ rest,
        by simp [← String.toList_inj]⟩
  obtain ⟨tail, htail⟩ := hleft
  have hright : "https://" ++ rest' = "https" ++ String.singleton ':' ++ ("//" ++ rest') := by
    simp [← String.toList_inj]
  have hsplit := splitOnce_append (b := tail) h
  rw [← htail, heq, hright, splitOnce_append (by decide)] at hsplit
  exact (Prod.mk.inj (Option.some.inj hsplit)).1.symm

/-- The address that is read back is that of the contact if and only if the URL names neither
another scheme nor a port. -/
theorem reply_url_iff {env : OutboxEnv} (laws : UrlLaws env) {raw : String} {url : Url}
    (hurl : env.names.parseUrl raw = .ok url) {h : String} (hhost : url.host = some h)
    (hreadable : ReadableHost (env.names.unicode.toLowercase h)) {recipientId id : String}
    (hrecipient : env.names.unicode.toLowercase (trim recipientId) = id)
    (hid : NormalId env.names.unicode id) :
    buildRemoteInboxUrl env ("https://" ++ env.names.unicode.toLowercase h) id =
      buildRemoteInboxUrl env (canonicalServerUrl url) recipientId ↔
        url.scheme = "https" ∧ url.port = none := by
  have hsome : url.host.isSome := by rw [hhost]; rfl
  obtain ⟨hrooted, hportless⟩ := laws.rooted hurl hsome
  obtain ⟨rest, hrest⟩ :=
    buildRemoteInboxUrl_rooted hrooted (laws.trimmed hurl hsome) hrecipient hid.nonempty
  have hcanonical : url.scheme = "https" → canonicalServerUrl { url with port := none } =
      "https://" ++ env.names.unicode.toLowercase h := by
    intro hs
    simp only [canonicalServerUrl, hs, hhost, Option.getD_some, laws.https_host hurl hs hhost]
    rfl
  constructor
  · intro heq
    rw [hrest] at heq
    have hs : url.scheme = "https" := by
      unfold buildRemoteInboxUrl at heq
      rw [trim_httpsText hreadable] at heq
      rcases hpath : env.urlPath ("https://" ++ env.names.unicode.toLowercase h) with e | path
      · rw [hpath] at heq
        cases heq
      simp only [hpath, hid.lower, if_neg hid.nonempty, Except.ok.injEq] at heq
      obtain ⟨rest', hrest'⟩ := laws.https_text hpath
        (trimEndMatches '/' path ++ "/users/" ++ id ++ "/inbox")
      rw [hrest'] at heq
      exact scheme_of_canonical (laws.scheme hurl) heq.symm
    refine ⟨hs, ?_⟩
    obtain ⟨rest', hrest'⟩ := buildRemoteInboxUrl_rooted (hcanonical hs ▸ hportless)
      (trim_httpsText hreadable) hid.lower hid.nonempty
    rw [hrest', Except.ok.injEq] at heq
    rcases hport : url.port with _ | port
    · rfl
    · rw [canonicalServerUrl, hport, hs, hhost, laws.https_host hurl hs hhost] at heq
      simp [← String.toList_inj] at heq
  · rintro ⟨hs, hport⟩
    have hsame : canonicalServerUrl url = "https://" ++ env.names.unicode.toLowercase h := by
      rw [← hcanonical hs, ← hport]
    rw [hsame, buildRemoteInboxUrl, buildRemoteInboxUrl, hrecipient, hid.lower]

/-! ## Contacts and replies -/

theorem normalizeRemoteUserId_eq_ok {env : NameEnv} (hcase : env.unicode.LowercaseLaws)
    {raw id : String} (h : normalizeRemoteUserId env raw = .ok id) :
    env.unicode.toLowercase (trim raw) = id ∧ NormalId env.unicode id := by
  obtain ⟨hnonempty, h⟩ := require_bind_eq_ok.mp h
  obtain ⟨hchars, h⟩ := require_bind_eq_ok.mp h
  cases h
  refine ⟨rfl, decide_eq_true_eq.mp hnonempty, hchars, ?_⟩
  rw [hcase.ends _ (trim_trim raw), hcase.idem]

theorem normalizeRemoteUserId_lowercase {env : NameEnv} (hcase : env.unicode.LowercaseLaws)
    (raw : String) : normalizeRemoteUserId env (env.unicode.toLowercase (trim raw)) =
      normalizeRemoteUserId env raw := by
  unfold normalizeRemoteUserId
  rw [hcase.ends _ (trim_trim raw), hcase.idem]

theorem normalizeServerUrl_eq_ok {env : NameEnv} {raw : String} {url : Url}
    (h : normalizeServerUrl env raw = .ok url) :
    env.parseUrl (trim raw) = .ok url ∧ ∃ host, url.host = some host := by
  unfold normalizeServerUrl at h
  rcases hparse : env.parseUrl (trim raw) with e | parsed
  · rw [hparse] at h
    cases h
  rw [hparse] at h
  rcases hhost : parsed.host with _ | host
  · simp [hhost] at h
  · simp only [hhost, Option.isNone_some, Bool.false_eq_true, if_false, Except.ok.injEq] at h
    subst h
    exact ⟨rfl, host, hhost⟩

/-- The account of a contact on another server. -/
theorem run_resolveRemote {env : MessageEnv} (laws : UrlLaws env.outbox)
    (hcase : env.outbox.names.unicode.LowercaseLaws) {call : ResolveContactCall} {raw : String}
    {url : Url} (hurl : env.outbox.names.parseUrl raw = .ok url) {h : String}
    (hhost : url.host = some h) {targetHost : String} {d d' : Db}
    {response : ResolveContactResponse}
    (hrun : (resolveRemote env call (env.outbox.names.unicode.toLowercase (trim call.recipientId))
      (canonicalServerUrl url) targetHost).run d = (.ok response, d')) :
    ∃ shadow id, d'.users.get response.partnerId = some shadow ∧
      normalizeRemoteUserId env.outbox.names call.recipientId = .ok id ∧
      shadow.username =
        federatedShadowUsername id (env.outbox.names.unicode.toLowercase h) := by
  have hsome : url.host.isSome := by rw [hhost]; rfl
  obtain ⟨url', hurl', hhost'⟩ := laws.reparse hurl hsome
  have hnormal : normalizeRemoteHost env.outbox.names (canonicalServerUrl url) =
      .ok (env.outbox.names.unicode.toLowercase h) := by
    simp only [normalizeRemoteHost, laws.trimmed hurl hsome, hurl', hhost', hhost]
  obtain ⟨shadow, d'', hensure, hrest⟩ := Tx.run_bind_eq_ok hrun
  cases hrest
  rcases hid : normalizeRemoteUserId env.outbox.names call.recipientId with e | id
  · rw [ensureFederatedShadowUser, normalizeRemoteUserId_lowercase hcase, hid] at hensure
    cases hensure
  rw [run_ensureShadow ((normalizeRemoteUserId_lowercase hcase _).trans hid) hnormal] at hensure
  have havailable : Available env.outbox.names
      (federatedShadowUsername id (env.outbox.names.unicode.toLowercase h)) call.shadow d.users := by
    by_contra hnot
    obtain ⟨e, he⟩ := shadowAccount_error hnot
    rw [he] at hensure
    cases hensure
  obtain ⟨account, t, hok, haccount⟩ := shadowAccount_ok havailable
  rw [hok] at hensure
  cases hensure
  exact ⟨shadow, id, haccount.get, rfl, haccount.name⟩

/-- The inbox that a reply is sent to is that of the contact if and only if the account of the
contact is a shadow, its host can be read back, and its URL names neither another scheme nor a
port. -/
theorem reply_routed_iff (env : MessageEnv) (laws : UrlLaws env.outbox)
    (hcase : env.outbox.names.unicode.LowercaseLaws) (call : ResolveContactCall) (s s' : Server)
    (response : ResolveContactResponse) (url : Url)
    (hrun : (resolveContact env call).run s = (.ok (.resolved response), s'))
    (hurl : normalizeServerUrl env.outbox.names call.recipientServerUrl = .ok url)
    (hremote : env.outbox.names.unicode.toLowercase (url.host.getD "") ≠
      instanceHost env.outbox.names env.outbox.instanceDomain) :
    ∃ shadow id host, s'.db.users.get response.partnerId = some shadow ∧
      normalizeRemoteUserId env.outbox.names call.recipientId = .ok id ∧
      normalizeRemoteHost env.outbox.names call.recipientServerUrl = .ok host ∧
      ((federatedIdentityForUser shadow = some ⟨id, host⟩ ∧
        buildRemoteInboxUrl env.outbox ("https://" ++ host) id =
          buildRemoteInboxUrl env.outbox (canonicalServerUrl url) call.recipientId) ↔
        endsWith shadow.email federatedShadowEmailDomain = true ∧ ReadableHost host ∧
          url.scheme = "https" ∧ url.port = none) := by
  obtain ⟨hparse, h, hhost⟩ := normalizeServerUrl_eq_ok hurl
  obtain ⟨result, s₁, -, hrun⟩ := Tx.run_bind_eq_ok hrun
  cases result with
  | limited guild retryAfterSeconds => cases hrun
  | allowed =>
    obtain ⟨answer, s₂, hresolve, hrun⟩ := Tx.run_bind_eq_ok hrun
    cases hrun
    rw [run_onDb] at hresolve
    rcases hallowed : (resolveAllowed env call).run s₁.db with ⟨answered, d⟩
    rw [hallowed] at hresolve
    cases hresolve
    obtain ⟨⟨⟩, d₁, hrequire, hallowed⟩ := Tx.run_bind_eq_ok hallowed
    rw [Tx.run_done, Prod.mk.injEq] at hrequire
    obtain ⟨-, rfl⟩ := hrequire
    rw [hurl] at hallowed
    change (if _ then _ else _ : Query ResolveContactResponse).run _ = _ at hallowed
    rw [if_neg hremote] at hallowed
    obtain ⟨shadow, id, hshadow, hid, hname⟩ := run_resolveRemote laws hcase hparse hhost hallowed
    refine ⟨shadow, id, env.outbox.names.unicode.toLowercase h, hshadow, hid, ?_, ?_⟩
    · simp only [normalizeRemoteHost, hparse, hhost]
    obtain ⟨hrecipient, hnormal⟩ := normalizeRemoteUserId_eq_ok hcase hid
    have hidentity : federatedIdentityForUser shadow =
        some ⟨id, env.outbox.names.unicode.toLowercase h⟩ ↔
          endsWith shadow.email federatedShadowEmailDomain = true ∧
            ReadableHost (env.outbox.names.unicode.toLowercase h) := by
      rw [federatedIdentityForUser, hname, ← parse_shadowUsername hnormal]
      by_cases hemail : endsWith shadow.email federatedShadowEmailDomain = true <;> simp [hemail]
    rw [hidentity, and_assoc, and_congr_right_iff]
    exact fun _ => and_congr_right fun hreadable =>
      reply_url_iff laws hparse hhost hreadable hrecipient hnormal

/-! ## Samples -/

def contactUrl (s : String) : Except String Url :=
  if s = "https://remote.example" then .ok ⟨"https", some "remote.example", none, some [""]⟩
  else if s = "https://remote.example:8443" then
    .ok ⟨"https", some "remote.example", some 8443, some [""]⟩
  else .error "relative URL without a base"

def contactOutbox : OutboxEnv where
  names := ⟨.ascii, contactUrl, sampleSha256⟩
  instanceDomain := "local.example"
  urlPath s := (contactUrl s).map (fun _ => "/")
  withPath s path := s ++ path
  maxDeliveryAttempts := 8

theorem contactUrl_cases {raw : String} {url : Url} (h : contactUrl raw = .ok url) :
    ∃ port, url = ⟨"https", some "remote.example", port, some [""]⟩ ∧
      (port = none ∨ port = some 8443) := by
  unfold contactUrl at h
  split at h
  · cases h
    exact ⟨none, rfl, .inl rfl⟩
  split at h
  · cases h
    exact ⟨some 8443, rfl, .inr rfl⟩
  · cases h

theorem urlLaws_contactOutbox : UrlLaws contactOutbox where
  reparse h _ := by
    obtain ⟨port, rfl, rfl | rfl⟩ := contactUrl_cases h
    · exact ⟨_, rfl, rfl⟩
    · exact ⟨⟨"https", some "remote.example", some 8443, some [""]⟩, by decide, rfl⟩
  trimmed h _ := by
    obtain ⟨port, rfl, rfl | rfl⟩ := contactUrl_cases h <;> decide
  scheme h := by
    obtain ⟨port, rfl, -⟩ := contactUrl_cases h
    exact show ':' ∉ "https".toList by decide
  rooted h _ := by
    have hrooted : ∀ text : String, contactUrl text = .ok ⟨"https", some "remote.example",
        none, some [""]⟩ ∨ contactUrl text = .ok ⟨"https", some "remote.example", some 8443,
          some [""]⟩ → Rooted contactOutbox text := by
      intro text htext
      refine ⟨⟨"/", ?_, .inr rfl⟩, fun p => ⟨p, ?_⟩⟩
      · rcases htext with htext | htext <;> simp [contactOutbox, htext, Except.map]
      · simp [contactOutbox, ← String.toList_inj]
    obtain ⟨port, rfl, rfl | rfl⟩ := contactUrl_cases h
    · exact ⟨hrooted _ (.inl (by decide)), hrooted _ (.inl (by decide))⟩
    · exact ⟨hrooted _ (.inr (by decide)), hrooted _ (.inl (by decide))⟩
  https_host h _ hhost := by
    obtain ⟨port, rfl, -⟩ := contactUrl_cases h
    cases hhost
    decide
  https_text _ p := ⟨_ ++ p, by simp [contactOutbox, ← String.toList_inj]; rfl⟩

def contactEnv : MessageEnv := ⟨contactOutbox, Guild.asciiEnv, fun _ => none⟩

/-- Alice adds Bob, who is on another server. -/
def addBob (recipientServerUrl : String) : ResolveContactCall :=
  ⟨1, "Bob", recipientServerUrl, 1000000, 50, 51⟩

def contactServer : Server := ⟨Auth.signedIn, none, [], [], []⟩

/-- The account that Bob gets. -/
def bobContact : User := deactivated (newShadow contactOutbox.names "bob@remote.example" 51).row

theorem run_addBob :
    ((resolveContact contactEnv (addBob "https://remote.example")).run contactServer).1 =
        .ok (.resolved ⟨51, "bob", "https://remote.example", "bob@remote.example"⟩) ∧
      ((resolveContact contactEnv (addBob "https://remote.example:8443")).run contactServer).1 =
        .ok (.resolved ⟨51, "bob", "https://remote.example:8443", "bob@remote.example"⟩) := by
  constructor <;> decide +kernel

theorem contact_addBob :
    ((resolveContact contactEnv (addBob "https://remote.example")).run
        contactServer).2.db.users.get 51 = some bobContact ∧
      ((resolveContact contactEnv (addBob "https://remote.example:8443")).run
        contactServer).2.db.users.get 51 = some bobContact := by
  constructor <;> decide +kernel

/-- A reply reaches Bob if the URL of his server has no port. -/
theorem reply_routed_iff_bob :
    federatedIdentityForUser bobContact = some ⟨"bob", "remote.example"⟩ ∧
      buildRemoteInboxUrl contactOutbox "https://remote.example" "bob" =
        buildRemoteInboxUrl contactOutbox "https://remote.example" "Bob" := by
  obtain ⟨shadow, id, host, hshadow, hid, hhost, hiff⟩ := reply_routed_iff contactEnv
    urlLaws_contactOutbox Unicode.lowercaseLaws_ascii (addBob "https://remote.example")
    contactServer _ _ ⟨"https", some "remote.example", none, some [""]⟩
    (Prod.ext run_addBob.1 rfl) (by decide) (by decide)
  cases hshadow.symm.trans contact_addBob.1
  cases hid.symm.trans (show _ = .ok "bob" by decide)
  cases hhost.symm.trans (show _ = .ok "remote.example" by decide)
  exact hiff.mpr ⟨by decide, by decide, rfl, rfl⟩

/-- A reply to Bob is sent to another inbox than his if the URL of his server has a port. -/
theorem reply_misrouted :
    ((resolveContact contactEnv (addBob "https://remote.example:8443")).run contactServer).1 =
        .ok (.resolved ⟨51, "bob", "https://remote.example:8443", "bob@remote.example"⟩) ∧
      ((resolveContact contactEnv (addBob "https://remote.example:8443")).run
        contactServer).2.db.users.get 51 = some bobContact ∧
      federatedIdentityForUser bobContact = some ⟨"bob", "remote.example"⟩ ∧
      buildRemoteInboxUrl contactOutbox "https://remote.example" "bob" =
        .ok "https://remote.example/users/bob/inbox" ∧
      buildRemoteInboxUrl contactOutbox "https://remote.example:8443" "Bob" =
        .ok "https://remote.example:8443/users/bob/inbox" :=
  ⟨run_addBob.2, contact_addBob.2, by decide, by decide, by decide⟩

end SyncServer.Messaging
