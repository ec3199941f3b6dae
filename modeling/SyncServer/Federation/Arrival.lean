import SyncServer.Federation.Peers

/-! # Messages that arrive

A message of a user with a good name is taken in by the other server: the request is signed under
the key that the profile of the user shows, and what is signed is what is verified.
-/

namespace SyncServer.Federation
open Transaction Accounts

/-! ## What is signed is verified -/

/-- The two servers are built with the same libraries. -/
structure SameLibraries (p : Peers) : Prop where
  unicode : p.signing.unicode = p.receiver.names.unicode
  digest : p.signing.digestSha256Base64 = p.receiver.digestSha256Base64

/-- The public key verifies what the private key signs. -/
def KeyPair (p : Peers) (key : FederationActorKey) : Prop :=
  ∀ canonical sig, signCanonical p.signing key.privateKeyPkcs8 canonical = .ok sig →
    verifySignature p.receiver key.publicKeyPem canonical sig = .ok ()

/-- The receiver asks for the actor of the message while the actor has the key. -/
def Asks (p : Peers) (m : RemoteMessage) (key : FederationActorKey) (fetch : KeyFetch) : Prop :=
  ∃ path generated d, p.sender.route (m.actor p) = .actorProfile path ∧ m.sender ∈ d.users.rows ∧
    actorKeyOf m.sender.username d = some key ∧
    ∀ document, ((actorProfile p.sender path generated).run d).1 = .ok document →
      fetch.response = .answered true (.ok document)

/-- The names of the sender can be found and signed with. -/
structure Presentable (p : Peers) (m : RemoteMessage) (s : Server) : Prop where
  name : ActorName m.sender.username
  domain : ',' ∉ p.sender.domain.toList ∧ '#' ∉ p.sender.domain.toList
  named : Named p.sender.domain s.db

/-- Nothing in the request for a message stands against it. -/
structure Acceptable (p : Peers) (m : RemoteMessage) (destination date : String)
    (r : InboxRequest) : Prop where
  size : r.body.length ≤ maxPayloadBytes
  allowed : ensureRemoteDomainAllowed p.receiver (m.actor p) = .ok ()
  timely : ∃ ts, p.receiver.parseRfc2822 date = .ok ts ∧
    (r.now - ts).natAbs ≤ p.receiver.signatureWindowSecs
  noPort : ∀ url, p.signing.parseUrl destination = .ok url → url.port = none

theorem outboundHeader_ok {name value : String} {h : String × HeaderValue}
    (hok : outboundHeader name value = .ok h) : h.1 = name ∧ h.2.toStr = .ok value := by
  unfold outboundHeader at hok
  split at hok
  · cases hok
  rename_i v hv
  cases hok
  exact ⟨rfl, HeaderValue.toStr_ofStr hv⟩

theorem signedPost_texts {env : SigningEnv} {destination keyId privatePkcs8 date : String}
    {payload : List UInt8} {req : OutboundRequest}
    (h : signedPost env destination keyId privatePkcs8 payload date = .ok req) :
    (∃ v, req.header "date" = some v ∧ v.toStr = .ok date) ∧
      ∃ v, req.header "digest" = some v ∧
        v.toStr = .ok ("SHA-256=" ++ env.digestSha256Base64 payload) := by
  obtain ⟨unsigned, hunsigned, h⟩ := bind_eq_ok.mp h
  obtain ⟨signature, -, h⟩ := bind_eq_ok.mp h
  split at h
  · cases h
  cases h
  rw [header_append (by decide), header_append (by decide)]
  obtain ⟨url, -, h⟩ := bind_eq_ok.mp hunsigned
  obtain ⟨⟨accept, v₁⟩, haccept, h⟩ := bind_eq_ok.mp h
  obtain ⟨⟨contentType, v₂⟩, hcontentType, h⟩ := bind_eq_ok.mp h
  obtain ⟨⟨dateName, v₃⟩, hdate, h⟩ := bind_eq_ok.mp h
  obtain ⟨⟨digestName, v₄⟩, hdigest, h⟩ := bind_eq_ok.mp h
  cases h
  obtain ⟨rfl, -⟩ := outboundHeader_ok haccept
  obtain ⟨rfl, -⟩ := outboundHeader_ok hcontentType
  obtain ⟨rfl, hdate⟩ := outboundHeader_ok hdate
  obtain ⟨rfl, hdigest⟩ := outboundHeader_ok hdigest
  exact ⟨⟨v₃, rfl, hdate⟩, ⟨v₄, rfl, hdigest⟩⟩

theorem ActorName.not_mem {name : String} (h : ActorName name) {c : Char}
    (hc : isActorChar c = false) : c ∉ name.toList := by
  intro hmem
  have hactor := List.all_eq_true.mp h.2.2.2 c hmem
  rw [hc] at hactor
  cases hactor

section
variable {p : Peers} {m : RemoteMessage} {key : FederationActorKey} {destination date : String}
  {r : InboxRequest}

theorem Asks.pem {fetch : KeyFetch} (h : Asks p m key fetch) (hroutes : RouteLaws p.sender)
    (hname : ActorName m.sender.username) :
    publicKeyPemOf fetch.response = .ok key.publicKeyPem := by
  obtain ⟨path, generated, d, hroute, hu, hkey, hanswer⟩ := h
  rw [RemoteMessage.actor, (hroutes.plain hname.plain).1] at hroute
  obtain rfl := Route.actorProfile.inj hroute
  have hlower : p.sender.lower m.sender.username = m.sender.username :=
    toLowercase_actorChars _ hname.2.2.2
  have hprofile : ((actorProfile p.sender m.sender.username generated).run d).1 =
      .ok (actorDocument p.sender.domain m.sender.username key) := by
    rw [actorProfile, hlower, Tx.run_bind_ok (run_localUserExists hu)]
    simp only [not_true_eq_false, if_false]
    rw [Tx.run_bind_ok (run_ensureActorKeyMaterial_found hkey generated)]
    rfl
  rw [hanswer _ hprofile]
  simp [publicKeyPemOf, actorDocument, Json.ofFields, Json.get_insertField, Json.asStr]

/-- The key under which the message is verified is the one that it was signed with, or one that
happens to verify it too. -/
theorem run_verifyWithKeys {env : FederationEnv} {actorUrl canonical signature pem : String}
    (hfetch : publicKeyPemOf r.fetch.response = .ok pem)
    (hrefetch : publicKeyPemOf r.refetch.response = .ok pem)
    (hverify : verifySignature env pem canonical signature = .ok ()) (s : Server) :
    (verifyWithKeys env r actorUrl canonical signature).Succeeds s := by
  rcases hcache : cachedKey env actorUrl r.fetch.now s with _ | old
  · refine Tx.succeeds_bind.mpr ⟨pem, _, run_fetch_new hcache hfetch, ?_⟩
    rw [hverify]
    exact Tx.succeeds_pure _ _
  · refine Tx.succeeds_bind.mpr ⟨old, s, run_fetch_cached hcache, ?_⟩
    rcases hold : verifySignature env old canonical signature with e | ⟨⟩
    · -- the key in the cache is out of date, and a new one is asked for
      have hforced : (fetchActorPublicKey env actorUrl r.refetch true).run (forgetKey actorUrl s) =
          (.ok pem, rememberKey actorUrl ⟨pem, r.refetch.fetchedAt⟩ (forgetKey actorUrl s)) := by
        simp only [fetchActorPublicKey, Tx.run_bind, Tx.run_query, if_true, hrefetch]
        rfl
      refine Tx.succeeds_bind.mpr ⟨(), forgetKey actorUrl s, rfl, ?_⟩
      refine Tx.succeeds_bind.mpr ⟨pem, _, hforced, ?_⟩
      rw [hverify]
      exact ⟨pem, _, rfl⟩
    · exact Tx.succeeds_pure _ _

theorem run_authenticate_of_keys {env : FederationEnv} {fields : SignatureFields}
    {actorUrl canonical : String} {s : Server} (hsize : r.body.length ≤ maxPayloadBytes)
    (huser : s.db.users.rows.any (fun u => u.username = env.names.unicode.toLowercase r.username))
    (hheaders : checkHeaders env r = .ok (fields, actorUrl))
    (hcanonical : canonicalizeSignedString env.names.unicode r.request fields.headers =
      .ok canonical)
    (hkeys : (verifyWithKeys env r actorUrl canonical fields.signature).Succeeds s) :
    ∃ pem s', (authenticate env r).run s = (.ok ⟨actorUrl, pem, canonical, fields⟩, s') := by
  obtain ⟨pem, s', hkeys⟩ := hkeys
  have hfound : (onDb (localUserExists (env.names.unicode.toLowercase r.username))).run s =
      (.ok true, s) := by
    simp [run_onDb, localUserExists, huser, Server.setDb]
  have hrequire : require (r.body.length ≤ maxPayloadBytes) "Payload too large" = .ok () := by
    simp [require, hsize]
  refine ⟨pem, s', ?_⟩
  rw [authenticate, hrequire, Tx.run_bind_ok (Tx.run_done _ s), Tx.run_bind_ok hfound, hheaders]
  simp only [not_true_eq_false, if_false, hcanonical, Tx.run_bind, Tx.run_done, hkeys]
  rfl

theorem quotable_of_sign {env : SigningEnv} {privatePkcs8 canonical sig : String}
    (h : signCanonical env privatePkcs8 canonical = .ok sig) : Quotable sig := by
  unfold signCanonical at h
  split at h
  · cases h
  split at h <;> cases h
  exact env.encodeBase64_quotable _

theorem Prepared.keyId_eq {s : Server} (h : Prepared p m s key destination)
    (hnamed : Named p.sender.domain s.db) :
    key.keyId = keyId p.sender.domain m.sender.username := by
  obtain ⟨d, hrun⟩ := h.key
  have hkey := ensureActorKeyMaterial_ok h.username hrun
  have hd : Named p.sender.domain d := by
    have := Tx.Writes.run
      (namedWrite_ensureActorKeyMaterial p.sender.outbox m.sender.username m.new.key) hnamed
    rw [hrun] at this
    exact this
  have hactor : key.actorUsername = m.sender.username := by simpa using List.find?_some hkey
  rw [hd.keys key (List.mem_of_find?_eq_some hkey), hactor]

theorem parse_messageHeader {domain username sig : String} (unicode : Unicode)
    (hcomma : ',' ∉ domain.toList) (hname : ActorName username) (hsig : Quotable sig) :
    parseSignatureHeader unicode
      (signatureHeader (keyId domain username) (" ".intercalate headersToSign) sig) =
      .ok ⟨keyId domain username, sig, headersToSign⟩ := by
  have hkey : ',' ∉ (domain ++ username).toList := by
    simp [hcomma, hname.not_mem (show isActorChar ',' = false by decide)]
  rw [parse_signatureHeader (quotable_keyId hkey) quotable_headersToSign hsig ?_,
    read_headersToSign]
  rw [read_headersToSign]
  decide

/-- The request for a message is authenticated as one of its actor. -/
theorem authenticates_message {sA sB : Server} (hlib : SameLibraries p)
    (hroutes : RouteLaws p.sender) (hpair : KeyPair p key)
    (hprepared : Prepared p m sA key destination) (hpresentable : Presentable p m sA)
    (harrives : Arrives p m key destination date r) (hacceptable : Acceptable p m destination date r)
    (hfetch : Asks p m key r.fetch) (hrefetch : Asks p m key r.refetch)
    (huser : sB.db.users.rows.any
      (fun u => u.username = p.receiver.names.unicode.toLowercase r.username)) :
    ∃ v s', (authenticate p.receiver r).run sB = (.ok v, s') ∧ v.actorUrl = m.actor p := by
  obtain ⟨hname, ⟨hcomma, hfragment⟩, hnamed⟩ := hpresentable
  obtain ⟨hsize, hallowed, ⟨ts, hts, hwindow⟩, hport⟩ := hacceptable
  obtain ⟨req, hsent, hreceived⟩ := harrives.request
  obtain ⟨⟨-, hurl, -⟩, canonical, sig, v, hcanonical, hsig, hv, htext⟩ := signedPost_eq_ok hsent
  obtain ⟨⟨vd, hdate, hdateText⟩, vg, hdigest, hdigestText⟩ := signedPost_texts hsent
  rw [hprepared.keyId_eq hnamed] at htext
  have hfragment : '#' ∉ (p.sender.domain ++ m.sender.username).toList := by
    simp [hfragment, hname.not_mem (show isActorChar '#' = false by decide)]
  have hparse := parse_messageHeader p.receiver.names.unicode hcomma hname (quotable_of_sign hsig)
  have hheaders : checkHeaders p.receiver r =
      .ok (⟨keyId p.sender.domain m.sender.username, sig, headersToSign⟩, m.actor p) := by
    refine checkHeaders_of (textHeader_of (hreceived.headers _ _ (by decide) hdigest) ?_)
      (textHeader_of (hreceived.headers _ _ (by decide) hdate) hdateText) hts hwindow
      (textHeader_of (hreceived.headers _ _ (by decide) hv) htext) hparse
      (parseKeyIdActorUrl_keyId hfragment) hallowed
    rw [hdigestText, hlib.digest]
    rfl
  have hsame : canonicalizeSignedString p.receiver.names.unicode r.request headersToSign =
      .ok canonical := by
    rw [← hlib.unicode]
    exact (canonicalize_eq_iff hreceived hcanonical).mpr (hport _ hurl)
  obtain ⟨pem, s', hrun⟩ := run_authenticate_of_keys hsize huser hheaders hsame
    (run_verifyWithKeys (hfetch.pem hroutes hname) (hrefetch.pem hroutes hname)
      (hpair canonical sig hsig) sB)
  exact ⟨_, s', hrun, rfl⟩

end

/-! ## Arrival -/

theorem Carries.accepted {env : FederationEnv} {call : InboxCall} {s : Server} {activity : Activity}
    (h : Carries env call s activity) (hfresh : ¬ Recorded activity.id s.db)
    (hrow : s.db.federationInboxActivities.get call.new.activityRow = none)
    (hroom : Deliverable env.names activity.actor call.new s.db) :
    ((inbox env call).run s).1 = .ok (.accepted activity.id) := by
  obtain ⟨hnone, -⟩ | ⟨activity', s₁, h', hstore, hreceipt⟩ := inbox_cases env call s
  · exact absurd ⟨_, h⟩ hnone
  obtain rfl := h'.unique h
  have hdb : s₁.db = s.db := congrArg Prod.fst hstore
  generalize (inbox env call).run s = out at hreceipt ⊢
  cases hreceipt with
  | duplicate recorded => exact absurd (hdb ▸ recorded) hfresh
  | refused error fresh taken =>
    rw [hdb, hrow] at taken
    cases taken
  | noted => rfl
  | delivered => rfl
  | stuck error t note users remote fresh inserted create isNote unmapped undeliverable =>
    exact absurd (hdb ▸ hroom) undeliverable

/-- A message of a user whose name can be found arrives at the person whom the URL of the inbox
leads to, if its request is on time and both servers have room for it, whatever keys the receiver
remembers. -/
theorem direct_message_arrives (p : Peers) (m : RemoteMessage) (key : FederationActorKey)
    (destination date username : String) (sA sB : Server) (call : InboxCall) (user : User)
    (hlib : SameLibraries p) (hroutes : RouteLaws p.sender) (hpair : KeyPair p key)
    (hprepared : Prepared p m sA key destination) (hpresentable : Presentable p m sA)
    (harrives : Arrives p m key destination date call.toInboxRequest)
    (hacceptable : Acceptable p m destination date call.toInboxRequest)
    (hfetch : Asks p m key call.fetch) (hrefetch : Asks p m key call.refetch)
    (hcontent : trim m.content ≠ "") (hroute : p.route destination = .inbox username)
    (huser : userByUsername (p.receiver.names.unicode.toLowercase username) sB.db = some user)
    (hfresh : ¬ Recorded (m.activityId p) sB.db) (hunmapped : ¬ Mapped (m.activityId p) sB.db)
    (hrow : sB.db.federationInboxActivities.get call.new.activityRow = none)
    (hroom : Deliverable p.receiver.names (m.actor p) call.new sB.db) :
    let out := (inbox p.receiver call).run sB
    let sent := (m.deliver p out.1).run sA
    out.1 = .ok (.accepted (m.activityId p)) ∧
      TakenIn p m (p.receiver.names.unicode.toLowercase username) sB out.2 ∧ sent.1 = .ok () ∧
      ∃ row, deliveryOf (m.activityId p) destination sent.2.db = some row ∧
        row.status = "delivered" := by
  obtain rfl : call.username = username := Route.inbox.inj (harrives.routed.symm.trans hroute)
  intro out sent
  have hany : sB.db.users.rows.any
      (fun u => u.username = p.receiver.names.unicode.toLowercase call.username) := by
    have hname : user.username = p.receiver.names.unicode.toLowercase call.username := by
      simpa using List.find?_some huser
    exact List.any_eq_true.mpr ⟨user, List.mem_of_find?_eq_some huser, by simp [hname]⟩
  obtain ⟨v, s₁, hauth, hactor⟩ := authenticates_message hlib hroutes hpair hprepared hpresentable
    harrives hacceptable hfetch hrefetch hany
  have hcarries : Carries p.receiver call sB (m.received p destination) :=
    ⟨v, s₁, hauth, hactor ▸ checkActivity_message harrives.body⟩
  have hanswer : out.1 = .ok (.accepted (m.activityId p)) := hcarries.accepted hfresh hrow hroom
  have hok : out.1.isOk = true := by
    rw [hanswer]
    rfl
  obtain ⟨htaken, -⟩ := isOk_inbox_iff harrives.body hcontent hfresh hunmapped
  obtain ⟨⟨⟩, s', hrun⟩ := (hprepared.succeeds_iff out.1).mpr hok
  obtain ⟨row, hdelivery, hstatus⟩ := hprepared.recorded out.1
  exact ⟨hanswer, htaken.mp hok, congrArg Prod.fst hrun, row, hdelivery, hstatus.mpr hok⟩

/-! ## Samples -/

theorem keyPair_alice : KeyPair aliceAndBobPeers aliceActorKey := by
  intro canonical sig h
  have hsigned : signCanonical aliceAndBobPeers.signing samplePkcs8Text canonical =
      if canonical = greetingCanonical then .ok greetingSignatureText
      else .error (.internal "Failed to parse Ed25519 private key") := by
    by_cases hc : canonical = greetingCanonical <;>
      simp [signCanonical, aliceAndBobPeers, sampleSigning, hc]
  change signCanonical aliceAndBobPeers.signing samplePkcs8Text canonical = _ at h
  rw [hsigned] at h
  split at h
  · rename_i hc
    cases h
    rw [hc]
    decide +kernel
  · cases h

def aliceFetch : KeyFetch :=
  ⟨1424301369, .answered true (.ok (actorDocument "local.example" "alice" aliceActorKey)),
    1424301369⟩

theorem asks_aliceFetch : Asks aliceAndBobPeers aliceWritesBob aliceActorKey aliceFetch := by
  have hprofile : ((actorProfile sampleActors "alice" aliceKey).run serverOfAlice.db).1 =
      .ok (actorDocument "local.example" "alice" aliceActorKey) := rfl
  refine ⟨"alice", aliceKey, serverOfAlice.db, by decide, List.mem_cons_self, rfl, ?_⟩
  intro document h
  have hsame := hprofile.symm.trans h
  rw [← Except.ok.inj hsame]
  rfl

/-- Bob's server, which remembers another key of Alice. -/
def serverOfBob : Server :=
  rememberKey "https://local.example/users/alice" ⟨samplePem, 1424301000⟩ sampleServer

/-- The greeting arrives with the `Host` header of its client. -/
theorem greeting_arrives : ∃ r : InboxRequest,
    Arrives aliceAndBobPeers aliceWritesBob aliceActorKey sampleInbox samplePostDate r ∧
      r.body = greetingBody ∧ r.now = 1424301369 ∧ r.fetch = aliceFetch ∧
      r.refetch = aliceFetch := by
  have hok : (signedPost aliceAndBobPeers.signing sampleInbox aliceActorKey.keyId
      aliceActorKey.privateKeyPkcs8 greetingBody samplePostDate).isOk = true := by
    decide +kernel
  rcases hsent : signedPost aliceAndBobPeers.signing sampleInbox aliceActorKey.keyId
      aliceActorKey.privateKeyPkcs8 greetingBody samplePostDate with e | req
  · rw [hsent] at hok
    cases hok
  obtain ⟨⟨hmethod, hparse, hnames⟩, -⟩ := signedPost_eq_ok hsent
  have hurl : req.url = ⟨some "remote.example", none, "/users/bob/inbox", none⟩ :=
    (Except.ok.inj hparse).symm
  have htoken : ∀ h ∈ req.headers, ∀ c ∈ h.1.toList, isTokenChar c = true := by
    intro h hh
    have hname : h.1 ∈ req.headers.map Prod.fst := List.mem_map_of_mem hh
    rw [hnames] at hname
    revert hname
    generalize h.1 = name
    revert name
    decide
  have hpost : ∀ c ∈ req.method.toList, isTokenChar c = true := by
    rw [hmethod]
    exact post_token
  have htarget : ∀ c ∈ req.url.target.toList, 32 < c.toNat := by
    rw [hurl]
    decide
  have hroute : aliceAndBobPeers.route sampleInbox = .inbox "bob" := by decide
  refine ⟨⟨req.arrive ⟨"remote.example", by decide⟩ hpost htarget htoken, "bob", greetingBody,
    1424301369, aliceFetch, aliceFetch⟩, ⟨⟨req, hsent, ?_⟩, greeting_read, hroute⟩,
    rfl, rfl, rfl, rfl⟩
  refine unmodified_arrive hpost htarget htoken (fun h hh => ?_)
  rw [hurl] at hh ⊢
  cases hh
  decide

/-- Bob gets Alice's greeting, although his server remembers another key of hers. -/
theorem direct_message_arrives_bob : ∃ call : InboxCall, call.body = greetingBody ∧
    TakenIn aliceAndBobPeers aliceWritesBob "bob" serverOfBob
      ((inbox aliceAndBobPeers.receiver call).run serverOfBob).2 ∧
    ((aliceWritesBob.deliver aliceAndBobPeers
      ((inbox aliceAndBobPeers.receiver call).run serverOfBob).1).run serverOfAlice).1 = .ok () := by
  obtain ⟨r, harrives, hbody, hnow, hfetch, hrefetch⟩ := greeting_arrives
  have hacceptable : Acceptable aliceAndBobPeers aliceWritesBob sampleInbox samplePostDate r := by
    refine ⟨?_, by decide, ⟨1424301369, by decide, ?_⟩, fun url hurl => ?_⟩
    · rw [hbody]
      decide +kernel
    · rw [hnow]
      decide
    · rw [← Except.ok.inj hurl]
  have hpresentable : Presentable aliceAndBobPeers aliceWritesBob serverOfAlice :=
    ⟨by decide, by decide, by decide, by decide⟩
  have hroom : Deliverable aliceAndBobPeers.receiver.names
      (aliceWritesBob.actor aliceAndBobPeers) ⟨11, 12, 13, 14, 1424301369⟩ serverOfBob.db :=
    ⟨⟨"alice@local.example", by decide, .inr ⟨rfl, by decide⟩⟩, rfl, rfl⟩
  obtain ⟨-, htaken, hsent, -⟩ := direct_message_arrives aliceAndBobPeers aliceWritesBob
    aliceActorKey sampleInbox samplePostDate "bob" serverOfAlice serverOfBob
    ⟨r, ⟨11, 12, 13, 14, 1424301369⟩⟩ (sampleAccount 2 "bob") ⟨rfl, rfl⟩ routeLaws_sampleActors
    keyPair_alice prepared_aliceWritesBob hpresentable harrives hacceptable
    (hfetch ▸ asks_aliceFetch) (hrefetch ▸ asks_aliceFetch) (by decide) (by decide) (by decide)
    greeting_new.1 greeting_new.2 rfl hroom
  exact ⟨_, hbody, htaken, hsent⟩

end SyncServer.Federation
