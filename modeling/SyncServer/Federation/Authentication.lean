import SyncServer.Federation.Signature

/-! # Authenticated requests

What is known of a request that gets past the verification of its signature, and which
requests do: those that are made as `post_activity_signed` makes them, if the key of the
actor verifies the signature.
-/

namespace SyncServer.Federation
open Transaction

/-- The checks that an authenticated request has passed. -/
structure Passed (env : FederationEnv) (r : InboxRequest) (v : Verified) : Prop where
  size : r.body.length ≤ maxPayloadBytes
  headers : checkHeaders env r = .ok (v.fields, v.actorUrl)
  canonical : canonicalizeSignedString env.names.unicode r.request v.fields.headers =
    .ok v.canonical
  verified : verifySignature env v.publicKeyPem v.canonical v.fields.signature = .ok ()

theorem verifyWithKeys_ok {env : FederationEnv} {r : InboxRequest}
    {actorUrl canonical signature pem : String} {s s' : Server}
    (h : (verifyWithKeys env r actorUrl canonical signature).run s = (.ok pem, s')) :
    verifySignature env pem canonical signature = .ok () := by
  obtain ⟨key, s₁, -, h⟩ := Tx.run_bind_eq_ok h
  rcases hv : verifySignature env key canonical signature with e | ⟨⟩
  · simp only [hv] at h
    obtain ⟨-, s₂, -, h⟩ := Tx.run_bind_eq_ok h
    obtain ⟨fresh, s₃, -, h⟩ := Tx.run_bind_eq_ok h
    obtain ⟨⟨⟩, s₄, hok, h⟩ := Tx.run_bind_eq_ok h
    cases h
    exact (Prod.mk.inj hok).1
  · simp only [hv] at h
    cases h
    exact hv

theorem authenticate_ok {env : FederationEnv} {r : InboxRequest} {s s' : Server} {v : Verified}
    (h : (authenticate env r).run s = (.ok v, s')) : Passed env r v := by
  obtain ⟨⟨⟩, s₁, hsize, h⟩ := Tx.run_bind_eq_ok h
  obtain ⟨found, s₂, -, h⟩ := Tx.run_bind_eq_ok h
  split at h
  · cases h
  obtain ⟨⟨fields, actorUrl⟩, s₃, hcheck, h⟩ := Tx.run_bind_eq_ok h
  obtain ⟨canonical, s₄, hcanonical, h⟩ := Tx.run_bind_eq_ok h
  obtain ⟨pem, s₅, hkeys, h⟩ := Tx.run_bind_eq_ok h
  cases h
  refine ⟨?_, (Prod.mk.inj hcheck).1, (Prod.mk.inj hcanonical).1, verifyWithKeys_ok hkeys⟩
  have := (Prod.mk.inj hsize).1
  unfold require at this
  split at this
  · rename_i hle
    simpa using hle
  · cases this

theorem run_fetch_new {env : FederationEnv} {actorUrl pem : String} {fetch : KeyFetch} {s : Server}
    (hcache : cachedKey env actorUrl fetch.now s = none)
    (hpem : publicKeyPemOf fetch.response = .ok pem) :
    (fetchActorPublicKey env actorUrl fetch false).run s =
      (.ok pem, rememberKey actorUrl ⟨pem, fetch.fetchedAt⟩ s) := by
  simp only [fetchActorPublicKey, Tx.run_bind, Tx.run_query, hcache, hpem]
  rfl

theorem run_fetch_cached {env : FederationEnv} {actorUrl pem : String} {fetch : KeyFetch}
    {s : Server} (hcache : cachedKey env actorUrl fetch.now s = some pem) :
    (fetchActorPublicKey env actorUrl fetch false).run s = (.ok pem, s) := by
  simp only [fetchActorPublicKey, Tx.run_bind, Tx.run_query, hcache]
  rfl

theorem run_authenticate {env : FederationEnv} {r : InboxRequest} {v : Verified} {s s' : Server}
    (h : Passed env r v)
    (huser : s.db.users.rows.any (fun u => u.username = env.names.unicode.toLowercase r.username))
    (hkey : (fetchActorPublicKey env v.actorUrl r.fetch false).run s = (.ok v.publicKeyPem, s')) :
    (authenticate env r).run s = (.ok v, s') := by
  have hverify : (verifyWithKeys env r v.actorUrl v.canonical v.fields.signature).run s =
      (.ok v.publicKeyPem, s') := by
    rw [verifyWithKeys, Tx.run_bind_ok hkey, h.verified]
    rfl
  have hfound : (onDb (localUserExists (env.names.unicode.toLowercase r.username))).run s =
      (.ok true, s) := by
    simp [run_onDb, localUserExists, huser, Server.setDb]
  have hsize : require (r.body.length ≤ maxPayloadBytes) "Payload too large" = .ok () := by
    simp [require, h.size]
  rw [authenticate, hsize, Tx.run_bind_ok (Tx.run_done _ s), Tx.run_bind_ok hfound, h.headers]
  simp only [not_true_eq_false, if_false, h.canonical, Tx.run_bind, Tx.run_done, hverify]
  rfl

theorem textHeader_ok {req : HttpRequest} {name title value : String}
    (h : textHeader req name title = .ok value) :
    ∃ v, req.header name = some v ∧ v.toStr = .ok value := by
  unfold textHeader at h
  split at h
  · cases h
  rename_i v hv
  split at h
  · cases h
  · rename_i hvalue
    cases h
    exact ⟨v, hv, hvalue⟩

theorem textHeader_of {req : HttpRequest} {name title value : String} {v : HeaderValue}
    (h : req.header name = some v) (hv : v.toStr = .ok value) :
    textHeader req name title = .ok value := by
  simp [textHeader, h, hv]

theorem parseSignatureHeader_ok {unicode : Unicode} {sig : String} {fields : SignatureFields}
    (h : parseSignatureHeader unicode sig = .ok fields) : "date" ∈ fields.headers := by
  unfold parseSignatureHeader at h
  rcases hf : (splitChar ',' sig).foldlM (readField unicode) ⟨none, none, none⟩ with e | ⟨k, g, hs⟩
  · rw [hf] at h
    cases h
  rw [hf, ok_bind] at h
  rcases k with _ | k <;> rcases g with _ | g <;> rcases hs with _ | hs
  all_goals try cases h
  obtain ⟨hdate, hok⟩ := require_bind_eq_ok.mp h
  cases hok
  simpa using hdate

/-- The headers that have been looked at. -/
theorem checkHeaders_ok {env : FederationEnv} {r : InboxRequest} {fields : SignatureFields}
    {actorUrl : String} (h : checkHeaders env r = .ok (fields, actorUrl)) :
    textHeader r.request "digest" "Digest" = .ok (digestValue env r.body) ∧
      (∃ sig, textHeader r.request "signature" "Signature" = .ok sig ∧
        parseSignatureHeader env.names.unicode sig = .ok fields) ∧
      parseKeyIdActorUrl fields.keyId = .ok actorUrl ∧
      ensureRemoteDomainAllowed env actorUrl = .ok () := by
  unfold checkHeaders at h
  rcases hdigest : textHeader r.request "digest" "Digest" with e | digest
  · simp [hdigest, bind, Except.bind] at h
  simp only [hdigest, ok_bind] at h
  split at h
  · cases h
  rename_i heq
  rcases hdate : textHeader r.request "date" "Date" with e | date
  · simp [hdate, bind, Except.bind] at h
  simp only [hdate, ok_bind] at h
  rcases hts : env.parseRfc2822 date with e | ts
  · simp [hts, bind, Except.bind, Except.mapError] at h
  rcases hw : validateReplayWindow ts r.now env.signatureWindowSecs with e | ⟨⟩
  · simp [hts, hw, bind, Except.bind, Except.mapError] at h
  rcases hsig : textHeader r.request "signature" "Signature" with e | sig
  · simp [hts, hw, hsig, bind, Except.bind, Except.mapError] at h
  rcases hparse : parseSignatureHeader env.names.unicode sig with e | fields'
  · simp [hts, hw, hsig, hparse, bind, Except.bind, Except.mapError] at h
  rcases hkey : parseKeyIdActorUrl fields'.keyId with e | actorUrl'
  · simp [hts, hw, hsig, hparse, hkey, bind, Except.bind, Except.mapError] at h
  rcases hallowed : ensureRemoteDomainAllowed env actorUrl' with e | ⟨⟩
  · simp [hts, hw, hsig, hparse, hkey, hallowed, bind, Except.bind, Except.mapError] at h
  simp only [hts, Except.mapError, hw, hsig, hparse, hkey, hallowed, ok_bind] at h
  cases h
  simp only [ne_eq, Decidable.not_not] at heq
  exact ⟨by rw [heq], ⟨sig, rfl, hparse⟩, hkey, hallowed⟩

theorem checkHeaders_of {env : FederationEnv} {r : InboxRequest} {fields : SignatureFields}
    {actorUrl date sig : String} {ts : Int}
    (hdigest : textHeader r.request "digest" "Digest" = .ok (digestValue env r.body))
    (hdate : textHeader r.request "date" "Date" = .ok date) (hts : env.parseRfc2822 date = .ok ts)
    (hw : (r.now - ts).natAbs ≤ env.signatureWindowSecs)
    (hsig : textHeader r.request "signature" "Signature" = .ok sig)
    (hparse : parseSignatureHeader env.names.unicode sig = .ok fields)
    (hkey : parseKeyIdActorUrl fields.keyId = .ok actorUrl)
    (hallowed : ensureRemoteDomainAllowed env actorUrl = .ok ()) :
    checkHeaders env r = .ok (fields, actorUrl) := by
  have hwindow : validateReplayWindow ts r.now env.signatureWindowSecs = .ok () :=
    if_neg (by simpa using hw)
  simp only [checkHeaders, hdigest, ok_bind, ne_eq, not_true_eq_false, if_false, hdate, hts,
    Except.mapError, hwindow, hsig, hparse, hkey, hallowed]
  rfl

/-! ## Requests of other servers -/

def Printable (s : String) : Prop := ∀ c ∈ s.toList, 32 ≤ c.toNat ∧ c.toNat < 127

instance (s : String) : Decidable (Printable s) := inferInstanceAs (Decidable (∀ c ∈ s.toList, _))

theorem printable_append {s t : String} (hs : Printable s) (ht : Printable t) :
    Printable (s ++ t) := by
  rw [Printable, String.toList_append, List.forall_mem_append]
  exact ⟨hs, ht⟩

def headerValue (s : String) (h : Printable s) : HeaderValue where
  text := s
  valid c hc := .inr (by have := h c hc; omega)

theorem headerValue_toStr {s : String} (h : Printable s) : (headerValue s h).toStr = .ok s := by
  rw [HeaderValue.toStr, if_pos]
  · rfl
  · rw [List.all_eq_true]
    intro c hc
    simpa using (h c hc).2

theorem signed_target (unicode : Unicode) (req : HttpRequest) :
    signedLine unicode req requestTarget = .ok (targetLine unicode req) := if_pos rfl

theorem signedLine_of_header {unicode : Unicode} {req : HttpRequest} {h value : String}
    {v : HeaderValue} (ht : h ≠ requestTarget) (hv : req.header h = some v)
    (hvalue : v.toStr = .ok value) : signedLine unicode req h = .ok (headerLine h value) := by
  simp [signedLine, ht, hv, hvalue]

/-- A request to the inbox of a user, with the headers that `post_activity_signed` sends. -/
structure SignedPost where
  user : String
  target : String
  host : String
  date : String
  digest : String
  body : List UInt8
  keyId : String
  headers : String
  signature : String
  target_visible : ∀ c ∈ target.toList, 32 < c.toNat
  host_printable : Printable host
  date_printable : Printable date
  digest_printable : Printable digest
  keyId_printable : Printable keyId
  headers_printable : Printable headers
  signature_printable : Printable signature

namespace SignedPost
variable (p : SignedPost)

theorem signature_header_printable : Printable (signatureHeader p.keyId p.headers p.signature) := by
  have h₁ : Printable "keyId=\"" := by decide
  have h₂ : Printable "\",algorithm=\"ed25519\",headers=\"" := by decide
  have h₃ : Printable "\",signature=\"" := by decide
  have h₄ : Printable "\"" := by decide
  have hkeyId := printable_append (printable_append h₁ p.keyId_printable) h₂
  have hheaders := printable_append (printable_append hkeyId p.headers_printable) h₃
  exact printable_append (printable_append hheaders p.signature_printable) h₄

def request : HttpRequest where
  method := "POST"
  pathAndQuery := p.target
  headers := [("host", headerValue p.host p.host_printable),
    ("accept", ⟨"application/activity+json", by decide⟩),
    ("content-type", ⟨"application/activity+json", by decide⟩),
    ("date", headerValue p.date p.date_printable),
    ("digest", headerValue p.digest p.digest_printable),
    ("signature", headerValue _ p.signature_header_printable)]
  method_token := post_token
  path_visible := p.target_visible
  names_token := by
    simp only [List.forall_mem_cons]
    decide

/-- The request as it arrives at `now`, with what the server would learn of the key. -/
def arriving (now : Int) (fetch : KeyFetch) : InboxRequest :=
  ⟨p.request, p.user, p.body, now, fetch, fetch⟩

def signedNames (unicode : Unicode) : List String :=
  (splitWhitespace p.headers).map (fun s => unicode.toLowercase (trim s))

/-- What is signed if the signature names the headers as `build_signature_header` does. -/
theorem canonicalize_eq (unicode : Unicode) :
    canonicalizeSignedString unicode p.request ["(request-target)", "host", "date", "digest"] =
      .ok (joinLines [targetLine unicode p.request, headerLine "host" p.host,
        headerLine "date" p.date, headerLine "digest" p.digest]) := by
  have htarget : signedLine unicode p.request "(request-target)" =
      .ok (targetLine unicode p.request) := signed_target unicode p.request
  have hhost : signedLine unicode p.request "host" = .ok (headerLine "host" p.host) :=
    signedLine_of_header (by decide) rfl (headerValue_toStr p.host_printable)
  have hdate : signedLine unicode p.request "date" = .ok (headerLine "date" p.date) :=
    signedLine_of_header (by decide) rfl (headerValue_toStr p.date_printable)
  have hdigest : signedLine unicode p.request "digest" = .ok (headerLine "digest" p.digest) :=
    signedLine_of_header (by decide) rfl (headerValue_toStr p.digest_printable)
  simp only [canonicalizeSignedString, signedLines, htarget, hhost, hdate, hdigest, ok_bind]
  rfl

variable {p} {env : FederationEnv} {now ts : Int} {fetch : KeyFetch} {actorUrl : String}

theorem checkHeaders_eq (hdigest : p.digest = digestValue env p.body)
    (hts : env.parseRfc2822 p.date = .ok ts) (hw : (now - ts).natAbs ≤ env.signatureWindowSecs)
    (hk : Quotable p.keyId) (hh : Quotable p.headers) (hs : Quotable p.signature)
    (hdate : "date" ∈ p.signedNames env.names.unicode)
    (hkey : parseKeyIdActorUrl p.keyId = .ok actorUrl)
    (hallowed : ensureRemoteDomainAllowed env actorUrl = .ok ()) :
    checkHeaders env (p.arriving now fetch) =
      .ok (⟨p.keyId, p.signature, p.signedNames env.names.unicode⟩, actorUrl) := by
  refine checkHeaders_of ?_ (textHeader_of (by rfl) (headerValue_toStr p.date_printable)) hts hw
    (textHeader_of (by rfl) (headerValue_toStr p.signature_header_printable))
    (parse_signatureHeader hk hh hs hdate) hkey hallowed
  exact hdigest ▸ textHeader_of (by rfl) (headerValue_toStr p.digest_printable)

theorem accepted (now ts : Int) {canonical pem : String} {s s' : Server}
    (hsize : p.body.length ≤ maxPayloadBytes)
    (hdigest : p.digest = digestValue env p.body) (hts : env.parseRfc2822 p.date = .ok ts)
    (hw : (now - ts).natAbs ≤ env.signatureWindowSecs)
    (hk : Quotable p.keyId) (hh : Quotable p.headers) (hs : Quotable p.signature)
    (hdate : "date" ∈ p.signedNames env.names.unicode)
    (hkey : parseKeyIdActorUrl p.keyId = .ok actorUrl)
    (hallowed : ensureRemoteDomainAllowed env actorUrl = .ok ())
    (hcanonical : canonicalizeSignedString env.names.unicode p.request
      (p.signedNames env.names.unicode) = .ok canonical)
    (hverify : verifySignature env pem canonical p.signature = .ok ())
    (huser : s.db.users.rows.any (fun u => u.username = env.names.unicode.toLowercase p.user))
    (hpem : (fetchActorPublicKey env actorUrl fetch false).run s = (.ok pem, s')) :
    (authenticate env (p.arriving now fetch)).run s =
      (.ok ⟨actorUrl, pem, canonical, ⟨p.keyId, p.signature, p.signedNames env.names.unicode⟩⟩,
        s') :=
  run_authenticate (v := ⟨actorUrl, pem, canonical, _⟩)
    ⟨hsize, checkHeaders_eq hdigest hts hw hk hh hs hdate hkey hallowed, hcanonical, hverify⟩
    huser hpem

end SignedPost

end SyncServer.Federation
