import SyncServer.Federation.Signature

/-! # The string that is signed and the string that is verified

One server signs a string that it makes of the URL and the headers of its request. The other
makes the string again from the request that it receives. The two strings are the same if and
only if the URL names no port.
-/

namespace SyncServer.Federation

/-! ## Requests before they are sent -/

/-- A URL as the client has parsed it. The port is left out if it is that of the scheme. -/
structure RequestUrl where
  hostStr : Option String
  port : Option Nat
  path : String
  query : Option String
deriving DecidableEq, Repr

def RequestUrl.target (url : RequestUrl) : String :=
  match url.query with
  | some q => url.path ++ "?" ++ q
  | none => url.path

structure OutboundRequest where
  method : String
  url : RequestUrl
  headers : List (String × HeaderValue)

def OutboundRequest.header (req : OutboundRequest) (name : String) : Option HeaderValue :=
  (req.headers.find? (fun h => h.1 = asciiLower name)).map Prod.snd

/-- The libraries with which a request is built and signed. -/
structure SigningEnv where
  unicode : Unicode
  parseUrl : String → Except String RequestUrl
  digestSha256Base64 : List UInt8 → String
  decodeBase64 : String → Except String (List UInt8)
  /-- The signature under a key in PKCS#8, if the key is one. -/
  ed25519Sign : List UInt8 → String → Option (List UInt8)
  encodeBase64 : List UInt8 → String
  encodeBase64_quotable : ∀ bytes, Quotable (encodeBase64 bytes)

/-- `sign_canonical`. -/
def signCanonical (env : SigningEnv) (privatePkcs8 canonical : String) : Except AppError String :=
  match env.decodeBase64 privatePkcs8 with
  | .error e => .error (.internal ("Invalid stored private key base64: " ++ e))
  | .ok pkcs8 =>
    match env.ed25519Sign pkcs8 canonical with
    | none => .error (.internal "Failed to parse Ed25519 private key")
    | some sig => .ok (env.encodeBase64 sig)

def headersToSign : List String := [requestTarget, "host", "date", "digest"]

def outboundText (req : OutboundRequest) (name : String) : Except AppError String :=
  match (req.header name).bind (fun v => v.toStr.toOption) with
  | none => .error (.badRequest ("Missing " ++ name ++ " header"))
  | some value => .ok value

/-- The string that `build_signature_header` signs. -/
def outboundCanonical (unicode : Unicode) (req : OutboundRequest) : Except AppError String :=
  match req.url.hostStr with
  | none => .error (.badRequest "Destination URL missing host")
  | some host => do
    let date ← outboundText req "date"
    let digest ← outboundText req "digest"
    pure ("(request-target): " ++ unicode.toLowercase req.method ++ " " ++ req.url.target ++
      "\nhost: " ++ host ++ "\ndate: " ++ date ++ "\ndigest: " ++ digest)

/-- `build_signature_header`. -/
def buildSignatureHeader (env : SigningEnv) (req : OutboundRequest) (keyId privatePkcs8 : String) :
    Except AppError String := do
  let canonical ← outboundCanonical env.unicode req
  let sig ← signCanonical env privatePkcs8 canonical
  pure (signatureHeader keyId (" ".intercalate headersToSign) sig)

/-- `HeaderValue::from_str`. -/
def HeaderValue.ofStr (s : String) : Except String HeaderValue :=
  if h : ∀ c ∈ s.toList, c = '\t' ∨ (32 ≤ c.toNat ∧ c.toNat < 127) then
    .ok ⟨s, fun c hc => (h c hc).imp_right (fun ⟨h₁, h₂⟩ => ⟨h₁, by omega, by omega⟩)⟩
  else .error "failed to parse header value"

theorem HeaderValue.toStr_ofStr {s : String} {v : HeaderValue} (h : ofStr s = .ok v) :
    v.toStr = .ok s := by
  unfold ofStr at h
  split at h
  · rename_i hs
    cases h
    apply if_pos
    rw [List.all_eq_true]
    intro c hc
    rcases hs c hc with rfl | ⟨-, hc⟩
    · decide
    · exact decide_eq_true hc
  · cases h

def outboundHeader (name value : String) : Except AppError (String × HeaderValue) :=
  match HeaderValue.ofStr value with
  | .error _ => .error (.internal "Failed to build outbound request: builder error")
  | .ok v => .ok (name, v)

/-- The request of `post_activity_signed` before it is signed. -/
def unsignedPost (env : SigningEnv) (destination : String) (payload : List UInt8) (date : String) :
    Except AppError OutboundRequest := do
  let url ← (env.parseUrl destination).mapError
    (fun e => AppError.internal ("Failed to build outbound request: " ++ e))
  let accept ← outboundHeader "accept" "application/activity+json"
  let contentType ← outboundHeader "content-type" "application/activity+json"
  let date ← outboundHeader "date" date
  let digest ← outboundHeader "digest" ("SHA-256=" ++ env.digestSha256Base64 payload)
  pure ⟨"POST", url, [accept, contentType, date, digest]⟩

/-- The request that `post_activity_signed` executes. -/
def signedPost (env : SigningEnv) (destination keyId privatePkcs8 : String) (payload : List UInt8)
    (date : String) : Except AppError OutboundRequest := do
  let req ← unsignedPost env destination payload date
  let signature ← buildSignatureHeader env req keyId privatePkcs8
  match HeaderValue.ofStr signature with
  | .error e => .error (.badRequest ("Invalid signature header value: " ++ e))
  | .ok v => .ok { req with headers := req.headers ++ [("signature", v)] }

/-! ## Requests that arrive as they were sent -/

/-- The `Host` header of the client. -/
def hostHeader (host : String) (port : Option Nat) : String :=
  match port with
  | none => host
  | some p => host ++ ":" ++ toString p

theorem hostHeader_eq_iff (host : String) {port : Option Nat} :
    hostHeader host port = host ↔ port = none := by
  cases port with
  | none => simp [hostHeader]
  | some p =>
    simp only [hostHeader, reduceCtorEq, iff_false]
    intro h
    have hlength := congrArg (fun s => s.toList.length) h
    simp at hlength

/-- A server receives a request that is not modified on its way. -/
structure Unmodified (req : OutboundRequest) (received : HttpRequest) : Prop where
  method : received.method = req.method
  target : received.pathAndQuery = req.url.target
  host : ∀ h, req.url.hostStr = some h →
    ∃ v, received.header "host" = some v ∧ v.toStr = .ok (hostHeader h req.url.port)
  headers : ∀ name v, asciiLower name ≠ "host" → req.header name = some v →
    received.header name = some v

/-- The request that arrives with a `Host` header. -/
def OutboundRequest.arrive (req : OutboundRequest) (host : HeaderValue)
    (hmethod : ∀ c ∈ req.method.toList, isTokenChar c = true)
    (htarget : ∀ c ∈ req.url.target.toList, 32 < c.toNat)
    (hnames : ∀ h ∈ req.headers, ∀ c ∈ h.1.toList, isTokenChar c = true) : HttpRequest where
  method := req.method
  pathAndQuery := req.url.target
  headers := ("host", host) :: req.headers
  method_token := hmethod
  path_visible := htarget
  names_token := List.forall_mem_cons.mpr
    ⟨show ∀ c ∈ "host".toList, isTokenChar c = true by decide, hnames⟩

theorem unmodified_arrive {req : OutboundRequest} {v : HeaderValue}
    (hmethod : ∀ c ∈ req.method.toList, isTokenChar c = true)
    (htarget : ∀ c ∈ req.url.target.toList, 32 < c.toNat)
    (hnames : ∀ h ∈ req.headers, ∀ c ∈ h.1.toList, isTokenChar c = true)
    (hv : ∀ h, req.url.hostStr = some h → v.toStr = .ok (hostHeader h req.url.port)) :
    Unmodified req (req.arrive v hmethod htarget hnames) where
  method := rfl
  target := rfl
  host h hhost := ⟨v, rfl, hv h hhost⟩
  headers name w hname hw := by
    unfold HttpRequest.header OutboundRequest.arrive
    rw [List.find?_cons_of_neg (by simpa using Ne.symm hname)]
    exact hw

theorem outboundText_eq_ok {req : OutboundRequest} {name value : String}
    (h : outboundText req name = .ok value) :
    ∃ v, req.header name = some v ∧ v.toStr = .ok value := by
  unfold outboundText at h
  split at h
  · cases h
  rename_i text htext
  cases h
  obtain ⟨v, hv, hvalue⟩ := Option.bind_eq_some_iff.mp htext
  refine ⟨v, hv, ?_⟩
  rcases hto : v.toStr with e | t
  · rw [hto] at hvalue
    cases hvalue
  · rw [hto] at hvalue
    cases hvalue
    rfl

theorem outboundCanonical_eq_ok {unicode : Unicode} {req : OutboundRequest} {canonical : String}
    (h : outboundCanonical unicode req = .ok canonical) :
    ∃ host date digest, req.url.hostStr = some host ∧ outboundText req "date" = .ok date ∧
      outboundText req "digest" = .ok digest ∧
        canonical = "(request-target): " ++ unicode.toLowercase req.method ++ " " ++
          req.url.target ++ "\nhost: " ++ host ++ "\ndate: " ++ date ++ "\ndigest: " ++ digest := by
  unfold outboundCanonical at h
  rcases hhost : req.url.hostStr with _ | host
  · rw [hhost] at h
    cases h
  rw [hhost] at h
  dsimp only at h
  obtain ⟨date, hdate, h⟩ := bind_eq_ok.mp h
  obtain ⟨digest, hdigest, h⟩ := bind_eq_ok.mp h
  cases h
  exact ⟨host, date, digest, rfl, hdate, hdigest, rfl⟩

/-- The string that the server makes of the headers that were signed. -/
theorem canonicalize_unmodified (unicode : Unicode) {req : OutboundRequest}
    {received : HttpRequest} (hr : Unmodified req received) {host date digest : String}
    (hhost : req.url.hostStr = some host) (hdate : outboundText req "date" = .ok date)
    (hdigest : outboundText req "digest" = .ok digest) :
    canonicalizeSignedString unicode received headersToSign =
      .ok ("(request-target): " ++ unicode.toLowercase req.method ++ " " ++ req.url.target ++
        "\nhost: " ++ hostHeader host req.url.port ++ "\ndate: " ++ date ++
          "\ndigest: " ++ digest) := by
  obtain ⟨v₁, hv₁, ht₁⟩ := hr.host host hhost
  obtain ⟨v₂, hv₂, ht₂⟩ := outboundText_eq_ok hdate
  obtain ⟨v₃, hv₃, ht₃⟩ := outboundText_eq_ok hdigest
  have hline : ∀ {name value : String} {v : HeaderValue}, name ≠ requestTarget →
      received.header name = some v → v.toStr = .ok value →
        signedLine unicode received name = .ok (headerLine name value) := by
    intro name value v hname hv hvalue
    simp only [signedLine, if_neg hname, hv, hvalue]
  have hlines : signedLines unicode received headersToSign =
      .ok [targetLine unicode received, headerLine "host" (hostHeader host req.url.port),
        headerLine "date" date, headerLine "digest" digest] := by
    simp only [headersToSign, signedLines,
      hline (show "host" ≠ requestTarget by decide) hv₁ ht₁,
      hline (show "date" ≠ requestTarget by decide) (hr.headers _ _ (by decide) hv₂) ht₂,
      hline (show "digest" ≠ requestTarget by decide) (hr.headers _ _ (by decide) hv₃) ht₃,
      ok_bind]
    rfl
  rw [canonicalizeSignedString, hlines, ok_bind]
  refine congrArg Except.ok (String.toList_inj.mp ?_)
  simp [joinLines, targetLine, headerLine, requestTarget, hr.method, hr.target, List.intercalate]

theorem canonicalize_eq_iff {unicode : Unicode} {req : OutboundRequest} {received : HttpRequest}
    {canonical : String} (hr : Unmodified req received)
    (h : outboundCanonical unicode req = .ok canonical) :
    canonicalizeSignedString unicode received headersToSign = .ok canonical ↔
      req.url.port = none := by
  obtain ⟨host, date, digest, hhost, hdate, hdigest, rfl⟩ := outboundCanonical_eq_ok h
  rw [canonicalize_unmodified unicode hr hhost hdate hdigest, Except.ok.injEq, ← hostHeader_eq_iff host]
  simp [← String.toList_inj]

/-! ## The headers that the signature names -/

theorem quotable_headersToSign : Quotable (" ".intercalate headersToSign) :=
  ⟨by decide, by decide, by decide⟩

theorem read_headersToSign (unicode : Unicode) :
    (splitWhitespace (" ".intercalate headersToSign)).map (fun s => unicode.toLowercase (trim s)) =
      headersToSign := by
  have hascii : ∀ name ∈ headersToSign, unicode.toLowercase (trim name) = name := by
    intro name hname
    rw [unicode.toLowercase_ascii]
    · revert name
      decide
    · revert name
      decide
  rw [show splitWhitespace (" ".intercalate headersToSign) = headersToSign by decide]
  exact List.map_congr_left hascii |>.trans (List.map_id _)

theorem headers_of_parse {unicode : Unicode} {keyId signature : String} (hs : Quotable signature)
    {fields : SignatureFields}
    (h : parseSignatureHeader unicode
      (signatureHeader keyId (" ".intercalate headersToSign) signature) = .ok fields) :
    fields.headers = headersToSign := by
  have hh := quotable_headersToSign
  have hlast : ∀ first : PartialFields, List.foldlM (readField unicode) first
      [quoted "algorithm" "ed25519", quoted "headers" (" ".intercalate headersToSign),
        quoted "signature" signature] =
          .ok ⟨first.keyId, some signature, some headersToSign⟩ := by
    intro first
    simp [readField_part, hh, hs, quotable_algorithm, ok_bind, List.foldlM, read_headersToSign]
  unfold parseSignatureHeader at h
  rw [splitChar_signatureHeader hh hs, List.foldlM_append] at h
  obtain ⟨read, hread, h⟩ := bind_eq_ok.mp h
  obtain ⟨first, -, hread⟩ := bind_eq_ok.mp hread
  rw [hlast] at hread
  cases hread
  rcases hkey : first.keyId with _ | keyId
  · simp [hkey] at h
  · simp only [hkey] at h
    obtain ⟨-, h⟩ := require_bind_eq_ok.mp h
    cases h
    rfl

/-! ## Signed requests -/

theorem header_append {req : OutboundRequest} {name : String} {v : HeaderValue}
    (h : asciiLower name ≠ "signature") :
    OutboundRequest.header { req with headers := req.headers ++ [("signature", v)] } name =
      req.header name := by
  simp [OutboundRequest.header, Ne.symm h]

theorem outboundCanonical_signature (unicode : Unicode) (req : OutboundRequest) (v : HeaderValue) :
    outboundCanonical unicode { req with headers := req.headers ++ [("signature", v)] } =
      outboundCanonical unicode req := by
  unfold outboundCanonical outboundText
  rw [header_append (by decide), header_append (by decide)]

theorem outboundHeader_fst {name value : String} {h : String × HeaderValue}
    (hok : outboundHeader name value = .ok h) : h.1 = name := by
  unfold outboundHeader at hok
  split at hok <;> cases hok
  rfl

theorem unsignedPost_eq_ok {env : SigningEnv} {destination date : String}
    {payload : List UInt8} {req : OutboundRequest}
    (h : unsignedPost env destination payload date = .ok req) :
    req.method = "POST" ∧ env.parseUrl destination = .ok req.url ∧
      req.headers.map Prod.fst = ["accept", "content-type", "date", "digest"] := by
  obtain ⟨url, hurl, h⟩ := bind_eq_ok.mp h
  obtain ⟨accept, haccept, h⟩ := bind_eq_ok.mp h
  obtain ⟨contentType, hcontentType, h⟩ := bind_eq_ok.mp h
  obtain ⟨date, hdate, h⟩ := bind_eq_ok.mp h
  obtain ⟨digest, hdigest, h⟩ := bind_eq_ok.mp h
  cases h
  refine ⟨rfl, ?_, ?_⟩
  · rcases hparse : env.parseUrl destination with e | url'
    · rw [hparse] at hurl
      cases hurl
    · rw [hparse] at hurl
      cases hurl
      rfl
  · simp [outboundHeader_fst haccept, outboundHeader_fst hcontentType, outboundHeader_fst hdate,
      outboundHeader_fst hdigest]

/-- A signed request: what it is sent to, and the signature that it carries. -/
theorem signedPost_eq_ok {env : SigningEnv} {destination keyId privatePkcs8 date : String}
    {payload : List UInt8} {req : OutboundRequest}
    (h : signedPost env destination keyId privatePkcs8 payload date = .ok req) :
    (req.method = "POST" ∧ env.parseUrl destination = .ok req.url ∧
      req.headers.map Prod.fst = ["accept", "content-type", "date", "digest", "signature"]) ∧
    ∃ canonical sig v, outboundCanonical env.unicode req = .ok canonical ∧
      signCanonical env privatePkcs8 canonical = .ok sig ∧ req.header "signature" = some v ∧
      v.toStr = .ok (signatureHeader keyId (" ".intercalate headersToSign) sig) := by
  obtain ⟨unsigned, hunsigned, h⟩ := bind_eq_ok.mp h
  obtain ⟨signature, hsignature, h⟩ := bind_eq_ok.mp h
  obtain ⟨canonical, hcanonical, hsignature⟩ := bind_eq_ok.mp hsignature
  obtain ⟨sig, hsig, hsignature⟩ := bind_eq_ok.mp hsignature
  cases hsignature
  split at h
  · cases h
  rename_i v hv
  cases h
  obtain ⟨hmethod, hurl, hnames⟩ := unsignedPost_eq_ok hunsigned
  refine ⟨⟨hmethod, hurl, by simp [hnames]⟩, canonical, sig, v, ?_, hsig, ?_,
    HeaderValue.toStr_ofStr hv⟩
  · rwa [outboundCanonical_signature]
  · have hnone : unsigned.headers.find? (fun h => h.1 = asciiLower "signature") = none := by
      rw [List.find?_eq_none]
      intro h hh
      have hname : h.1 ∈ unsigned.headers.map Prod.fst := List.mem_map_of_mem hh
      rw [hnames] at hname
      revert hname
      generalize h.1 = name
      revert name
      decide
    unfold OutboundRequest.header
    rw [List.find?_append, hnone]
    rfl

/-- A server that receives a signed request as it was sent makes the string that was signed if and
only if the URL of the inbox names no port. -/
theorem signed_string_agrees_iff (env : SigningEnv) (destination keyId privatePkcs8 date : String)
    (payload : List UInt8) (req : OutboundRequest) (received : HttpRequest)
    (hsent : signedPost env destination keyId privatePkcs8 payload date = .ok req)
    (hreceived : Unmodified req received) :
    ∃ canonical sig v, outboundCanonical env.unicode req = .ok canonical ∧
      signCanonical env privatePkcs8 canonical = .ok sig ∧
      received.header "signature" = some v ∧
      v.toStr = .ok (signatureHeader keyId (" ".intercalate headersToSign) sig) ∧
      (∀ fields, parseSignatureHeader env.unicode
        (signatureHeader keyId (" ".intercalate headersToSign) sig) = .ok fields →
          fields.headers = headersToSign) ∧
      (canonicalizeSignedString env.unicode received headersToSign = .ok canonical ↔
        req.url.port = none) := by
  obtain ⟨-, canonical, sig, v, hcanonical, hsig, hv, htext⟩ := signedPost_eq_ok hsent
  have hquotable : Quotable sig := by
    unfold signCanonical at hsig
    split at hsig
    · cases hsig
    split at hsig <;> cases hsig
    exact env.encodeBase64_quotable _
  exact ⟨canonical, sig, v, hcanonical, hsig, hreceived.headers _ _ (by decide) hv, htext,
    fun fields hfields => headers_of_parse hquotable hfields,
    canonicalize_eq_iff hreceived hcanonical⟩

/-! ## Samples -/

def sampleInbox : String := "https://remote.example/users/bob/inbox"

def sampleInboxWithPort : String := "https://remote.example:8443/users/bob/inbox"

def samplePostDate : String := "Wed, 18 Feb 2015 23:16:09 +0000"

def samplePkcs8 : List UInt8 :=
  [48, 81, 2, 1, 1, 48, 5, 6, 3, 43, 101, 112, 4, 34, 4, 32, 157, 97, 177, 157, 239, 253, 90, 96,
    186, 132, 74, 244, 146, 236, 44, 196, 68, 73, 197, 105, 123, 50, 105, 25, 112, 59, 172, 3, 28,
    174, 127, 96, 129, 33, 0, 215, 90, 152, 1, 130, 177, 10, 183, 213, 75, 254, 211, 201, 100, 7,
    58, 14, 225, 114, 243, 218, 166, 35, 37, 175, 2, 26, 104, 247, 7, 81, 26]

def samplePkcs8Text : String :=
  "MFECAQEwBQYDK2VwBCIEIJ1hsZ3v/VpguoRK9JLsLMREScVpezJpGXA7rAMcrn9g" ++
    "gSEA11qYAYKxCrfVS/7TyWQHOg7hcvPapiMlrwIaaPcHURo="

def sampleSignature : List UInt8 :=
  [103, 140, 138, 253, 5, 158, 158, 65, 76, 56, 120, 25, 188, 34, 203, 159, 137, 29, 54, 204, 133,
    123, 141, 204, 53, 177, 127, 68, 231, 164, 110, 231, 164, 30, 83, 163, 240, 140, 34, 132, 23,
    28, 200, 170, 80, 92, 171, 96, 77, 195, 204, 7, 246, 192, 114, 178, 218, 41, 213, 246, 223,
    120, 164, 15]

def sampleSignatureText : String :=
  "Z4yK/QWenkFMOHgZvCLLn4kdNsyFe43MNbF/ROekbuekHlOj8IwihBccyKpQXKtgTcPMB/bAcrLaKdX233ikDw=="

def sampleSigning : SigningEnv where
  unicode := .ascii
  parseUrl s :=
    if s = sampleInbox then .ok ⟨some "remote.example", none, "/users/bob/inbox", none⟩
    else if s = sampleInboxWithPort then
      .ok ⟨some "remote.example", some 8443, "/users/bob/inbox", none⟩
    else .error "relative URL without a base"
  digestSha256Base64 body :=
    if body = [123, 125] then "RBNvo1WzZ4oRRq0W9+hknpT7T8If536DEMBg9hyq/4o="
    else "47DEQpj8HBSa+/TImW+5JCeuQeRkm5NMpJWZG3hSuFU="
  decodeBase64 s := if s = samplePkcs8Text then .ok samplePkcs8 else .error "Invalid padding"
  ed25519Sign key _ := if key = samplePkcs8 then some sampleSignature else none
  encodeBase64 bytes := if bytes = sampleSignature then sampleSignatureText else ""
  encodeBase64_quotable bytes := by
    split
    · exact ⟨by decide, by decide, by decide⟩
    · exact ⟨by decide, by decide, by decide⟩

/-- A request of Alice's server. -/
def samplePost (destination : String) : Except AppError OutboundRequest :=
  signedPost sampleSigning destination "https://local.example/users/alice#main-key" samplePkcs8Text
    [123, 125] samplePostDate

theorem samplePost_isOk :
    (samplePost sampleInbox).isOk ∧ (samplePost sampleInboxWithPort).isOk := by
  decide +kernel

/-- A sample request arrives with the `Host` header of its client. -/
theorem samplePost_arrives {destination : String} {port : Option Nat} (v : HeaderValue)
    (hok : (samplePost destination).isOk)
    (hurl : sampleSigning.parseUrl destination =
      .ok ⟨some "remote.example", port, "/users/bob/inbox", none⟩)
    (hv : v.toStr = .ok (hostHeader "remote.example" port)) :
    ∃ req received, samplePost destination = .ok req ∧ Unmodified req received ∧
      req.url.port = port := by
  rcases hsent : samplePost destination with e | req
  · rw [hsent] at hok
    cases hok
  obtain ⟨⟨hmethod, hparse, hnames⟩, -⟩ := signedPost_eq_ok hsent
  rw [hurl, Except.ok.injEq] at hparse
  have htoken : ∀ h ∈ req.headers, ∀ c ∈ h.1.toList, isTokenChar c = true := by
    intro h hh
    have hname : h.1 ∈ req.headers.map Prod.fst := List.mem_map_of_mem hh
    rw [hnames] at hname
    revert hname
    generalize h.1 = name
    revert name
    decide
  refine ⟨req, req.arrive v ?_ ?_ htoken, rfl, unmodified_arrive _ _ htoken ?_, by rw [← hparse]⟩
  · rw [hmethod]
    decide
  · rw [← hparse]
    exact show ∀ c ∈ "/users/bob/inbox".toList, 32 < c.toNat by decide
  · intro h hh
    rw [← hparse] at hh ⊢
    cases hh
    exact hv

/-- Without a port in the URL the server makes the string that was signed. -/
theorem signed_string_agrees_sample :
    ∃ req received canonical, samplePost sampleInbox = .ok req ∧ Unmodified req received ∧
      outboundCanonical .ascii req = .ok canonical ∧
      canonicalizeSignedString .ascii received headersToSign = .ok canonical := by
  obtain ⟨req, received, hsent, hreceived, hport⟩ := samplePost_arrives
    ⟨"remote.example", by decide⟩ samplePost_isOk.1 rfl (by decide)
  obtain ⟨canonical, -, -, hcanonical, -, -, -, -, hiff⟩ := signed_string_agrees_iff sampleSigning
    sampleInbox "https://local.example/users/alice#main-key" samplePkcs8Text samplePostDate
    [123, 125] req received hsent hreceived
  exact ⟨req, received, canonical, hsent, hreceived, hcanonical, hiff.mpr hport⟩

/-- With a port in the URL the server makes another string than the one that was signed. -/
theorem signed_string_without_port :
    ∃ req received canonical other, samplePost sampleInboxWithPort = .ok req ∧
      Unmodified req received ∧ outboundCanonical .ascii req = .ok canonical ∧
      canonicalizeSignedString .ascii received headersToSign = .ok other ∧ other ≠ canonical := by
  obtain ⟨req, received, hsent, hreceived, hport⟩ := samplePost_arrives
    ⟨"remote.example:8443", by decide⟩ samplePost_isOk.2 rfl (by decide)
  obtain ⟨-, canonical, -, -, hcanonical, -⟩ := signedPost_eq_ok hsent
  obtain ⟨host, date, digest, hhost, hdate, hdigest, -⟩ := outboundCanonical_eq_ok hcanonical
  have hother := canonicalize_unmodified .ascii hreceived hhost hdate hdigest
  refine ⟨req, received, canonical, _, hsent, hreceived, hcanonical, hother, ?_⟩
  rintro rfl
  have hnone := (canonicalize_eq_iff hreceived hcanonical).mp hother
  rw [hport] at hnone
  cases hnone

end SyncServer.Federation
