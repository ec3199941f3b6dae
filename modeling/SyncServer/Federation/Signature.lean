import SyncServer.Accounts.Users
import SyncServer.Server

/-! # Signed requests between servers

A request to an inbox carries a digest of its body and a signature over a string that
is made of the headers which the signature itself names. The handler compares the
digest, checks the date, and verifies the signature under the key of the actor.
-/

namespace SyncServer.Federation
open Transaction

/-- The libraries and the configuration of the federation. -/
structure FederationEnv where
  names : Accounts.NameEnv
  decodeBase64 : String → Except String (List UInt8)
  digestSha256Base64 : List UInt8 → String
  ed25519Verify : List UInt8 → String → List UInt8 → Bool
  parseRfc2822 : String → Except String Int
  parseJson : List UInt8 → Except String Json
  signatureWindowSecs : Int
  keyCacheTtlSecs : Int
  denylist : List String

/-! ## The signature header -/

structure SignatureFields where
  keyId : String
  signature : String
  headers : List String
deriving DecidableEq, Repr

/-- The fields that were read so far. -/
structure PartialFields where
  keyId : Option String
  signature : Option String
  headers : Option (List String)
deriving DecidableEq, Repr

def readField (unicode : Unicode) (fields : PartialFields) (part : String) :
    Except AppError PartialFields :=
  match splitOnce '=' (trim part) with
  | none => .error (.badRequest "Malformed Signature header")
  | some (k, v) =>
    let val := trimMatches '"' (trim v)
    if trim k = "keyId" then .ok { fields with keyId := some val }
    else if trim k = "signature" then .ok { fields with signature := some val }
    else if trim k = "headers" then
      .ok { fields with
        headers := some ((splitWhitespace val).map (fun s => unicode.toLowercase (trim s))) }
    else .ok fields

/-- `parse_signature_header`. -/
def parseSignatureHeader (unicode : Unicode) (sig : String) : Except AppError SignatureFields := do
  let fields ← (splitChar ',' sig).foldlM (readField unicode) ⟨none, none, none⟩
  match fields.keyId, fields.signature, fields.headers with
  | none, _, _ => .error (.badRequest "Signature missing keyId")
  | some _, none, _ => .error (.badRequest "Signature missing signature")
  | some _, some _, none => .error (.badRequest "Signature missing headers list")
  | some keyId, some signature, some headers => do
    require ("date" ∈ headers) "Signature headers must include date"
    pure ⟨keyId, signature, headers⟩

/-- The header that `build_signature_header` writes. -/
def signatureHeader (keyId headers signature : String) : String :=
  "keyId=\"" ++ keyId ++ "\",algorithm=\"ed25519\",headers=\"" ++ headers ++
    "\",signature=\"" ++ signature ++ "\""

structure Quotable (value : String) : Prop where
  no_comma : ',' ∉ value.toList
  head : '"' ∉ value.toList.head?
  last : '"' ∉ value.toList.getLast?

def quoted (name value : String) : String := name ++ "=\"" ++ value ++ "\""

section
variable {unicode : Unicode} {fields : PartialFields} {name value : String}

theorem toList_quoted :
    (quoted name value).toList = name.toList ++ '=' :: '"' :: value.toList ++ ['"'] := by
  simp [quoted]

theorem trim_quoted (hname : ∀ c ∈ (quoted name value).toList.head?, isWhitespace c = false) :
    trim (quoted name value) = quoted name value := by
  apply trim_eq_self hname
  intro c hc
  rw [toList_quoted, List.getLast?_concat] at hc
  cases hc
  decide

theorem splitOnce_quoted (hname : '=' ∉ name.toList) : splitOnce '=' (quoted name value) =
    some (name, String.singleton '"' ++ value ++ String.singleton '"') := by
  have : quoted name value =
      name ++ String.singleton '=' ++ (String.singleton '"' ++ value ++ String.singleton '"') := by
    apply String.toList_inj.mp
    simp [toList_quoted]
  rw [this, splitOnce_append hname]

theorem trimMatches_value (h : Quotable value) : trimMatches '"'
    (trim (String.singleton '"' ++ value ++ String.singleton '"')) = value := by
  have hws : isWhitespace '"' = false := by decide
  have hlist : (String.singleton '"' ++ value ++ String.singleton '"').toList =
      '"' :: value.toList ++ ['"'] := by
    simp
  rw [trim_eq_self, trimMatches_quoted h.head h.last]
  · simpa [hlist] using hws
  · rw [hlist, List.getLast?_concat]
    simpa using hws

theorem readField_quoted (h : Quotable value) (hname : '=' ∉ name.toList)
    (hhead : ∀ c ∈ (quoted name value).toList.head?, isWhitespace c = false)
    (htrim : trim name = name) :
    readField unicode fields (quoted name value) =
      if name = "keyId" then .ok { fields with keyId := some value }
      else if name = "signature" then .ok { fields with signature := some value }
      else if name = "headers" then
        .ok { fields with
          headers := some ((splitWhitespace value).map (fun s => unicode.toLowercase (trim s))) }
      else .ok fields := by
  simp only [readField, trim_quoted hhead, splitOnce_quoted hname, htrim, trimMatches_value h]

theorem readField_part (h : Quotable value)
    (hname : name ∈ ["keyId", "algorithm", "headers", "signature"]) :
    readField unicode fields (quoted name value) =
      if name = "keyId" then .ok { fields with keyId := some value }
      else if name = "signature" then .ok { fields with signature := some value }
      else if name = "headers" then
        .ok { fields with
          headers := some ((splitWhitespace value).map (fun s => unicode.toLowercase (trim s))) }
      else .ok fields := by
  simp only [List.mem_cons, List.not_mem_nil, or_false] at hname
  rcases hname with rfl | rfl | rfl | rfl
  all_goals exact readField_quoted h (by decide) (by simp [toList_quoted]; decide) (by decide)

theorem quotable_algorithm : Quotable "ed25519" := ⟨by decide, by decide, by decide⟩

theorem splitChar_signatureHeader {keyId headers signature : String} (hh : Quotable headers)
    (hs : Quotable signature) : splitChar ',' (signatureHeader keyId headers signature) =
      splitChar ',' (quoted "keyId" keyId) ++
        [quoted "algorithm" "ed25519", quoted "headers" headers, quoted "signature" signature] := by
  have hrest : splitChar ',' (String.ofList ([','].intercalate ([quoted "algorithm" "ed25519",
      quoted "headers" headers, quoted "signature" signature].map String.toList))) =
        [quoted "algorithm" "ed25519", quoted "headers" headers, quoted "signature" signature] := by
    apply splitChar_intercalate
    · simp [toList_quoted, hh.no_comma, hs.no_comma]
    · simp
  have htext : (signatureHeader keyId headers signature).toList = (quoted "keyId" keyId).toList ++
      ',' :: [','].intercalate ([quoted "algorithm" "ed25519", quoted "headers" headers,
        quoted "signature" signature].map String.toList) := by
    simp [signatureHeader, quoted, List.intercalate]
  rw [splitChar, String.toList_ofList] at hrest
  rw [splitChar, htext, List.splitOn_append_cons_self, List.map_append, hrest]
  rfl

theorem parse_signatureHeader {keyId headers signature : String} (hk : Quotable keyId)
    (hh : Quotable headers) (hs : Quotable signature)
    (hdate : "date" ∈ (splitWhitespace headers).map (fun s => unicode.toLowercase (trim s))) :
    parseSignatureHeader unicode (signatureHeader keyId headers signature) =
      .ok ⟨keyId, signature,
        (splitWhitespace headers).map (fun s => unicode.toLowercase (trim s))⟩ := by
  have hkey : splitChar ',' (quoted "keyId" keyId) = [quoted "keyId" keyId] := by
    rw [splitChar, List.splitOn_eq_singleton]
    · simp
    · simp [toList_quoted, hk.no_comma]
  unfold parseSignatureHeader
  rw [splitChar_signatureHeader hh hs, hkey]
  simp [readField_part, hk, hh, hs, quotable_algorithm, ok_bind, List.foldlM, hdate, require]

end

/-! ## The signed string -/

def headerLine (name value : String) : String := name ++ ": " ++ value

def requestTarget : String := "(request-target)"

def targetLine (unicode : Unicode) (req : HttpRequest) : String :=
  headerLine requestTarget (unicode.toLowercase req.method ++ " " ++ req.pathAndQuery)

def signedLine (unicode : Unicode) (req : HttpRequest) (h : String) : Except AppError String :=
  if h = requestTarget then .ok (targetLine unicode req)
  else match req.header h with
    | none => .error (.badRequest ("Missing signed header: " ++ h))
    | some v =>
      match v.toStr with
      | .error e => .error (.badRequest ("Invalid header value for " ++ h ++ ": " ++ e))
      | .ok value => .ok (headerLine h value)

def signedLines (unicode : Unicode) (req : HttpRequest) : List String → Except AppError (List String)
  | [] => .ok []
  | h :: headers => do
    let part ← signedLine unicode req h
    let parts ← signedLines unicode req headers
    pure (part :: parts)

/-- `canonicalize_signed_string`. -/
def canonicalizeSignedString (unicode : Unicode) (req : HttpRequest) (headers : List String) :
    Except AppError String := do
  let parts ← signedLines unicode req headers
  pure (joinLines parts)

/-! ## Keys and verification -/

/-- `parse_raw_pem_bytes`. -/
def parseRawPemBytes (env : FederationEnv) (pem : String) : Except AppError (List UInt8) :=
  let lines := textLines pem
  if lines.length < 3 then .error (.badRequest "Malformed PEM")
  else
    match env.decodeBase64 (String.join (lines.tail.dropLast)) with
    | .error e => .error (.badRequest ("Invalid PEM base64: " ++ e))
    | .ok bytes => .ok bytes

/-- `verify_signature`. -/
def verifySignature (env : FederationEnv) (publicKeyPem canonical signature : String) :
    Except AppError Unit := do
  let key ← parseRawPemBytes env publicKeyPem
  match env.decodeBase64 signature with
  | .error e => .error (.badRequest ("Invalid signature base64: " ++ e))
  | .ok raw => if env.ed25519Verify key canonical raw then .ok () else .error .unauthorized

/-- What a request for an actor document is answered with: a failure of the transport, or
whether the status is a success and the body, if it is JSON. -/
inductive ActorResponse where
  | failed (error : String)
  | answered (success : Bool) (body : Except String Json)

def publicKeyPemOf : ActorResponse → Except AppError String
  | .failed e => .error (.internal ("Failed to fetch actor document: " ++ e))
  | .answered false _ => .error .unauthorized
  | .answered true (.error e) => .error (.internal ("Invalid actor JSON: " ++ e))
  | .answered true (.ok body) =>
    match ((body.get "publicKey").bind (·.get "publicKeyPem")).bind Json.asStr with
    | none => .error .unauthorized
    | some pem => .ok pem

/-- A look at the key cache, with the clock, the answer to a request for the actor document,
and the clock when the answer is stored. -/
structure KeyFetch where
  now : Int
  response : ActorResponse
  fetchedAt : Int

def rememberKey (actorUrl : String) (key : CachedPublicKey) (s : Server) : Server :=
  { s with actorKeys := (actorUrl, key) :: s.actorKeys.filter (fun e => e.1 ≠ actorUrl) }

def forgetKey (actorUrl : String) (s : Server) : Server :=
  { s with actorKeys := s.actorKeys.filter (fun e => e.1 ≠ actorUrl) }

def cachedKey (env : FederationEnv) (actorUrl : String) (now : Int) (s : Server) : Option String :=
  ((s.actorKeys.find? (fun e => e.1 = actorUrl)).filter
    (fun e => now - e.2.fetchedAtTs ≤ env.keyCacheTtlSecs)).map (fun e => e.2.publicKeyPem)

/-- `fetch_actor_public_key`. -/
def fetchActorPublicKey (env : FederationEnv) (actorUrl : String) (fetch : KeyFetch)
    (forceRefresh : Bool) : Handler String := do
  let cached ← Tx.query (cachedKey env actorUrl fetch.now)
  match if forceRefresh then none else cached with
  | some pem => pure pem
  | none => do
    let pem ← Tx.done (publicKeyPemOf fetch.response)
    Tx.exec (fun _ => []) (fun s => .ok ((), rememberKey actorUrl ⟨pem, fetch.fetchedAt⟩ s))
    pure pem

/-! ## Authentication of a request to an inbox -/

def maxPayloadBytes : Nat := 256 * 1024

/-- `local_user_exists`. -/
def localUserExists (username : String) : Query Bool :=
  Tx.query (fun s => s.users.rows.any (fun r => r.username = username))

/-- `validate_replay_window`. -/
def validateReplayWindow (ts now windowSecs : Int) : Except AppError Unit :=
  if windowSecs < (now - ts).natAbs then .error .unauthorized else .ok ()

/-- `parse_key_id_actor_url`. -/
def parseKeyIdActorUrl (keyId : String) : Except AppError String :=
  match splitOnce '#' keyId with
  | none => .error (.badRequest "Signature keyId must include fragment")
  | some (actorUrl, _) =>
    if startsWith actorUrl "https://" || startsWith actorUrl "http://" then .ok actorUrl
    else .error (.badRequest "Signature keyId must be an absolute URL")

/-- `ensure_remote_domain_allowed`. -/
def ensureRemoteDomainAllowed (env : FederationEnv) (actorUrl : String) : Except AppError Unit :=
  match env.names.parseUrl actorUrl with
  | .error e => .error (.badRequest ("Invalid actor URL: " ++ e))
  | .ok parsed =>
    match parsed.host with
    | none => .error (.badRequest "Actor URL host missing")
    | some host =>
      if env.denylist.any (fun d => asciiLower d = asciiLower host) then .error .forbidden
      else .ok ()

def textHeader (req : HttpRequest) (name title : String) : Except AppError String :=
  match req.header name with
  | none => .error (.badRequest ("Missing " ++ title ++ " header"))
  | some v =>
    match v.toStr with
    | .error e => .error (.badRequest ("Invalid " ++ title ++ " header: " ++ e))
    | .ok value => .ok value

/-- The value that the `Digest` header of a body has. -/
def digestValue (env : FederationEnv) (body : List UInt8) : String :=
  "SHA-256=" ++ env.digestSha256Base64 body

/-- A request to the inbox of `username`, the clock, and what the server would learn if it
asked for the key of the actor, once or twice. -/
structure InboxRequest where
  request : HttpRequest
  username : String
  body : List UInt8
  now : Int
  fetch : KeyFetch
  refetch : KeyFetch

def checkHeaders (env : FederationEnv) (r : InboxRequest) :
    Except AppError (SignatureFields × String) := do
  let digestHeader ← textHeader r.request "digest" "Digest"
  if digestHeader ≠ digestValue env r.body then .error .unauthorized
  else do
    let dateHeader ← textHeader r.request "date" "Date"
    let requestTs ← (env.parseRfc2822 dateHeader).mapError
      (fun e => .badRequest ("Invalid Date header: " ++ e))
    validateReplayWindow requestTs r.now env.signatureWindowSecs
    let sigHeader ← textHeader r.request "signature" "Signature"
    let sigFields ← parseSignatureHeader env.names.unicode sigHeader
    let actorUrl ← parseKeyIdActorUrl sigFields.keyId
    ensureRemoteDomainAllowed env actorUrl
    pure (sigFields, actorUrl)

/-- What was verified: the key, the string and the actor whose key it is. -/
structure Verified where
  actorUrl : String
  publicKeyPem : String
  canonical : String
  fields : SignatureFields
deriving DecidableEq, Repr

def verifyWithKeys (env : FederationEnv) (r : InboxRequest) (actorUrl canonical signature : String) :
    Handler String := do
  let publicKeyPem ← fetchActorPublicKey env actorUrl r.fetch false
  match verifySignature env publicKeyPem canonical signature with
  | .ok () => pure publicKeyPem
  | .error _ => do
    Tx.exec (fun _ => []) (fun s => .ok ((), forgetKey actorUrl s))
    let refreshedKey ← fetchActorPublicKey env actorUrl r.refetch true
    Tx.done (verifySignature env refreshedKey canonical signature)
    pure refreshedKey

/-- What `inbox` does up to and including the verification of the signature. -/
def authenticate (env : FederationEnv) (r : InboxRequest) : Handler Verified := do
  Tx.done (require (r.body.length ≤ maxPayloadBytes) "Payload too large")
  let found ← onDb (localUserExists (env.names.unicode.toLowercase r.username))
  if ¬ found then throw .notFound
  else do
    let (sigFields, actorUrl) ← Tx.done (checkHeaders env r)
    let canonical ← Tx.done
      (canonicalizeSignedString env.names.unicode r.request sigFields.headers)
    let publicKeyPem ← verifyWithKeys env r actorUrl canonical sigFields.signature
    pure ⟨actorUrl, publicKeyPem, canonical, sigFields⟩

end SyncServer.Federation
