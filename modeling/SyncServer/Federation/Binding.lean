import SyncServer.Accounts.Shadows
import SyncServer.Federation.Authentication

/-! # What a signature covers

The lines of the signed string are those of the headers that the signature names, so
the signature covers the target and the body of a request exactly when it names
`(request-target)` and `digest`.
-/

namespace SyncServer.Federation
open Transaction

/-! ## Lines -/

theorem headerLine_eq (name value : String) :
    headerLine name value = name ++ String.singleton ':' ++ (" " ++ value) := by
  have : ": " = String.singleton ':' ++ " " := rfl
  rw [headerLine, this, String.append_assoc, String.append_assoc, String.append_assoc]

theorem headerLine_inj {name name' value value' : String} (h : ':' ∉ name.toList)
    (h' : ':' ∉ name'.toList) (he : headerLine name value = headerLine name' value') :
    name = name' ∧ value = value' := by
  have hsplit : splitOnce ':' (headerLine name value) = some (name, " " ++ value) := by
    rw [headerLine_eq, splitOnce_append h]
  have hsplit' : splitOnce ':' (headerLine name' value') = some (name', " " ++ value') := by
    rw [headerLine_eq, splitOnce_append h']
  rw [he, hsplit', Option.some.injEq, Prod.mk.injEq] at hsplit
  refine ⟨hsplit.1.symm, ?_⟩
  have := congrArg String.toList hsplit.2
  simp only [String.toList_append, List.append_cancel_left_eq] at this
  exact (String.toList_inj.mp this).symm

section
variable {unicode : Unicode} {req : HttpRequest} {headers parts : List String} {h l : String}

theorem signedLine_ok (hl : signedLine unicode req h = .ok l) :
    (h = requestTarget ∧ l = targetLine unicode req) ∨
      ∃ v, req.header h = some v ∧ l = headerLine h v.text := by
  unfold signedLine at hl
  split at hl
  · rename_i ht
    cases hl
    exact .inl ⟨ht, rfl⟩
  split at hl
  · cases hl
  rename_i v hv
  split at hl
  · cases hl
  rename_i value hvalue
  cases hl
  unfold HeaderValue.toStr at hvalue
  split at hvalue
  · cases hvalue
    exact .inr ⟨v, hv, rfl⟩
  · cases hvalue

theorem colon_not_mem (hl : signedLine unicode req h = .ok l) : ':' ∉ h.toList := by
  obtain ⟨rfl, -⟩ | ⟨v, hv, -⟩ := signedLine_ok hl
  · decide
  · intro hc
    have := HttpRequest.token_of_header hv ':' hc
    revert this
    decide

theorem signedLine_name (hl : signedLine unicode req h = .ok l) : ∃ x, l = headerLine h x := by
  obtain ⟨rfl, rfl⟩ | ⟨v, -, rfl⟩ := signedLine_ok hl
  · exact ⟨_, rfl⟩
  · exact ⟨_, rfl⟩

theorem newline_not_mem_method : '\n' ∉ (unicode.toLowercase req.method).toList := by
  rw [unicode.toLowercase_ascii _ (fun c hc => isTokenChar_ascii (req.method_token c hc)),
    String.toList_ofList]
  intro hmem
  obtain ⟨c, hc, hlow⟩ := List.mem_map.mp hmem
  have hnl : c = '\n' := eq_of_toLower hlow (by decide)
  have := req.method_token c hc
  rw [hnl] at this
  revert this
  decide

theorem newline_not_mem (hl : signedLine unicode req h = .ok l) : '\n' ∉ l.toList := by
  obtain ⟨rfl, rfl⟩ | ⟨v, hv, rfl⟩ := signedLine_ok hl
  · have hpath : '\n' ∉ req.pathAndQuery.toList := by
      intro hmem
      have := req.path_visible _ hmem
      revert this
      decide
    have hname : '\n' ∉ requestTarget.toList := by decide
    simp [targetLine, headerLine, newline_not_mem_method, hpath, hname]
  · have hname : '\n' ∉ h.toList := by
      intro hmem
      have := HttpRequest.token_of_header hv _ hmem
      revert this
      decide
    have hvalue : '\n' ∉ v.text.toList := by
      intro hmem
      have := v.valid _ hmem
      revert this
      decide
    simp [headerLine, hname, hvalue]

theorem mem_signedLines (hp : signedLines unicode req headers = .ok parts) :
    l ∈ parts ↔ ∃ h ∈ headers, signedLine unicode req h = .ok l := by
  induction headers generalizing parts with
  | nil =>
    cases hp
    simp
  | cons h headers ih =>
    rw [signedLines] at hp
    rcases hh : signedLine unicode req h with e | part
    · simp [hh, bind, Except.bind] at hp
    rcases hs : signedLines unicode req headers with e | rest
    · simp [hh, hs, bind, Except.bind] at hp
    · simp only [hh, hs, ok_bind] at hp
      cases hp
      simp [ih hs, hh, eq_comm]

theorem headerLine_mem {name value : String} (hn : ':' ∉ name.toList)
    (hp : signedLines unicode req headers = .ok parts) :
    headerLine name value ∈ parts ↔
      name ∈ headers ∧ signedLine unicode req name = .ok (headerLine name value) := by
  rw [mem_signedLines hp]
  constructor
  · rintro ⟨h, hmem, hl⟩
    obtain ⟨x, hx⟩ := signedLine_name hl
    obtain ⟨rfl, -⟩ := headerLine_inj hn (colon_not_mem hl) hx
    exact ⟨hmem, hl⟩
  · rintro ⟨hmem, hl⟩
    exact ⟨name, hmem, hl⟩

theorem canonical_lines {canonical : String} (hne : headers ≠ [])
    (hc : canonicalizeSignedString unicode req headers = .ok canonical) :
    ∃ parts, signedLines unicode req headers = .ok parts ∧ splitChar '\n' canonical = parts := by
  unfold canonicalizeSignedString at hc
  rcases hp : signedLines unicode req headers with e | parts
  · simp [hp, bind, Except.bind] at hc
  simp only [hp, ok_bind] at hc
  cases hc
  refine ⟨parts, rfl, splitChar_joinLines (fun p hmem => ?_) (fun hnil => ?_)⟩
  · obtain ⟨h, -, hl⟩ := (mem_signedLines hp).mp hmem
    exact newline_not_mem hl
  · obtain ⟨h, headers, rfl⟩ := List.exists_cons_of_ne_nil hne
    rw [signedLines, hnil] at hp
    rcases hh : signedLine unicode req h with e | part
    · simp [hh, bind, Except.bind] at hp
    rcases hs : signedLines unicode req headers with e | rest
    · simp [hh, hs, bind, Except.bind] at hp
    · simp only [hh, hs, ok_bind] at hp
      cases hp

end

/-! ## The signature binds the request -/

/-- The headers that the signature of a request names. -/
def signedHeaders (unicode : Unicode) (req : HttpRequest) : List String :=
  match (textHeader req "signature" "Signature").bind (parseSignatureHeader unicode) with
  | .ok fields => fields.headers
  | .error _ => []

/-- A signed string has the lines of the target and of the body of a request. -/
structure Covers (env : FederationEnv) (canonical : String) (r : InboxRequest) : Prop where
  target : targetLine env.names.unicode r.request ∈ splitChar '\n' canonical
  digest : headerLine "digest" (digestValue env r.body) ∈ splitChar '\n' canonical

def Unforgeable (env : FederationEnv) (Signed : List UInt8 → String → Prop) : Prop :=
  ∀ key message signature, env.ed25519Verify key message signature = true → Signed key message

theorem Passed.signedHeaders_eq {env : FederationEnv} {r : InboxRequest} {v : Verified}
    (h : Passed env r v) : signedHeaders env.names.unicode r.request = v.fields.headers := by
  obtain ⟨-, ⟨sig, hsig, hparse⟩, -⟩ := checkHeaders_ok h.headers
  rw [signedHeaders, hsig, Except.bind, hparse]

theorem Passed.lines {env : FederationEnv} {r : InboxRequest} {v : Verified}
    (h : Passed env r v) :
    signedLines env.names.unicode r.request v.fields.headers = .ok (splitChar '\n' v.canonical) := by
  obtain ⟨-, ⟨sig, -, hparse⟩, -⟩ := checkHeaders_ok h.headers
  have hne : v.fields.headers ≠ [] := List.ne_nil_of_mem (parseSignatureHeader_ok hparse)
  obtain ⟨parts, hparts, heq⟩ := canonical_lines hne h.canonical
  rw [heq, hparts]

theorem Passed.signed_digest {env : FederationEnv} {r : InboxRequest} {v : Verified}
    (h : Passed env r v) : signedLine env.names.unicode r.request "digest" =
      .ok (headerLine "digest" (digestValue env r.body)) := by
  obtain ⟨hd, hv, hvalue⟩ := textHeader_ok (checkHeaders_ok h.headers).1
  exact signedLine_of_header (by decide) hv hvalue

theorem Passed.covers_iff {env : FederationEnv} {r : InboxRequest} {v : Verified}
    (h : Passed env r v) : Covers env v.canonical r ↔
      requestTarget ∈ v.fields.headers ∧ "digest" ∈ v.fields.headers := by
  constructor
  · rintro ⟨ht, hd⟩
    exact ⟨((headerLine_mem (by decide) h.lines).mp ht).1,
      ((headerLine_mem (by decide) h.lines).mp hd).1⟩
  · rintro ⟨ht, hd⟩
    exact ⟨(headerLine_mem (by decide) h.lines).mpr ⟨ht, signed_target _ _⟩,
      (headerLine_mem (by decide) h.lines).mpr ⟨hd, h.signed_digest⟩⟩

theorem targetLine_inj {unicode : Unicode} {req req' : HttpRequest}
    (h : targetLine unicode req = targetLine unicode req') :
    unicode.toLowercase req.method = unicode.toLowercase req'.method ∧
      req.pathAndQuery = req'.pathAndQuery := by
  have hspace : ∀ q : HttpRequest, ' ' ∉ (unicode.toLowercase q.method).toList := by
    intro q
    rw [unicode.toLowercase_ascii _ (fun c hc => isTokenChar_ascii (q.method_token c hc)),
      String.toList_ofList]
    intro hmem
    obtain ⟨c, hc, hlow⟩ := List.mem_map.mp hmem
    have hsp : c = ' ' := eq_of_toLower hlow (by decide)
    have := q.method_token c hc
    rw [hsp] at this
    revert this
    decide
  have hline := (headerLine_inj (by decide) (by decide) h).2
  have hsplit := congrArg (splitOnce ' ') hline
  have hsingle : " " = String.singleton ' ' := rfl
  rw [hsingle, splitOnce_append (hspace req), splitOnce_append (hspace req'), Option.some.injEq,
    Prod.mk.injEq] at hsplit
  exact hsplit

theorem Passed.covers_unique {env : FederationEnv} (hinj : env.digestSha256Base64.Injective)
    {r r' : InboxRequest} {v : Verified} (h : Passed env r v) (h' : Covers env v.canonical r') :
    r'.body = r.body ∧ r'.request.pathAndQuery = r.request.pathAndQuery := by
  obtain ⟨-, ht⟩ := (headerLine_mem (by decide) h.lines).mp h'.target
  obtain ⟨-, hd⟩ := (headerLine_mem (by decide) h.lines).mp h'.digest
  rw [signed_target, Except.ok.injEq] at ht
  rw [h.signed_digest, Except.ok.injEq] at hd
  have hvalue := (headerLine_inj (by decide) (by decide) hd).2
  have hbody : env.digestSha256Base64 r.body = env.digestSha256Base64 r'.body := by
    have := congrArg String.toList hvalue
    simp only [digestValue, String.toList_append, List.append_cancel_left_eq] at this
    exact String.toList_inj.mp this
  exact ⟨(hinj hbody).symm, (targetLine_inj ht).2.symm⟩

theorem Passed.signed {env : FederationEnv} {r : InboxRequest} {v : Verified}
    (h : Passed env r v) {Signed : List UInt8 → String → Prop} (hs : Unforgeable env Signed) :
    ∃ key, parseRawPemBytes env v.publicKeyPem = .ok key ∧ Signed key v.canonical := by
  have hv := h.verified
  unfold verifySignature at hv
  rcases hkey : parseRawPemBytes env v.publicKeyPem with e | key
  · simp [hkey, bind, Except.bind] at hv
  simp only [hkey, ok_bind] at hv
  split at hv
  · cases hv
  rename_i raw hraw
  split at hv
  · rename_i hok
    exact ⟨key, rfl, hs _ _ _ hok⟩
  · cases hv

/-- The string that was verified covers the request, and unless somebody forges signatures the
holder of the key has signed this body for this target, and no other body or target with it. -/
structure Binds (env : FederationEnv) (r : InboxRequest) (v : Verified) : Prop where
  covers : Covers env v.canonical r
  signed : ∀ Signed, Unforgeable env Signed → env.digestSha256Base64.Injective →
    ∃ key, parseRawPemBytes env v.publicKeyPem = .ok key ∧ Signed key v.canonical ∧
      ∀ r', Covers env v.canonical r' →
        r'.body = r.body ∧ r'.request.pathAndQuery = r.request.pathAndQuery

/-- An accepted signature binds the request if and only if it names the target and the
digest. -/
theorem signature_binds_iff (env : FederationEnv) (r : InboxRequest) (s : Server) (v : Verified)
    (h : ((authenticate env r).run s).1 = .ok v) :
    Binds env r v ↔ requestTarget ∈ signedHeaders env.names.unicode r.request ∧
      "digest" ∈ signedHeaders env.names.unicode r.request := by
  have hp : Passed env r v := authenticate_ok (Prod.ext h (Eq.refl _))
  rw [hp.signedHeaders_eq, ← hp.covers_iff]
  constructor
  · exact Binds.covers
  · intro hc
    refine ⟨hc, fun Signed hs hinj => ?_⟩
    obtain ⟨key, hkey, hsigned⟩ := hp.signed hs
    exact ⟨key, hkey, hsigned, fun r' hr' => hp.covers_unique hinj hr'⟩

/-! ## Samples -/

def sampleKey : List UInt8 :=
  [144, 109, 7, 156, 79, 138, 25, 189, 154, 149, 164, 29, 70, 33, 81, 29, 242, 12, 114, 210, 81, 24,
    78, 80, 60, 152, 191, 117, 134, 78, 212, 33]

def samplePem : String :=
  "-----BEGIN PUBLIC KEY-----\nkG0HnE+KGb2alaQdRiFRHfIMctJRGE5QPJi/dYZO1CE=\n" ++
    "-----END PUBLIC KEY-----"

def sampleDate : String := "Sun, 09 Sep 2001 01:46:40 +0000"

def dateSignature : List UInt8 :=
  [147, 160, 199, 54, 106, 103, 33, 39, 61, 107, 84, 40, 160, 144, 198, 126, 160, 66, 166, 159, 87,
    24, 33, 21, 147, 211, 110, 109, 137, 108, 128, 161, 124, 150, 27, 224, 145, 203, 45, 212, 37,
    183, 85, 189, 155, 55, 196, 103, 117, 150, 124, 247, 236, 201, 243, 37, 148, 68, 32, 120, 128,
    176, 222, 9]

def requestSignature : List UInt8 :=
  [170, 78, 61, 127, 204, 195, 210, 134, 246, 14, 133, 174, 150, 88, 130, 239, 83, 216, 107, 179,
    217, 216, 43, 249, 76, 55, 221, 167, 163, 237, 166, 132, 143, 147, 152, 236, 28, 68, 147, 151,
    19, 27, 55, 116, 58, 212, 41, 156, 52, 114, 182, 59, 24, 129, 246, 43, 85, 14, 86, 77, 209,
    133, 193, 0]

def bodyText (body : List UInt8) : String := String.ofList (body.map (fun b => Char.ofNat b.toNat))

/-- The bodies `{"id":"a1"}` and `{"id":"a2"}`. -/
def sampleBody (n : UInt8) : List UInt8 :=
  [123, 34, 105, 100, 34, 58, 34, 97, n, 34, 125]

def sampleDigest (body : List UInt8) : String :=
  if body = sampleBody 49 then "XMKwtGM1F7Wf8I0TSZgGHsxbJ43fCc8mgTrqdAnQNzg="
  else if body = sampleBody 50 then "TgA1IDrrZyq/5yi4GHgIIEvp0yDLXUaYom7B6R1O36U="
  else "?" ++ bodyText body

/-- What the holder of the key has signed. -/
def sampleSigned : List (List UInt8 × String × List UInt8) :=
  [(sampleKey, "date: " ++ sampleDate, dateSignature),
    (sampleKey, joinLines ["(request-target): post /users/alice/inbox", "host: local.example",
      "date: " ++ sampleDate, "digest: " ++ "SHA-256=" ++ sampleDigest (sampleBody 49)],
      requestSignature)]

def sampleBase64 : List (String × List UInt8) :=
  [("kG0HnE+KGb2alaQdRiFRHfIMctJRGE5QPJi/dYZO1CE=", sampleKey),
    ("k6DHNmpnISc9a1QooJDGfqBCpp9XGCEVk9NubYlsgKF8lhvgkcst1CW3Vb2bN8RndZZ89+zJ8yWURCB4gLDeCQ==",
      dateSignature),
    ("qk49f8zD0ob2DoWulliC71PYa7PZ2Cv5TDfdp6PtpoSPk5jsHESTlxMbN3Q61CmcNHK2OxiB9itVDlZN0YXBAA==",
      requestSignature)]

def sampleFederation : FederationEnv where
  names := { Accounts.sampleNames with
    parseUrl := fun s => if s = "https://remote.example/users/carol" then
        .ok ⟨"https", some "remote.example", none, some ["users", "carol"]⟩
      else .error "relative URL without a base" }
  decodeBase64 s := ((sampleBase64.find? (fun e => e.1 = s)).map (fun e => Except.ok e.2)).getD
    (.error "Invalid padding")
  digestSha256Base64 := sampleDigest
  ed25519Verify key message signature := (key, message, signature) ∈ sampleSigned
  parseRfc2822 s := if s = sampleDate then .ok 1000000000 else .error "invalid format"
  parseJson _ := .error "expected value"
  signatureWindowSecs := 300
  keyCacheTtlSecs := 3600
  denylist := []

theorem toNat_ofNat_byte (b : UInt8) : (Char.ofNat b.toNat).toNat = b.toNat := by
  have hlt : b.toNat < 256 := b.toNat_lt
  have hv : b.toNat.isValidChar := .inl (by omega)
  rw [Char.ofNat, dif_pos hv]
  rfl

theorem bodyText_injective : bodyText.Injective := by
  have hchar : ∀ b b' : UInt8, Char.ofNat b.toNat = Char.ofNat b'.toNat → b = b' := by
    intro b b' h
    have := congrArg Char.toNat h
    rw [toNat_ofNat_byte, toNat_ofNat_byte] at this
    exact UInt8.toNat_inj.mp this
  intro b b' h
  exact List.map_injective_iff.mpr (fun x y hxy => hchar x y hxy) (String.ofList_inj.mp h)

theorem sampleDigest_injective : sampleDigest.Injective := by
  have hmark : ∀ b, ("?" ++ bodyText b).toList.head? = some '?' := by
    intro b
    simp
  intro b b' h
  unfold sampleDigest at h
  split_ifs at h with h₁ h₂ h₃ h₄ h₅ h₆ h₇
  · rw [h₁, h₂]
  · exact absurd h (by decide)
  · exact absurd (h ▸ hmark b') (by decide)
  · exact absurd h (by decide)
  · rw [h₄, h₆]
  · exact absurd (h ▸ hmark b') (by decide)
  · exact absurd (h ▸ hmark b) (by decide)
  · exact absurd (h ▸ hmark b) (by decide)
  · have := congrArg String.toList h
    simp only [String.toList_append, List.append_cancel_left_eq] at this
    exact bodyText_injective (String.toList_inj.mp this)

theorem sample_unforgeable : Unforgeable sampleFederation
    (fun key message => ∃ signature, (key, message, signature) ∈ sampleSigned) := by
  intro key message signature h
  exact ⟨signature, by simpa [sampleFederation] using h⟩

def sampleAccount (id : Uuid) (name : String) : User :=
  (Accounts.NewUser.row ⟨id, name, name ++ "@example.org", "", "user", none, true⟩)

/-- A server with Alice and Bob. -/
def sampleServer : Server :=
  ⟨{ Db.empty with users := ⟨[sampleAccount 1 "alice", sampleAccount 2 "bob"], by decide⟩ },
    none, [], [], []⟩

def sampleFetch : KeyFetch :=
  ⟨1000000000, .answered true (.ok (.object [("publicKey",
    .object [("publicKeyPem", .string samplePem)])])), 1000000000⟩

def sampleActor : String := "https://remote.example/users/carol"

def dateSignatureText : String :=
  "k6DHNmpnISc9a1QooJDGfqBCpp9XGCEVk9NubYlsgKF8lhvgkcst1CW3Vb2bN8RndZZ89+zJ8yWURCB4gLDeCQ=="

theorem dateSignature_printable : Printable dateSignatureText := by decide +kernel

theorem dateSignature_quotable : Quotable dateSignatureText :=
  ⟨by decide +kernel, by decide +kernel, by decide +kernel⟩

/-- Only the date is signed. -/
def dateToAlice : SignedPost where
  user := "alice"
  target := "/users/alice/inbox"
  host := "local.example"
  date := sampleDate
  digest := "SHA-256=XMKwtGM1F7Wf8I0TSZgGHsxbJ43fCc8mgTrqdAnQNzg="
  body := sampleBody 49
  keyId := "https://remote.example/users/carol#main-key"
  headers := "date"
  signature := dateSignatureText
  target_visible := by decide
  host_printable := by decide
  date_printable := by decide
  digest_printable := by decide
  keyId_printable := by decide
  headers_printable := by decide
  signature_printable := dateSignature_printable

/-- The same signature with another body, to another inbox. -/
def dateToBob : SignedPost :=
  { dateToAlice with
    user := "bob"
    target := "/users/bob/inbox"
    digest := "SHA-256=TgA1IDrrZyq/5yi4GHgIIEvp0yDLXUaYom7B6R1O36U="
    body := sampleBody 50
    target_visible := by decide
    digest_printable := by decide }

/-- Signed as `build_signature_header` signs. -/
def wholeToAlice : SignedPost :=
  { dateToAlice with
    headers := "(request-target) host date digest"
    signature :=
      "qk49f8zD0ob2DoWulliC71PYa7PZ2Cv5TDfdp6PtpoSPk5jsHESTlxMbN3Q61CmcNHK2OxiB9itVDlZN0YXBAA=="
    headers_printable := by decide
    signature_printable := by decide +kernel }

def dateVerified : Verified :=
  ⟨sampleActor, samplePem, "date: " ++ sampleDate,
    ⟨"https://remote.example/users/carol#main-key", dateSignatureText, ["date"]⟩⟩

theorem verify_date : verifySignature sampleFederation samplePem ("date: " ++ sampleDate)
    dateSignatureText = .ok () := by
  decide +kernel

theorem sampleKeyId_quotable : Quotable "https://remote.example/users/carol#main-key" :=
  ⟨by decide, by decide, by decide⟩

theorem dateToAlice_accepted :
    ((authenticate sampleFederation (dateToAlice.arriving 1000000000 sampleFetch)).run
      sampleServer).1 = .ok dateVerified := by
  have hheaders : Quotable "date" := ⟨by decide, by decide, by decide⟩
  have hrun :
      (authenticate sampleFederation (dateToAlice.arriving 1000000000 sampleFetch)).run sampleServer =
        (.ok dateVerified, rememberKey sampleActor ⟨samplePem, sampleFetch.fetchedAt⟩ sampleServer) :=
    SignedPost.accepted 1000000000 1000000000 (by decide) (by decide) (by decide) (by decide)
      sampleKeyId_quotable hheaders dateSignature_quotable (by decide) (by decide) (by decide) (by rfl)
      verify_date (by decide) (run_fetch_new rfl rfl)
  rw [hrun]

theorem dateToBob_accepted :
    ((authenticate sampleFederation (dateToBob.arriving 1000000000 sampleFetch)).run
      sampleServer).1 = .ok dateVerified := by
  have hheaders : Quotable "date" := ⟨by decide, by decide, by decide⟩
  have hrun :
      (authenticate sampleFederation (dateToBob.arriving 1000000000 sampleFetch)).run sampleServer =
        (.ok dateVerified, rememberKey sampleActor ⟨samplePem, sampleFetch.fetchedAt⟩ sampleServer) :=
    SignedPost.accepted 1000000000 1000000000 (by decide) (by decide) (by decide) (by decide)
      sampleKeyId_quotable hheaders dateSignature_quotable (by decide) (by decide) (by decide) (by rfl)
      verify_date (by decide) (run_fetch_new rfl rfl)
  rw [hrun]

/-- One signature, over the date only, is accepted with two bodies for two inboxes. -/
theorem signature_replayed :
    ∃ v, ((authenticate sampleFederation (dateToAlice.arriving 1000000000 sampleFetch)).run
        sampleServer).1 = .ok v ∧
      ((authenticate sampleFederation (dateToBob.arriving 1000000000 sampleFetch)).run
        sampleServer).1 = .ok v ∧
      dateToAlice.signature = dateToBob.signature ∧ dateToAlice.body ≠ dateToBob.body ∧
      ¬ Covers sampleFederation v.canonical (dateToAlice.arriving 1000000000 sampleFetch) ∧
      ¬ Covers sampleFederation v.canonical (dateToBob.arriving 1000000000 sampleFetch) := by
  refine ⟨_, dateToAlice_accepted, dateToBob_accepted, rfl, by decide, ?_, ?_⟩
  · rintro ⟨ht, -⟩
    revert ht
    decide
  · rintro ⟨ht, -⟩
    revert ht
    decide

def wholeCanonical : String :=
  joinLines ["(request-target): post /users/alice/inbox", "host: local.example",
    "date: " ++ sampleDate, "digest: " ++ "SHA-256=" ++ sampleDigest (sampleBody 49)]

/-- A request that a sender has signed as a whole. -/
theorem signature_binds_iff_whole :
    ∃ v, Binds sampleFederation (wholeToAlice.arriving 1000000000 sampleFetch) v ∧
      ∃ key, parseRawPemBytes sampleFederation v.publicKeyPem = .ok key ∧
        (∃ signature, (key, v.canonical, signature) ∈ sampleSigned) ∧
        ∀ r', Covers sampleFederation v.canonical r' → r'.body = sampleBody 49 ∧
          r'.request.pathAndQuery = "/users/alice/inbox" := by
  have hs : Quotable wholeToAlice.signature :=
    ⟨by decide +kernel, by decide +kernel, by decide +kernel⟩
  have hh : Quotable wholeToAlice.headers := ⟨by decide, by decide, by decide⟩
  have hverify : verifySignature sampleFederation samplePem wholeCanonical wholeToAlice.signature =
      .ok () := by
    decide +kernel
  have hsigned : canonicalizeSignedString .ascii wholeToAlice.request
      (wholeToAlice.signedNames .ascii) = .ok wholeCanonical := by
    have hnames : wholeToAlice.signedNames .ascii =
        ["(request-target)", "host", "date", "digest"] := by decide
    rw [hnames, SignedPost.canonicalize_eq]
    exact congrArg _ (by decide +kernel)
  have hrun :
      (authenticate sampleFederation (wholeToAlice.arriving 1000000000 sampleFetch)).run
          sampleServer =
        (.ok ⟨sampleActor, samplePem, wholeCanonical, ⟨wholeToAlice.keyId, wholeToAlice.signature,
            wholeToAlice.signedNames .ascii⟩⟩,
          rememberKey sampleActor ⟨samplePem, sampleFetch.fetchedAt⟩ sampleServer) :=
    SignedPost.accepted 1000000000 1000000000 (by decide) (by decide) (by decide) (by decide)
      sampleKeyId_quotable hh hs (by decide) (by decide) (by decide) hsigned hverify (by decide)
      (run_fetch_new rfl rfl)
  have hnames := (authenticate_ok hrun).signedHeaders_eq
  have hbinds := (signature_binds_iff sampleFederation
    (wholeToAlice.arriving 1000000000 sampleFetch) sampleServer _ (congrArg Prod.fst hrun)).mpr
    ⟨by rw [hnames]; decide, by rw [hnames]; decide⟩
  exact ⟨_, hbinds, hbinds.signed _ sample_unforgeable sampleDigest_injective⟩

end SyncServer.Federation
