import SyncServer.Accounts.Handlers
import SyncServer.Federation.Outbox
import SyncServer.Federation.SignedString

/-! # The names of keys in the signature header

A local actor signs under a name that is made of the domain and the username, and the header that
names the key puts it between quotes. What is read from the header is what was written if and only
if there is no comma and no number sign in the two.
-/

namespace SyncServer.Federation

/-! ## The characters of what is read -/

theorem not_mem_splitOn {c : Char} {l : List Char} : ∀ p ∈ l.splitOn c, c ∉ p := by
  induction l with
  | nil => simp
  | cons x xs ih =>
    intro p hp
    rw [List.splitOn_cons_eq_if_modifyHead] at hp
    split at hp
    · rcases List.mem_cons.mp hp with rfl | hp
      · simp
      · exact ih p hp
    · rename_i hx
      rcases hparts : xs.splitOn c with _ | ⟨q, parts⟩
      · exact absurd hparts (List.splitOn_ne_nil c xs)
      rw [hparts, List.modifyHead_cons] at hp
      rw [hparts] at ih
      rcases List.mem_cons.mp hp with rfl | hp
      · have hq := ih q List.mem_cons_self
        have hne : c ≠ x := fun he => hx (by simp [he])
        simp [hne, hq]
      · exact ih p (List.mem_cons_of_mem _ hp)

theorem mem_of_mem_trim {c : Char} {s : String} (h : c ∈ (trim s).toList) : c ∈ s.toList := by
  simp only [trim, trimChars, String.toList_ofList, List.mem_reverse] at h
  exact List.dropWhile_sublist _ |>.subset
    (List.mem_reverse.mp (List.dropWhile_sublist _ |>.subset h))

theorem mem_of_mem_trimMatches {c d : Char} {s : String} (h : c ∈ (trimMatches d s).toList) :
    c ∈ s.toList := by
  simp only [trimMatches, String.toList_ofList, List.mem_reverse] at h
  exact List.dropWhile_sublist _ |>.subset
    (List.mem_reverse.mp (List.dropWhile_sublist _ |>.subset h))

theorem splitOnce_parts {c : Char} {s a b : String} (h : splitOnce c s = some (a, b)) :
    c ∉ a.toList ∧ ∀ d ∈ b.toList, d ∈ s.toList := by
  unfold splitOnce at h
  split at h
  · cases h
    simp only [String.toList_ofList]
    constructor
    · intro hc
      have := List.all_eq_true.mp List.all_takeWhile c hc
      simp at this
    · intro d hd
      exact (List.dropWhile_sublist _).subset (List.mem_of_mem_tail hd)
  · cases h

/-! ## The key that a header names -/

section
variable {unicode : Unicode} {fields fields' : PartialFields}

/-- A part of the header without a character gives a key without it. -/
theorem readField_keyId {c : Char} {part : String} (hpart : c ∉ part.toList)
    (h : readField unicode fields part = .ok fields') (hfields : ∀ k ∈ fields.keyId, c ∉ k.toList) :
    ∀ k ∈ fields'.keyId, c ∉ k.toList := by
  unfold readField at h
  rcases hsplit : splitOnce '=' (trim part) with _ | ⟨k, v⟩
  · rw [hsplit] at h
    cases h
  have hv : c ∉ (trimMatches '"' (trim v)).toList := fun hc =>
    hpart (mem_of_mem_trim ((splitOnce_parts hsplit).2 c
      (mem_of_mem_trim (mem_of_mem_trimMatches hc))))
  rw [hsplit] at h
  dsimp only at h
  by_cases hkey : trim k = "keyId"
  · rw [if_pos hkey] at h
    rw [← Except.ok.inj h]
    intro key hk
    rw [← Option.mem_some.mp hk]
    exact hv
  have hsame : fields'.keyId = fields.keyId := by
    rw [if_neg hkey] at h
    by_cases hsignature : trim k = "signature"
    · rw [if_pos hsignature] at h
      rw [← Except.ok.inj h]
    rw [if_neg hsignature] at h
    by_cases hheaders : trim k = "headers"
    · rw [if_pos hheaders] at h
      rw [← Except.ok.inj h]
    · rw [if_neg hheaders] at h
      rw [Except.ok.inj h]
  rw [hsame]
  exact hfields

theorem readFields_keyId {c : Char} {parts : List String} (hparts : ∀ p ∈ parts, c ∉ p.toList)
    (h : parts.foldlM (readField unicode) fields = .ok fields')
    (hfields : ∀ k ∈ fields.keyId, c ∉ k.toList) : ∀ k ∈ fields'.keyId, c ∉ k.toList := by
  induction parts generalizing fields with
  | nil =>
    cases h
    exact hfields
  | cons part parts ih =>
    obtain ⟨fields₁, hpart, hrest⟩ := bind_eq_ok.mp h
    exact ih (fun p hp => hparts p (List.mem_cons_of_mem _ hp)) hrest
      (readField_keyId (hparts part List.mem_cons_self) hpart hfields)

theorem keyId_of_parse {sig : String} {fields : SignatureFields}
    (h : parseSignatureHeader unicode sig = .ok fields) : ',' ∉ fields.keyId.toList := by
  obtain ⟨read, hread, h⟩ := bind_eq_ok.mp h
  have hparts : ∀ p ∈ splitChar ',' sig, ',' ∉ p.toList := by
    intro p hp
    obtain ⟨l, hl, rfl⟩ := List.mem_map.mp hp
    simpa using not_mem_splitOn l hl
  have hkey := readFields_keyId hparts hread (by simp)
  split at h
  · cases h
  · cases h
  · cases h
  · rename_i keyId signature headers hk _ _
    obtain ⟨-, h⟩ := require_bind_eq_ok.mp h
    cases h
    exact hkey _ hk

end

/-! ## The key of a local actor -/

section
variable {domain username : String}

theorem actorUrl_toList (domain username : String) : (actorUrl domain username).toList =
    "https://".toList ++ domain.toList ++ "/users/".toList ++ username.toList := by
  simp [actorUrl, instanceBase]

theorem keyId_eq (domain username : String) :
    keyId domain username = actorUrl domain username ++ String.singleton '#' ++ "main-key" := by
  simp [keyId, ← String.toList_inj]

theorem not_mem_actorUrl {c : Char} (hfixed : c ∉ "https://".toList ++ "/users/".toList) :
    c ∉ (actorUrl domain username).toList ↔ c ∉ (domain ++ username).toList := by
  rw [actorUrl_toList]
  simp only [List.mem_append, not_or, String.toList_append] at hfixed ⊢
  tauto

theorem quotable_keyId (h : ',' ∉ (domain ++ username).toList) :
    Quotable (keyId domain username) where
  no_comma := by
    rw [← not_mem_actorUrl (by decide)] at h
    rw [keyId_eq]
    simpa using h
  head := by
    rw [keyId, String.toList_append, actorUrl_toList]
    simp
  last := by
    rw [keyId, String.toList_append]
    simp

theorem parseKeyIdActorUrl_keyId (h : '#' ∉ (domain ++ username).toList) :
    parseKeyIdActorUrl (keyId domain username) = .ok (actorUrl domain username) := by
  rw [← not_mem_actorUrl (by decide)] at h
  have hstarts : startsWith (actorUrl domain username) "https://" = true := by
    rw [startsWith, actorUrl_toList]
    simp
  rw [parseKeyIdActorUrl, keyId_eq, splitOnce_append h]
  simp [hstarts]

theorem actorUrl_of_parse {key url : String} (h : parseKeyIdActorUrl key = .ok url) :
    '#' ∉ url.toList := by
  unfold parseKeyIdActorUrl at h
  rcases hsplit : splitOnce '#' key with _ | ⟨a, b⟩
  · rw [hsplit] at h
    cases h
  rw [hsplit] at h
  dsimp only at h
  split at h
  · rw [← Except.ok.inj h]
    exact (splitOnce_parts hsplit).1
  · cases h

end

/-! ## The round trip -/

/-- The text of a signature in base64. -/
def IsBase64Text (s : String) : Prop :=
  ∀ c ∈ s.toList, c.isAlphanum = true ∨ c = '+' ∨ c = '/' ∨ c = '='

theorem IsBase64Text.not_mem {s : String} (h : IsBase64Text s) {c : Char}
    (hc : c.isAlphanum = false) (hne : c ≠ '+' ∧ c ≠ '/' ∧ c ≠ '=') : c ∉ s.toList := by
  intro hmem
  rcases h c hmem with halpha | heq
  · rw [hc] at halpha
    cases halpha
  · tauto

theorem IsBase64Text.quotable {s : String} (h : IsBase64Text s) : Quotable s where
  no_comma := h.not_mem (by decide) (by decide)
  head hmem := h.not_mem (by decide) (by decide) (List.mem_of_mem_head? hmem)
  last hmem := h.not_mem (by decide) (by decide) (List.mem_of_mem_getLast? hmem)

/-- The header that a local actor signs a request with. -/
def localHeader (domain username signature : String) : String :=
  signatureHeader (keyId domain username) (" ".intercalate headersToSign) signature

/-- What is read from a header and from the name of its key is what was written if and only if
there is no comma and no number sign in the domain and the username. -/
theorem localHeader_read_iff (unicode : Unicode) (domain username : String) {signature : String}
    (hs : IsBase64Text signature) :
    parseSignatureHeader unicode (localHeader domain username signature) =
        .ok ⟨keyId domain username, signature, headersToSign⟩ ∧
      parseKeyIdActorUrl (keyId domain username) = .ok (actorUrl domain username) ↔
    ',' ∉ (domain ++ username).toList ∧ '#' ∉ (domain ++ username).toList := by
  constructor
  · rintro ⟨hparse, hactor⟩
    constructor
    · have hcomma := keyId_of_parse hparse
      rw [keyId_eq] at hcomma
      rw [← not_mem_actorUrl (by decide)]
      intro hmem
      exact hcomma (by simp [hmem])
    · rw [← not_mem_actorUrl (by decide)]
      exact actorUrl_of_parse hactor
  · rintro ⟨hcomma, hfragment⟩
    refine ⟨?_, parseKeyIdActorUrl_keyId hfragment⟩
    have hdate : "date" ∈ (splitWhitespace (" ".intercalate headersToSign)).map
        (fun s => unicode.toLowercase (trim s)) := by
      rw [read_headersToSign]
      decide
    rw [localHeader, parse_signatureHeader (quotable_keyId hcomma) quotable_headersToSign
      hs.quotable hdate, read_headersToSign]

/-! ## Samples -/

/-- The header of Alice is read as it was written. -/
theorem localHeader_alice :
    parseSignatureHeader .ascii (localHeader "local.example" "alice" "c2ln") =
      .ok ⟨"https://local.example/users/alice#main-key", "c2ln", headersToSign⟩ :=
  ((localHeader_read_iff .ascii "local.example" "alice"
    (show IsBase64Text "c2ln" by unfold IsBase64Text; decide)).mpr ⟨by decide, by decide⟩).1

/-- The header of a user with a comma in the username is not read, and with a number sign in it
another actor is read. -/
theorem localHeader_misread :
    Accounts.isValidUsername "a,b" = true ∧ Accounts.isValidUsername "c#d" = true ∧
      parseSignatureHeader .ascii (localHeader "local.example" "a,b" "c2ln") =
        .error (.badRequest "Malformed Signature header") ∧
      parseKeyIdActorUrl (keyId "local.example" "c#d") = .ok "https://local.example/users/c" ∧
      actorUrl "local.example" "c#d" = "https://local.example/users/c#d" := by
  refine ⟨by decide, by decide, by decide +kernel, by decide, by decide⟩

end SyncServer.Federation
