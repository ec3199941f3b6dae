import SyncServer.Accounts.Users

/-! # The push tokens of devices

A device registers the token under which the push service of its platform reaches it. The table
holds every token once, and its values are those that the registration lets through.
-/

namespace SyncServer.Notifications

/-- A row of `device_push_tokens`. -/
structure DevicePushToken where
  id : Uuid
  userId : Uuid
  platform : String
  token : String
  tokenKind : String
deriving DecidableEq, Repr

def platforms : List String := ["ios", "android", "macos", "windows", "linux", "web", "unknown"]

def tokenKinds : List String := ["default", "voip"]

def tokenMinLen : Nat := 16
def tokenMaxLen : Nat := 1024

/-- `normalize_platform`. -/
def normalizePlatform (unicode : Unicode) (raw : Option String) : Except AppError String :=
  let normalized := unicode.toLowercase (trim (raw.getD "unknown"))
  if normalized ∈ platforms then .ok normalized
  else .error (.badRequest "Unsupported platform")

/-- `normalize_token_kind`. -/
def normalizeTokenKind (unicode : Unicode) (raw : Option String) : Except AppError String :=
  let normalized := unicode.toLowercase (trim (raw.getD "default"))
  if normalized ∈ tokenKinds then .ok normalized
  else .error (.badRequest "Unsupported token_kind")

/-- `validate_token`. -/
def validateToken (raw : String) : Except AppError String :=
  let token := trim raw
  if tokenMinLen ≤ token.toList.length ∧ token.toList.length ≤ tokenMaxLen then .ok token
  else .error (.badRequest "Push token length is invalid")

/-- What the registration lets through. -/
structure ValidToken (platform token tokenKind : String) : Prop where
  platform_known : platform ∈ platforms
  kind_known : tokenKind ∈ tokenKinds
  trimmed : trim token = token
  long : tokenMinLen ≤ token.toList.length

theorem ValidToken.ne_empty {platform token tokenKind : String}
    (h : ValidToken platform token tokenKind) : token ≠ "" := by
  rintro rfl
  exact absurd h.long (by decide)

structure TokenStore where
  table : Table Uuid DevicePushToken DevicePushToken.id
  unique : (table.rows.map DevicePushToken.token).Nodup
  valid : ∀ r ∈ table.rows, ValidToken r.platform r.token r.tokenKind

/-- `list_tokens_for_user`. -/
def TokenStore.listTokensForUser (store : TokenStore) (user : Uuid) : List DevicePushToken :=
  store.table.rows.filter (fun r => r.userId = user)

theorem TokenStore.mem_listTokensForUser {store : TokenStore} {user : Uuid} {r : DevicePushToken} :
    r ∈ store.listTokensForUser user ↔ r ∈ store.table.rows ∧ r.userId = user := by
  simp [listTokensForUser]

theorem TokenStore.row_eq {store : TokenStore} {r r' : DevicePushToken} (hr : r ∈ store.table.rows)
    (hr' : r' ∈ store.table.rows) (h : r.token = r'.token) : r = r' :=
  List.inj_on_of_nodup_map store.unique hr hr' h

/-! ## Registration -/

theorem validToken_of_checks {unicode : Unicode} {rawToken token platform tokenKind : String}
    {rawPlatform rawKind : Option String} (htoken : validateToken rawToken = .ok token)
    (hplatform : normalizePlatform unicode rawPlatform = .ok platform)
    (hkind : normalizeTokenKind unicode rawKind = .ok tokenKind) :
    ValidToken platform token tokenKind := by
  unfold validateToken at htoken
  unfold normalizePlatform at hplatform
  unfold normalizeTokenKind at hkind
  dsimp only at htoken hplatform hkind
  split at htoken
  · rename_i hlong
    cases htoken
    split at hplatform
    · rename_i hknown
      cases hplatform
      split at hkind
      · rename_i hknown'
        cases hkind
        exact ⟨hknown, hknown', trim_trim rawToken, hlong.1⟩
      · cases hkind
    · cases hplatform
  · cases htoken

def DevicePushToken.takenOver (new r : DevicePushToken) : DevicePushToken :=
  { r with userId := new.userId, platform := new.platform, tokenKind := new.tokenKind }

namespace TokenStore
variable {store : TokenStore} {new r : DevicePushToken}

theorem unique_takenOver (store : TokenStore) (new r : DevicePushToken) :
    ((store.table.update r.id new.takenOver (fun _ => rfl)).rows.map
      DevicePushToken.token).Nodup := by
  have htokens : (store.table.update r.id new.takenOver (fun _ => rfl)).rows.map
      DevicePushToken.token = store.table.rows.map DevicePushToken.token := by
    simp only [Table.update, Table.map, List.map_map]
    refine List.map_congr_left (fun r' _ => ?_)
    simp only [Function.comp_apply]
    split <;> rfl
  rw [htokens]
  exact store.unique

theorem valid_takenOver (hnew : ValidToken new.platform new.token new.tokenKind)
    (hfind : store.table.rows.find? (fun r => r.token = new.token) = some r) :
    ∀ r' ∈ (store.table.update r.id new.takenOver (fun _ => rfl)).rows,
      ValidToken r'.platform r'.token r'.tokenKind := by
  intro r' hr'
  obtain ⟨r₀, hr₀, rfl⟩ := List.mem_map.mp hr'
  split
  · rename_i hid
    have hrow : r₀ = r := List.inj_on_of_nodup_map store.table.keys_nodup hr₀
      (List.mem_of_find?_eq_some hfind) hid
    have htoken : r.token = new.token := by simpa using List.find?_some hfind
    subst hrow
    change ValidToken new.platform r₀.token new.tokenKind
    rwa [htoken]
  · exact store.valid r₀ hr₀

theorem unique_insert {t : Table Uuid DevicePushToken DevicePushToken.id}
    (hfind : store.table.rows.find? (fun r => r.token = new.token) = none)
    (hins : store.table.insert new = some t) : (t.rows.map DevicePushToken.token).Nodup := by
  have hfresh : ∀ r ∈ store.table.rows, r.token ≠ new.token := by
    intro r hr htoken
    exact List.find?_eq_none.mp hfind r hr (by simpa using htoken)
  rw [Table.rows_of_insert hins, List.map_append, List.nodup_append]
  refine ⟨store.unique, List.nodup_singleton _, ?_⟩
  intro token htoken token' htoken'
  obtain ⟨r, hr, rfl⟩ := List.mem_map.mp htoken
  obtain rfl : token' = new.token := by simpa using htoken'
  exact hfresh r hr

theorem valid_insert {t : Table Uuid DevicePushToken DevicePushToken.id}
    (hnew : ValidToken new.platform new.token new.tokenKind)
    (hins : store.table.insert new = some t) :
    ∀ r ∈ t.rows, ValidToken r.platform r.token r.tokenKind := by
  intro r hr
  rw [Table.rows_of_insert hins, List.mem_append, List.mem_singleton] at hr
  rcases hr with hr | rfl
  · exact store.valid r hr
  · exact hnew

/-- `upsert_token`. -/
def upsertToken (store : TokenStore) (d : Db) (new : DevicePushToken)
    (hnew : ValidToken new.platform new.token new.tokenKind) : Except AppError TokenStore :=
  if ¬ d.userExists new.userId then .error (.database .foreignKeyViolation)
  else match hfind : store.table.rows.find? (fun r => r.token = new.token) with
    | some r => .ok ⟨store.table.update r.id new.takenOver (fun _ => rfl),
        unique_takenOver store new r, valid_takenOver hnew hfind⟩
    | none =>
      match hins : store.table.insert new with
      | none => .error (.database .uniqueViolation)
      | some t => .ok ⟨t, unique_insert hfind hins, valid_insert hnew hins⟩

end TokenStore

/-- `register`. -/
def register (unicode : Unicode) (d : Db) (user newId : Uuid) (token : String)
    (platform tokenKind : Option String) (store : TokenStore) : Except AppError TokenStore :=
  match htoken : validateToken token with
  | .error e => .error e
  | .ok token =>
    match hplatform : normalizePlatform unicode platform with
    | .error e => .error e
    | .ok platform =>
      match hkind : normalizeTokenKind unicode tokenKind with
      | .error e => .error e
      | .ok tokenKind =>
        store.upsertToken d ⟨newId, user, platform, token, tokenKind⟩
          (validToken_of_checks htoken hplatform hkind)

/-- `unregister_token`. -/
def TokenStore.unregisterToken (store : TokenStore) (user : Uuid) (token : String) :
    TokenStore where
  table := store.table.filter (fun r => !(r.userId = user && r.token = token))
  unique := (List.filter_sublist.map _).nodup store.unique
  valid r hr := store.valid r (List.mem_filter.mp hr).1

/-- `unregister`. -/
def unregister (user : Uuid) (token : String) (store : TokenStore) : Except AppError TokenStore :=
  (validateToken token).map (store.unregisterToken user)

end SyncServer.Notifications
