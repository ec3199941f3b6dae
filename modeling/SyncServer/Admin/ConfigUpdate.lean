import SyncServer.Accounts.Shadows
import SyncServer.Admin.Config
import SyncServer.Guild.Admission

/-! # Updates of the configuration

The fields of an update are checked and stored one after the other. A field that is refused ends the
update, and what was stored for the fields before it stays.
-/

namespace SyncServer.Admin
open Transaction

/-! ## Fields of an update -/

abbrev Field := String × Except AppError (Option String)

def storeAll : List Field → Query Unit
  | [] => pure ()
  | (key, value) :: rest => do
    let value ← Tx.done value
    storeSetting key value
    storeAll rest

/-- The fields before the first that is refused. -/
def accepted : List Field → List (String × Option String)
  | (key, .ok value) :: rest => (key, value) :: accepted rest
  | (_, .error _) :: _ => []
  | [] => []

/-- The error of the first field that is refused. -/
def refusal : List Field → Option AppError
  | (_, .ok _) :: rest => refusal rest
  | (_, .error e) :: _ => some e
  | [] => none

/-- A field for which the database is asked: a text that its column does not take is refused. -/
def Field.checked (field : Field) : Field :=
  (field.1, field.2.bind (fun value =>
    if value.all isText then .ok value else .error (.database .characterNotInRepertoire)))

theorem Field.checked_ok (key : String) {value : Option String} (h : value.all isText = true) :
    Field.checked (key, .ok value) = (key, .ok value) := by
  simp [checked, Except.bind, h]

theorem Field.checked_refused (key : String) {value : Option String}
    (h : value.all isText = false) :
    Field.checked (key, .ok value) = (key, .error (.database .characterNotInRepertoire)) := by
  simp [checked, Except.bind, h]

theorem Field.keys_checked (fields : List Field) :
    (fields.map checked).map Prod.fst = fields.map Prod.fst := by
  simp [checked]

/-- The outcome of storing fields. -/
def outcome (fields : List Field) : Except AppError Unit :=
  match refusal fields with
  | some e => .error e
  | none => .ok ()

theorem accepted_keys (fields : List Field) :
    (accepted fields).map Prod.fst <+: fields.map Prod.fst := by
  induction fields with
  | nil => exact List.nil_prefix
  | cons field rest ih =>
    obtain ⟨key, e | value⟩ := field
    · exact List.nil_prefix
    · exact List.cons_prefix_cons.mpr ⟨rfl, ih⟩

theorem mem_accepted_of_none {fields : List Field} (h : refusal fields = none) {key : String}
    {value : Except AppError (Option String)} (hmem : (key, value) ∈ fields) :
    ∃ v, value = .ok v ∧ (key, v) ∈ accepted fields := by
  induction fields with
  | nil => cases hmem
  | cons field rest ih =>
    obtain ⟨key', e | value'⟩ := field
    · cases h
    · rcases List.mem_cons.mp hmem with hmem | hmem
      · cases hmem
        exact ⟨value', rfl, List.mem_cons_self⟩
      · obtain ⟨v, hv, haccepted⟩ := ih h hmem
        exact ⟨v, hv, List.mem_cons_of_mem _ haccepted⟩

theorem exists_of_refusal {fields : List Field} {e : AppError} (h : refusal fields = some e) :
    ∃ field ∈ fields, field.2 = .error e := by
  induction fields with
  | nil => cases h
  | cons field rest ih =>
    obtain ⟨key, e' | value⟩ := field
    · cases h
      exact ⟨_, List.mem_cons_self, rfl⟩
    · obtain ⟨field, hmem, hfield⟩ := ih h
      exact ⟨field, List.mem_cons_of_mem _ hmem, hfield⟩

/-! ## Settings -/

theorem run_storeSetting (key : String) {value : Option String} (htext : value.all isText = true)
    (d : Db) :
    ∃ t, (storeSetting key value).run d = (.ok (), { d with adminSettings := t }) ∧
      ∀ k, setting k { d with adminSettings := t } = if k = key then value else setting k d := by
  cases value with
  | none =>
    refine ⟨_, rfl, fun k => ?_⟩
    unfold setting
    rw [show ((d.adminSettings.filter (fun r => r.key ≠ key)).get k) = _ from
      Table.get_filter_key d.adminSettings (fun k => k ≠ key) k]
    by_cases hk : k = key <;> simp [hk]
  | some value => exact Guild.run_setSetting key htext d

theorem run_storeSetting_refused (key : String) {value : Option String}
    (htext : value.all isText = false) (d : Db) :
    (storeSetting key value).run d = (.error (.database .characterNotInRepertoire), d) := by
  cases value with
  | none => cases htext
  | some value =>
    rw [Option.all_some] at htext
    exact Query.run_exec_error (if_pos (by simp [htext]))

/-- The fields before the first that is refused are stored, and the other settings stay. -/
theorem run_storeAll (fields : List Field) (hkeys : (fields.map Prod.fst).Nodup) (d : Db) :
    ∃ t, (storeAll fields).run d =
        (outcome (fields.map Field.checked), { d with adminSettings := t }) ∧
      (∀ p ∈ accepted (fields.map Field.checked), setting p.1 { d with adminSettings := t } = p.2) ∧
      ∀ k ∉ (accepted (fields.map Field.checked)).map Prod.fst,
        setting k { d with adminSettings := t } = setting k d := by
  induction fields generalizing d with
  | nil => exact ⟨d.adminSettings, rfl, fun p hp => absurd hp List.not_mem_nil, fun k _ => rfl⟩
  | cons field rest ih =>
    obtain ⟨key, e | value⟩ := field
    · exact ⟨d.adminSettings, rfl, fun p hp => absurd hp List.not_mem_nil, fun k _ => rfl⟩
    obtain ⟨hnew, hrest⟩ := List.nodup_cons.mp hkeys
    rcases htext : value.all isText with _ | _
    · -- the database refuses the field, and what follows is not stored
      rw [List.map_cons, Field.checked_refused key htext]
      exact ⟨d.adminSettings, Tx.run_bind_error (run_storeSetting_refused key htext d) _,
        fun p hp => absurd hp List.not_mem_nil, fun k _ => rfl⟩
    rw [List.map_cons, Field.checked_ok key htext]
    obtain ⟨t, hstore, hset⟩ := run_storeSetting key htext d
    obtain ⟨t', hrun, hstored, hother⟩ := ih hrest { d with adminSettings := t }
    refine ⟨t', (Tx.run_bind_ok hstore _).trans hrun, ?_, ?_⟩
    · intro p hp
      rcases List.mem_cons.mp hp with rfl | hp
      · -- the rest has other keys
        have hkey : key ∉ (accepted (rest.map Field.checked)).map Prod.fst := by
          intro hmem
          have hkeys := (accepted_keys (rest.map Field.checked)).subset hmem
          rw [Field.keys_checked] at hkeys
          exact hnew hkeys
        rw [show setting key { d with adminSettings := t' } = _ from hother key hkey, hset, if_pos rfl]
      · exact hstored p hp
    · intro k hk
      rw [accepted, List.map_cons, List.mem_cons, not_or] at hk
      rw [show setting k { d with adminSettings := t' } = _ from hother k hk.2, hset, if_neg hk.1]

theorem settings_kept_iff {fields : List Field} {d d' : Db}
    (hstored : ∀ p ∈ accepted fields, setting p.1 d' = p.2)
    (hother : ∀ k ∉ (accepted fields).map Prod.fst, setting k d' = setting k d) :
    (∀ k, setting k d' = setting k d) ↔ ∀ p ∈ accepted fields, setting p.1 d = p.2 := by
  constructor
  · intro h p hp
    rw [← h, hstored p hp]
  · intro h k
    by_cases hk : k ∈ (accepted fields).map Prod.fst
    · obtain ⟨p, hp, rfl⟩ := List.mem_map.mp hk
      rw [hstored p hp, h p hp]
    · exact hother k hk

/-! ## The handler as a list of fields -/

/-- What a field of the request asks for; one that is not there asks for none. -/
def requested {α : Type} (normalize : α → Except AppError (Option String)) :
    Option α → Except AppError (Option String)
  | some value => normalize value
  | none => .ok none

def fieldsOf (env : ConfigEnv) (request : UpdateConfigRequest) : List Field :=
  [(settingMaxUsers, requested normalizeMaxUsers request.maxUsers),
    (settingWebhookUrl, requested (normalizeWebhookUrl env) request.notificationWebhookUrl),
    (settingPlanetName, requested normalizeText request.planetName),
    (settingPlanetDescription, requested normalizeText request.planetDescription),
    (settingPlanetImageBase64, requested (normalizePlanetImage env) request.planetImageBase64),
    (settingLinkedPlanets, (normalizedLinkedPlanets env request).map (encodedPlanets env))] ++
  request.requireApproval.toList.map fun requireApproval =>
    (settingRequireApproval, .ok (if requireApproval then some "true" else none))

/-- The fields of a request, of which the database may refuse some. -/
def plan (env : ConfigEnv) (request : UpdateConfigRequest) : List Field :=
  (fieldsOf env request).map Field.checked

theorem fieldsOf_keys (env : ConfigEnv) (request : UpdateConfigRequest) :
    ((fieldsOf env request).map Prod.fst).Nodup := by
  unfold fieldsOf
  rcases request.requireApproval with _ | _
  · exact show [settingMaxUsers, settingWebhookUrl, settingPlanetName, settingPlanetDescription,
      settingPlanetImageBase64, settingLinkedPlanets].Nodup by decide
  · exact show [settingMaxUsers, settingWebhookUrl, settingPlanetName, settingPlanetDescription,
      settingPlanetImageBase64, settingLinkedPlanets, settingRequireApproval].Nodup by decide

theorem run_storeFields (env : ConfigEnv) (request : UpdateConfigRequest) (d : Db) :
    ∃ t, (storeAll (fieldsOf env request)).run d =
        (outcome (plan env request), { d with adminSettings := t }) ∧
      (∀ p ∈ accepted (plan env request), setting p.1 { d with adminSettings := t } = p.2) ∧
      ∀ k ∉ (accepted (plan env request)).map Prod.fst,
        setting k { d with adminSettings := t } = setting k d :=
  run_storeAll (fieldsOf env request) (fieldsOf_keys env request) d

theorem updateSetting_eq {α : Type} (key : String)
    (normalize : α → Except AppError (Option String)) (value : Option α) :
    updateSetting key normalize value =
      (Tx.done (requested normalize value) >>= fun v => storeSetting key v) := by
  cases value <;> rfl

def finish (env : ConfigEnv) (call : UpdateConfigCall) : Query AdminConfigView := do
  Guild.insertAuditLog (configLog call
    ((normalizedLinkedPlanets env call.request).toOption.getD []))
  readAdminConfig env

theorem updateConfig_eq (env : ConfigEnv) (call : UpdateConfigCall) :
    updateConfig env call = storeAll (fieldsOf env call.request) >>= fun _ => finish env call := by
  unfold updateConfig fieldsOf finish
  simp only [updateSetting_eq, Tx.bind_assoc, List.cons_append, List.nil_append, storeAll]
  rcases normalizedLinkedPlanets env call.request with e | planets
  · rfl
  rcases call.request.requireApproval with _ | requireApproval
  · rfl
  · cases requireApproval <;>
      simp only [Option.toList_some, List.map_cons, List.map_nil, storeAll, Tx.bind_assoc,
        Bool.false_eq_true, if_false, if_true] <;> rfl

/-! ## Updates that are refused -/

def Loggable (call : UpdateConfigCall) (d : Db) : Prop :=
  d.adminAuditLogs.get call.audit = none ∧ d.userExists call.adminId

theorem succeeds_finish (env : ConfigEnv) (call : UpdateConfigCall) (d : Db) :
    (finish env call).Succeeds d ↔ Loggable call d := by
  rw [finish, Tx.succeeds_bind]
  constructor
  · rintro ⟨⟨⟩, d', hlog, -⟩
    refine ⟨Guild.run_insertAuditLog_ok hlog, ?_⟩
    have hlog := Query.run_exec_ok.mp hlog
    split at hlog
    · cases hlog
    split at hlog
    · rename_i hactor
      simpa [configLog] using hactor
    · cases hlog
  · rintro ⟨hfree, hactor⟩
    rcases ht : d.adminAuditLogs.insert (configLog call
      ((normalizedLinkedPlanets env call.request).toOption.getD [])) with _ | t
    · have htaken := Table.insert_eq_none.mp ht
      rw [show d.adminAuditLogs.get (configLog call _).id = none from hfree] at htaken
      cases htaken
    · refine ⟨(), { d with adminAuditLogs := t }, Query.run_exec_ok.mpr ?_, _, _, rfl⟩
      simp only [ht]
      exact if_pos (decide_eq_true hactor)

theorem keeps_finish (env : ConfigEnv) (call : UpdateConfigCall) :
    (finish env call).Keeps Db.adminSettings :=
  Tx.keeps_bind (Guild.keeps_insertAuditLog (fun _ _ => rfl) _) (fun _ => Tx.keeps_query _ _)

theorem setting_congr {d d' : Db} (h : d'.adminSettings = d.adminSettings) (key : String) :
    setting key d' = setting key d := by
  rw [setting, h]
  rfl

structure Applied (env : ConfigEnv) (request : UpdateConfigRequest) (d d' : Db) : Prop where
  asked : ∀ field ∈ plan env request, field.2 = .ok (setting field.1 d')
  other : ∀ key ∉ (plan env request).map Prod.fst, setting key d' = setting key d

/-- An update that fails changes no setting, and one that succeeds applies the request. -/
structure AllOrNothing (env : ConfigEnv) (call : UpdateConfigCall) (d : Db) : Prop where
  nothing : ∀ e d', (updateConfig env call).run d = (.error e, d') →
    ∀ key, setting key d' = setting key d
  all : ∀ view d', (updateConfig env call).run d = (.ok view, d') →
    Applied env call.request d d'

/-- No field is refused, and the audit log takes the entry. -/
def Accepts (env : ConfigEnv) (call : UpdateConfigCall) (d : Db) : Prop :=
  (∀ field ∈ plan env call.request, ∃ value, field.2 = .ok value) ∧ Loggable call d

theorem applied_of_accepted {env : ConfigEnv} {request : UpdateConfigRequest} {d d' : Db}
    (h : refusal (plan env request) = none)
    (hstored : ∀ p ∈ accepted (plan env request), setting p.1 d' = p.2)
    (hother : ∀ k ∉ (accepted (plan env request)).map Prod.fst, setting k d' = setting k d) :
    Applied env request d d' := by
  constructor
  · rintro ⟨key, value⟩ hmem
    obtain ⟨v, rfl, hv⟩ := mem_accepted_of_none h hmem
    exact congrArg Except.ok (hstored _ hv).symm
  · exact fun key hkey => hother key fun hmem => hkey ((accepted_keys _).subset hmem)

/-- An update stores the fields before the first that is refused, and it succeeds if and only if it
is accepted. -/
theorem run_updateConfig_cases (env : ConfigEnv) (call : UpdateConfigCall) (d : Db) :
    ∃ d', (∀ p ∈ accepted (plan env call.request), setting p.1 d' = p.2) ∧
      (∀ k ∉ (accepted (plan env call.request)).map Prod.fst, setting k d' = setting k d) ∧
      ((Accepts env call d ∧ refusal (plan env call.request) = none ∧
          ∃ view, (updateConfig env call).run d = (.ok view, d')) ∨
        (¬ Accepts env call d ∧ ∃ e, (updateConfig env call).run d = (.error e, d'))) := by
  obtain ⟨t, hrun, hstored, hother⟩ := run_storeFields env call.request d
  rw [outcome] at hrun
  rcases hrefusal : refusal (plan env call.request) with _ | e
  · rw [hrefusal] at hrun
    rcases hfinish : (finish env call).run { d with adminSettings := t } with ⟨e | view, d'⟩
    all_goals
      have hsame := setting_congr ((keeps_finish env call).of_run hfinish)
      have hupdate := (Tx.run_bind_ok hrun (fun _ => finish env call)).trans hfinish
      rw [← updateConfig_eq] at hupdate
      refine ⟨d', fun p hp => by rw [hsame, hstored p hp],
        fun k hk => by rw [hsame, hother k hk], ?_⟩
    · refine .inr ⟨fun h => ?_, e, hupdate⟩
      obtain ⟨view, d₁, hok⟩ := (succeeds_finish env call { d with adminSettings := t }).mpr h.2
      rw [hfinish] at hok
      cases hok
    · refine .inl ⟨⟨fun field hmem => ?_, ?_⟩, rfl, view, hupdate⟩
      · obtain ⟨v, hv, -⟩ := mem_accepted_of_none hrefusal hmem
        exact ⟨v, hv⟩
      · exact (succeeds_finish env call { d with adminSettings := t }).mp ⟨view, d', hfinish⟩
  · rw [hrefusal] at hrun
    refine ⟨_, hstored, hother, .inr ⟨fun h => ?_, e, ?_⟩⟩
    · obtain ⟨field, hmem, herror⟩ := exists_of_refusal hrefusal
      obtain ⟨v, hv⟩ := h.1 field hmem
      rw [hv] at herror
      cases herror
    · rw [updateConfig_eq, Tx.run_bind_error hrun]

/-- An update is all or nothing if and only if it is accepted, or the fields before the first that
is refused ask for what is there. -/
theorem updateConfig_all_or_nothing_iff (env : ConfigEnv) (call : UpdateConfigCall) (d : Db) :
    AllOrNothing env call d ↔
      Accepts env call d ∨
        ∀ p ∈ accepted (plan env call.request), setting p.1 d = p.2 := by
  obtain ⟨d', hstored, hother, ⟨haccepts, hnone, view, hrun⟩ | ⟨hnot, e, hrun⟩⟩ :=
    run_updateConfig_cases env call d
  · refine iff_of_true ⟨fun e d₁ h₁ => ?_, fun view₁ d₁ h₁ => ?_⟩ (.inl haccepts)
    · rw [hrun] at h₁
      cases h₁
    · rw [hrun] at h₁
      cases h₁
      exact applied_of_accepted hnone hstored hother
  · rw [or_iff_right hnot, ← settings_kept_iff hstored hother]
    constructor
    · exact fun h => h.nothing e d' hrun
    · intro h
      refine ⟨fun e₁ d₁ h₁ => ?_, fun view d₁ h₁ => ?_⟩
      · rw [hrun] at h₁
        cases h₁
        exact h
      · rw [hrun] at h₁
        cases h₁

/-! ## The texts of the refusals -/

def Names (key : String) (e : AppError) : Prop := ∃ text, e = .badRequest (key ++ text)

section
variable {env : ImageEnv} {e : AppError}

theorem encodeSteps_error {image : env.Image} {steps : List Nat} {best : Option (List UInt8)}
    (h : encodeSteps env image steps best = .error e) : Names settingPlanetImageBase64 e := by
  induction steps generalizing best with
  | nil => cases h
  | cons quality rest ih =>
    rcases bind_eq_error h with h | ⟨encoded, -, h⟩
    · unfold encodeJpegBytes at h
      split at h <;> cases h
      exact ⟨" could not be encoded", rfl⟩
    · split at h
      · cases h
      · exact ih h

theorem compressRounds_error {n : Nat} {working : env.Image} {best : Option (List UInt8)}
    (h : compressRounds env n working best = .error e) : Names settingPlanetImageBase64 e := by
  induction n generalizing working best with
  | zero => cases h
  | succ n ih =>
    rcases bind_eq_error h with h | ⟨encoded | best, -, h⟩
    · exact encodeSteps_error h
    · cases h
    · dsimp only at h
      split at h
      · cases h
      · exact ih h

theorem compressPlanetImageToDataUrl_error {dataUrl : String}
    (h : compressPlanetImageToDataUrl env dataUrl = .error e) :
    Names settingPlanetImageBase64 e := by
  rcases require_bind_eq_error h with rfl | h
  · exact ⟨" is too large (max 20MB)", rfl⟩
  rcases bind_eq_error h with h | ⟨⟨sourceFormat, payload⟩, -, h⟩
  · unfold parseSupportedImageDataUrl at h
    split at h
    · cases h
    split at h
    · cases h
    split at h <;> cases h
    exact ⟨" must be a data URL (png/jpeg/webp)", rfl⟩
  dsimp only at h
  split at h
  · cases h
    exact ⟨" is not valid base64", rfl⟩
  rcases require_bind_eq_error h with rfl | h
  · exact ⟨" decoded payload must be <= 20MB", rfl⟩
  split at h
  · cases h
    exact ⟨" could not be decoded as an image", rfl⟩
  rcases bind_eq_error h with h | ⟨result, -, h⟩
  · exact compressRounds_error h
  · split at h <;> cases h
    exact ⟨" could not be compressed", rfl⟩

end

theorem requested_error {α : Type} {normalize : α → Except AppError (Option String)}
    {value : Option α} {e : AppError} (h : requested normalize value = .error e) :
    ∃ v, normalize v = .error e := by
  cases value with
  | none => cases h
  | some v => exact ⟨v, h⟩

section
variable {env : ConfigEnv} {e : AppError}

theorem normalizeWebhookUrl_error {url : String} (h : normalizeWebhookUrl env url = .error e) :
    Names settingWebhookUrl e := by
  unfold normalizeWebhookUrl at h
  split at h
  · cases h
  split at h
  · cases h
    exact ⟨" must be a valid URL", rfl⟩
  split at h <;> cases h
  exact ⟨" must use https", rfl⟩

theorem normalizePlanetImage_error {image : String}
    (h : normalizePlanetImage env image = .error e) : Names settingPlanetImageBase64 e := by
  unfold normalizePlanetImage at h
  split at h
  · cases h
  rcases hcompress : compressPlanetImageToDataUrl env.images (trim image) with e' | url
  · rw [hcompress] at h
    cases h
    exact compressPlanetImageToDataUrl_error hcompress
  · rw [hcompress] at h
    cases h

theorem collectLinkedPlanets_error {planets : List String}
    (h : collectLinkedPlanets env planets = .error e) : Names settingLinkedPlanets e := by
  induction planets with
  | nil => cases h
  | cons raw rest ih =>
    rcases bind_eq_error h with h | ⟨planet, -, h⟩
    · unfold normalizeLinkedPlanet at h
      dsimp only at h
      split at h
      · cases h
      split at h
      · cases h
        exact ⟨" must contain valid URLs", rfl⟩
      split at h <;> cases h
      exact ⟨" URLs must use http or https", rfl⟩
    · rcases bind_eq_error h with h | ⟨planets, -, h⟩
      · exact ih h
      · cases h

/-- A field that is refused is named by the error. -/
theorem fieldsOf_error_names {request : UpdateConfigRequest} {key : String}
    (h : (key, .error e) ∈ fieldsOf env request) : Names key e := by
  rcases List.mem_append.mp h with h | h
  · simp only [List.mem_cons, List.not_mem_nil, or_false, Prod.mk.injEq] at h
    rcases h with ⟨rfl, hv⟩ | ⟨rfl, hv⟩ | ⟨rfl, hv⟩ | ⟨rfl, hv⟩ | ⟨rfl, hv⟩ | ⟨rfl, hv⟩
    · obtain ⟨n, hn⟩ := requested_error hv.symm
      unfold normalizeMaxUsers at hn
      split at hn <;> cases hn
      exact ⟨" must be greater than 0", rfl⟩
    · obtain ⟨url, hurl⟩ := requested_error hv.symm
      exact normalizeWebhookUrl_error hurl
    · obtain ⟨text, htext⟩ := requested_error hv.symm
      unfold normalizeText at htext
      split at htext <;> cases htext
    · obtain ⟨text, htext⟩ := requested_error hv.symm
      unfold normalizeText at htext
      split at htext <;> cases htext
    · obtain ⟨image, himage⟩ := requested_error hv.symm
      exact normalizePlanetImage_error himage
    · unfold normalizedLinkedPlanets at hv
      split at hv
      · rename_i planets _
        rcases hcollect : collectLinkedPlanets env planets with e' | collected
        · rw [hcollect] at hv
          cases hv
          exact collectLinkedPlanets_error hcollect
        · rw [hcollect] at hv
          cases hv
      · cases hv
  · obtain ⟨b, -, hb⟩ := List.mem_map.mp h
    cases hb

end

/-! ## Samples -/

def sampleImages : ImageEnv where
  Image := Unit
  load _ _ := none
  width _ := 0
  height _ := 0
  resize _ _ _ image := image
  toRgba8 _ := []
  encodeJpeg _ _ _ _ := none
  decodeBase64 _ := none
  encodeBase64 _ := ""

def sampleConfig : ConfigEnv where
  names := ⟨.ascii, fun _ => .error "relative URL without a base", Accounts.sampleSha256⟩
  images := sampleImages
  maxUsers := none
  encodeStrings _ := "[]"
  decodeStrings _ := none

/-- An administrator sets a limit, and a webhook that is no URL. -/
def badWebhook : UpdateConfigCall :=
  ⟨2, ⟨some 5, some "webhook", none, none, none, none, none⟩, 9⟩

/-- The webhook is refused, and the limit is there. -/
theorem updateConfig_keeps_limit :
    ((updateConfig sampleConfig badWebhook).run Guild.accountAndAdmin).1 =
        .error (.badRequest "notification_webhook_url must be a valid URL") ∧
      setting settingMaxUsers Guild.accountAndAdmin = none ∧
      setting settingMaxUsers
        ((updateConfig sampleConfig badWebhook).run Guild.accountAndAdmin).2 = some "5" ∧
      ¬ AllOrNothing sampleConfig badWebhook Guild.accountAndAdmin := by
  have herror : ((updateConfig sampleConfig badWebhook).run Guild.accountAndAdmin).1 =
      .error (.badRequest "notification_webhook_url must be a valid URL") := by decide
  have hlimit : setting settingMaxUsers
      ((updateConfig sampleConfig badWebhook).run Guild.accountAndAdmin).2 = some "5" := by decide
  refine ⟨herror, by decide, hlimit, fun h => ?_⟩
  have hsame : setting settingMaxUsers
      ((updateConfig sampleConfig badWebhook).run Guild.accountAndAdmin).2 =
        setting settingMaxUsers Guild.accountAndAdmin :=
    h.nothing _ _ (Prod.ext herror rfl) settingMaxUsers
  rw [hlimit] at hsame
  revert hsame
  decide

end SyncServer.Admin
