import SyncServer.Admin.ConfigUpdate
import SyncServer.Base.Base64
import SyncServer.Base.FirstFit
import SyncServer.Transaction.Autocommit

/-! # The image of a planet

An administrator's image is scaled down and encoded until it is small enough, and stored as a data
URL; everybody gets it from `/planet-image`. Whatever updates are interleaved, the URL that is
stored is one that can be served, with the bytes of the encoding that was chosen.
-/

namespace SyncServer.Admin
open Transaction Autocommit

/-! ## Serving the image -/

structure ParsedDataUrl where
  contentType : String
  payloadBase64 : String
deriving DecidableEq, Repr

/-- `parse_image_data_url`. -/
def parseImageDataUrl (raw : String) : Option ParsedDataUrl :=
  let trimmed := trim raw
  match Auth.stripStart "data:image/jpeg;base64," trimmed with
  | some value => some ⟨"image/jpeg", value⟩
  | none =>
    match Auth.stripStart "data:image/png;base64," trimmed with
    | some value => some ⟨"image/png", value⟩
    | none =>
      match Auth.stripStart "data:image/webp;base64," trimmed with
      | some value => some ⟨"image/webp", value⟩
      | none => none

/-- `planet_image`: the type and the body of the answer, or not found. -/
def planetImage (env : ImageEnv) (d : Db) : Option (String × List UInt8) := do
  let value ← (setting settingPlanetImageBase64 d).filter (fun v => trim v ≠ "")
  let parsed ← parseImageDataUrl value
  let bytes ← env.decodeBase64 parsed.payloadBase64
  pure (parsed.contentType, bytes)

/-- `has_planet_image` of `liveness`, which tells clients where the image is. -/
def hasPlanetImage (d : Db) : Bool :=
  ((setting settingPlanetImageBase64 d).map (fun v => decide (trim v ≠ ""))).getD false

/-! ## Choosing the encoding -/

section
variable (env : ImageEnv)

def workings : Nat → env.Image → List env.Image
  | 0, _ => []
  | n + 1, working =>
    let nextWidth := max (env.width working * 3 / 4) minOutputDimension
    let nextHeight := max (env.height working * 3 / 4) minOutputDimension
    working :: (if nextWidth = env.width working ∧ nextHeight = env.height working then []
      else workings n (env.resize .triangle nextWidth nextHeight working))

def qualities (image : env.Image) : List (Except AppError (List UInt8)) :=
  qualitySteps.map (encodeJpegBytes env image)

def attempts (image : env.Image) : List (Except AppError (List UInt8)) :=
  (workings env 4 image).flatMap (qualities env)

def scaled (image : env.Image) : env.Image :=
  if maxOutputDimension < max (env.width image) (env.height image) then
    env.resize .lanczos3 maxOutputDimension maxOutputDimension image else image

/-- The bytes are the first encoding of the image that is small enough, or the smallest. -/
structure Compressed (text : String) (bytes : List UInt8) : Prop where
  chosen : ∃ format payload decoded image,
    parseSupportedImageDataUrl (trim text) = .ok (format, payload) ∧
    env.decodeBase64 payload = some decoded ∧ env.load format decoded = some image ∧
    FirstFit.Chosen List.length maxOutputImageBytes (attempts env (scaled env image)) bytes ∧
    ∀ working ∈ workings env 4 (scaled env image),
      env.width working ≤ maxOutputDimension ∧ env.height working ≤ maxOutputDimension

/-- An image that is resized fits within the bounds. -/
def FitsBounds : Prop :=
  ∀ filter width height image, 0 < width → 0 < height →
    env.width (env.resize filter width height image) ≤ width ∧
      env.height (env.resize filter width height image) ≤ height

/-- The library for base64 is the standard one. -/
structure StandardBase64 : Prop where
  encode : env.encodeBase64 = Base64.encode
  decode : env.decodeBase64 = Base64.decode

variable {env}

theorem encodeSteps_eq (image : env.Image) (steps : List Nat) (best : Option (List UInt8)) :
    encodeSteps env image steps best = FirstFit.search List.length maxOutputImageBytes
      (steps.map (encodeJpegBytes env image)) best := by
  induction steps generalizing best with
  | nil => rfl
  | cons quality steps ih =>
    rw [encodeSteps, List.map_cons]
    cases encodeJpegBytes env image quality with
    | error e => rfl
    | ok encoded =>
      have hbetter : better best encoded = FirstFit.better List.length best encoded := by
        cases best <;> rfl
      rw [FirstFit.search, ok_bind, ih, hbetter]
      rfl

theorem compressRounds_eq (n : Nat) (working : env.Image) (best : Option (List UInt8)) :
    compressRounds env n working best = FirstFit.search List.length maxOutputImageBytes
      ((workings env n working).flatMap (qualities env)) best := by
  induction n generalizing working best with
  | zero => rfl
  | succ n ih =>
    rw [compressRounds, workings, List.flatMap_cons, FirstFit.search_append, encodeSteps_eq,
      qualities]
    cases FirstFit.search List.length maxOutputImageBytes
        (qualitySteps.map (encodeJpegBytes env working)) best with
    | error e => rfl
    | ok found =>
      cases found with
      | inl encoded => rfl
      | inr best =>
        rw [ok_bind]
        dsimp only [Except.bind, Sum.elim_inr]
        split
        · rfl
        · exact ih _ best

theorem workings_le (hresize : FitsBounds env) (n : Nat) (image : env.Image)
    (h : env.width image ≤ maxOutputDimension ∧ env.height image ≤ maxOutputDimension) :
    ∀ working ∈ workings env n image,
      env.width working ≤ maxOutputDimension ∧ env.height working ≤ maxOutputDimension := by
  induction n generalizing image with
  | zero => simp [workings]
  | succ n ih =>
    intro working hworking
    rw [workings] at hworking
    rcases List.mem_cons.mp hworking with rfl | hworking
    · exact h
    · split at hworking
      · cases hworking
      · refine ih _ ?_ working hworking
        have hfits := hresize .triangle (max (env.width image * 3 / 4) minOutputDimension)
          (max (env.height image * 3 / 4) minOutputDimension) image
        simp only [minOutputDimension, maxOutputDimension] at h hfits ⊢
        omega

theorem scaled_le (hresize : FitsBounds env) (image : env.Image) :
    env.width (scaled env image) ≤ maxOutputDimension ∧
      env.height (scaled env image) ≤ maxOutputDimension := by
  unfold scaled
  split
  · exact hresize .lanczos3 _ _ image (by decide) (by decide)
  · omega

/-- What is stored for an image is the URL of the encoding that was chosen. -/
theorem compressPlanetImageToDataUrl_ok (hresize : FitsBounds env) {text url : String}
    (h : compressPlanetImageToDataUrl env text = .ok url) :
    ∃ bytes, Compressed env text bytes ∧ url = "data:image/jpeg;base64," ++ env.encodeBase64 bytes := by
  unfold compressPlanetImageToDataUrl at h
  obtain ⟨-, h₁⟩ := require_bind_eq_ok.mp h
  obtain ⟨⟨format, payload⟩, hparse, h₂⟩ := bind_eq_ok.mp h₁
  dsimp only at h₂
  cases hdecode : env.decodeBase64 payload with
  | none =>
    rw [hdecode] at h₂
    cases h₂
  | some decoded =>
    rw [hdecode] at h₂
    obtain ⟨-, h₃⟩ := require_bind_eq_ok.mp h₂
    cases hload : env.load format decoded with
    | none =>
      rw [hload] at h₃
      cases h₃
    | some image =>
      rw [hload] at h₃
      obtain ⟨found, hsearch, h₄⟩ := bind_eq_ok.mp h₃
      rw [compressRounds_eq] at hsearch
      have hworkings := workings_le hresize 4 (scaled env image) (scaled_le hresize image)
      rcases found with bytes | best
      · cases h₄
        exact ⟨bytes, ⟨format, payload, decoded, image, hparse, hdecode, hload,
          .of_search (.inl hsearch), hworkings⟩, rfl⟩
      · cases best with
        | none => cases h₄
        | some bytes =>
          cases h₄
          exact ⟨bytes, ⟨format, payload, decoded, image, hparse, hdecode, hload,
            .of_search (.inr hsearch), hworkings⟩, rfl⟩

end

theorem Compressed.of_trim {env : ImageEnv} {text : String} {bytes : List UInt8}
    (h : Compressed env (trim text) bytes) : Compressed env text bytes := by
  obtain ⟨format, payload, decoded, image, hparse, hrest⟩ := h
  rw [trim_trim] at hparse
  exact ⟨format, payload, decoded, image, hparse, hrest⟩

/-! ## Serving what is stored -/

def jpegUrl (bytes : List UInt8) : String := "data:image/jpeg;base64," ++ Base64.encode bytes

theorem isWhitespace_of_mem_encodeBytes {bytes : List UInt8} {c : Char}
    (h : c ∈ Base64.encodeBytes bytes) : isWhitespace c = false := by
  have hall : ∀ n : Fin 64, isWhitespace (Base64.digit n) = false := by decide
  rcases Base64.mem_encodeBytes h with rfl | ⟨n, hn, rfl⟩
  · decide
  · exact hall ⟨n, hn⟩

theorem toList_jpegUrl (bytes : List UInt8) : (jpegUrl bytes).toList =
    "data:image/jpeg;base64,".toList ++ Base64.encodeBytes bytes := by
  unfold jpegUrl Base64.encode
  simp only [String.toList_append, String.toList_ofList]

theorem isWhitespace_of_mem_jpegUrl {bytes : List UInt8} {c : Char}
    (h : c ∈ (jpegUrl bytes).toList) : isWhitespace c = false := by
  have hplain : ∀ c ∈ "data:image/jpeg;base64,".toList, isWhitespace c = false := by decide +kernel
  rw [toList_jpegUrl] at h
  rcases List.mem_append.mp h with h | h
  · exact hplain c h
  · exact isWhitespace_of_mem_encodeBytes h

theorem trim_jpegUrl (bytes : List UInt8) : trim (jpegUrl bytes) = jpegUrl bytes := by
  have hmem : ∀ c ∈ (jpegUrl bytes).toList, isWhitespace c = false :=
    fun _ => isWhitespace_of_mem_jpegUrl
  generalize jpegUrl bytes = url at hmem ⊢
  exact trim_eq_self (fun c hc => hmem c (List.mem_of_head? hc))
    (fun c hc => hmem c (List.mem_of_getLast? hc))

theorem jpegUrl_ne_empty (bytes : List UInt8) : jpegUrl bytes ≠ "" := by
  intro h
  have hlist := toList_jpegUrl bytes
  rw [h] at hlist
  cases hlist

theorem planetImage_of_jpegUrl {env : ImageEnv} (hbase64 : StandardBase64 env) {d : Db}
    {bytes : List UInt8} (h : setting settingPlanetImageBase64 d = some (jpegUrl bytes)) :
    planetImage env d = some ("image/jpeg", bytes) ∧ hasPlanetImage d = true := by
  have hne : trim (jpegUrl bytes) ≠ "" := by
    rw [trim_jpegUrl]
    exact jpegUrl_ne_empty bytes
  have hparse : parseImageDataUrl (jpegUrl bytes) = some ⟨"image/jpeg", Base64.encode bytes⟩ := by
    have hstrip := Auth.stripStart_append "data:image/jpeg;base64," (Base64.encode bytes)
    unfold parseImageDataUrl
    simp only [trim_jpegUrl]
    unfold jpegUrl
    simp only [hstrip]
  have hdecode : env.decodeBase64 (Base64.encode bytes) = some bytes := by
    rw [hbase64.decode, Base64.decode_encode]
  generalize jpegUrl bytes = url at h hne hparse
  constructor
  · simp [planetImage, h, hne, hparse, hdecode, Option.filter]
  · simp [hasPlanetImage, h, hne]

/-! ## Updates that are interleaved -/

theorem writes_storeSetting (key : String) (value : Option String) :
    (storeSetting key value).Writes
      (fun w => ∀ d k, setting k (w d) = setting k d ∨ k = key ∧ setting k (w d) = value) := by
  have hrun : ∀ d k, setting k ((storeSetting key value).run d).2 = setting k d ∨
      k = key ∧ setting k ((storeSetting key value).run d).2 = value := by
    intro d k
    rcases htext : value.all isText with _ | _
    · rw [run_storeSetting_refused key htext]
      exact .inl rfl
    · obtain ⟨t, ht, hset⟩ := run_storeSetting key htext d
      rw [ht]
      by_cases hk : k = key
      · exact .inr ⟨hk, by rw [hset, if_pos hk]⟩
      · exact .inl (by rw [hset, if_neg hk])
  cases value with
  | none => exact Tx.writes_exec hrun _
  | some value => exact Tx.writes_exec hrun _

def ImageOk (good : String → Prop) (d : Db) : Prop :=
  ∀ value, setting settingPlanetImageBase64 d = some value → good value

theorem writes_storeAll {good : String → Prop} {fields : List Field}
    (h : ∀ value, (settingPlanetImageBase64, .ok (some value)) ∈ fields → good value) :
    (storeAll fields).Writes (fun w => ∀ d, ImageOk good d → ImageOk good (w d)) := by
  induction fields with
  | nil => trivial
  | cons field rest ih =>
    obtain ⟨key, e | value⟩ := field
    · trivial
    · change (storeSetting key value >>= fun _ => storeAll rest).Writes _
      refine Tx.writes_bind (Tx.writes_mono (fun w hw d hd stored hstored => ?_)
        (writes_storeSetting key value)) (fun _ => ih (fun v hv => h v (List.mem_cons_of_mem _ hv)))
      rcases hw d settingPlanetImageBase64 with hsame | ⟨hkey, hvalue⟩
      · exact hd stored (hsame.symm.trans hstored)
      · rw [hvalue] at hstored
        exact h stored (by simp [← hkey, hstored])

/-- Only the field for the image asks for a value of its setting. -/
theorem requested_of_mem_fieldsOf {env : ConfigEnv} {request : UpdateConfigRequest} {value : String}
    (h : (settingPlanetImageBase64, .ok (some value)) ∈ fieldsOf env request) :
    ∃ text, request.planetImageBase64 = some text ∧
      compressPlanetImageToDataUrl env.images (trim text) = .ok value := by
  have himage : requested (normalizePlanetImage env) request.planetImageBase64 =
      .ok (some value) := by
    have hfield : (settingPlanetImageBase64,
        requested (normalizePlanetImage env) request.planetImageBase64) ∈
          fieldsOf env request := by
      simp [fieldsOf]
    have heq := List.inj_on_of_nodup_map (fieldsOf_keys env request) hfield h rfl
    exact (Prod.mk.inj heq).2
  cases htext : request.planetImageBase64 with
  | none =>
    rw [htext] at himage
    cases himage
  | some text =>
    rw [htext, requested, normalizePlanetImage] at himage
    split at himage
    · cases himage
    · refine ⟨text, rfl, ?_⟩
      cases hcompress : compressPlanetImageToDataUrl env.images (trim text) with
      | error e =>
        rw [hcompress] at himage
        cases himage
      | ok url =>
        rw [hcompress] at himage
        cases himage
        rfl

/-- An update of the configuration, or another program, which leaves the setting alone. -/
inductive ConfigParty where
  | updates (call : UpdateConfigCall)
  | others (program : Query Unit) (keeps : program.Keeps (setting settingPlanetImageBase64))

def ConfigParty.program (env : ConfigEnv) : ConfigParty → Query Unit
  | updates call => do
    let _ ← updateConfig env call
    pure ()
  | others program _ => program

section
variable {ι : Type} {env : ConfigEnv}

def StoredBy (env : ConfigEnv) (parties : ι → ConfigParty) (value : String) : Prop :=
  ∃ i call text bytes, parties i = .updates call ∧ call.request.planetImageBase64 = some text ∧
    Compressed env.images text bytes ∧ value = jpegUrl bytes

theorem writes_updateConfig (hbase64 : StandardBase64 env.images) (hresize : FitsBounds env.images)
    {parties : ι → ConfigParty} {i : ι} {call : UpdateConfigCall} (hi : parties i = .updates call) :
    (updateConfig env call).Writes
      (fun w => ∀ d, ImageOk (StoredBy env parties) d → ImageOk (StoredBy env parties) (w d)) := by
  rw [updateConfig_eq]
  refine Tx.writes_bind (writes_storeAll (fun value hvalue => ?_)) (fun _ => ?_)
  · obtain ⟨text, htext, hcompress⟩ := requested_of_mem_fieldsOf hvalue
    obtain ⟨bytes, hbytes, rfl⟩ := compressPlanetImageToDataUrl_ok hresize hcompress
    refine ⟨i, call, text, bytes, hi, htext, hbytes.of_trim, ?_⟩
    unfold jpegUrl
    simp only [hbase64.encode]
  · refine Tx.writes_mono (fun w hw d hd value hvalue => hd value ?_) (keeps_finish env call)
    rwa [setting_congr (hw d)] at hvalue

/-- However updates of the configuration and other programs are interleaved, the image that clients
are told of is served, as the JPEG that was chosen for the image of one of the updates. -/
theorem planet_image_served [DecidableEq ι] (env : ConfigEnv) (hbase64 : StandardBase64 env.images)
    (hresize : FitsBounds env.images) (d : Db)
    (habsent : setting settingPlanetImageBase64 d = none) (parties : ι → ConfigParty) (is : List ι)
    (s : Sys ι Db (Query Unit))
    (hrun : run Tx.step ⟨d, fun i => (parties i).program env⟩ is = some s) :
    hasPlanetImage s.db = (planetImage env.images s.db).isSome ∧
    ∀ contentType bytes, planetImage env.images s.db = some (contentType, bytes) →
      contentType = "image/jpeg" ∧ ∃ i call text, parties i = .updates call ∧
        call.request.planetImageBase64 = some text ∧ Compressed env.images text bytes := by
  have hok : ImageOk (StoredBy env parties) s.db := by
    refine run_writes (fun i => ?_) (fun value hvalue => ?_) hrun
    · change ((parties i).program env).Writes _
      cases hi : parties i with
      | updates call =>
        exact Tx.writes_bind (writes_updateConfig hbase64 hresize hi) (fun _ => trivial)
      | others program keeps =>
        exact Tx.writes_mono (fun w hw d hd value hvalue => hd value (hw d ▸ hvalue)) keeps
    · cases habsent.symm.trans hvalue
  cases hsetting : setting settingPlanetImageBase64 s.db with
  | none =>
    have hnone : planetImage env.images s.db = none := by simp [planetImage, hsetting]
    rw [hnone]
    exact ⟨by simp [hasPlanetImage, hsetting], fun _ _ h => (by cases h)⟩
  | some value =>
    obtain ⟨i, call, text, bytes, hi, htext, hbytes, rfl⟩ := hok value hsetting
    obtain ⟨hserved, hhas⟩ := planetImage_of_jpegUrl hbase64 hsetting
    rw [hserved, hhas]
    refine ⟨rfl, fun contentType bytes' h => ?_⟩
    cases h
    exact ⟨rfl, i, call, text, hi, htext, hbytes⟩

end
/-! ## Samples -/

def whitePng : String :=
  "iVBORw0KGgoAAAANSUhEUgAAAAEAAAABCAIAAACQd1PeAA" ++
    "AADElEQVR42mP4//8/AAX+Av4zEpUUAAAAAElFTkSuQmCC"

/-- Every file that is not empty is an image of one white pixel. -/
def onePixel : ImageEnv where
  Image := Nat × Nat
  load _ decoded := if decoded = [] then none else some (1, 1)
  width := Prod.fst
  height := Prod.snd
  resize _ width height image := (min image.1 width, min image.2 height)
  toRgba8 _ := [⟨255, 255, 255, 255⟩]
  encodeJpeg _ _ _ _ := some [0xFF, 0xD8, 0xFF, 0xD9]
  decodeBase64 := Base64.decode
  encodeBase64 := Base64.encode

def onePixelConfig : ConfigEnv := { sampleConfig with images := onePixel }

def twoUpdates : Fin 2 → ConfigParty
  | 0 => .updates ⟨2, ⟨none, none, none, none, some (" data:image/png;base64," ++ whitePng), none,
      none⟩, 9⟩
  | 1 => .updates ⟨2, ⟨none, none, none, none, none, none, none⟩, 10⟩

/-- The image is cleared before it is set. -/
def afterUpdates : Option (Sys (Fin 2) Db (Query Unit)) :=
  run Tx.step ⟨Guild.accountAndAdmin, fun i => (twoUpdates i).program onePixelConfig⟩
    [0, 1, 1, 1, 1, 1, 0, 0, 0, 0]

theorem afterUpdates_isSome : afterUpdates.isSome := by decide +kernel

theorem planet_image_served_pixel :
    ∃ s, afterUpdates = some s ∧
      planetImage onePixel s.db = some ("image/jpeg", [0xFF, 0xD8, 0xFF, 0xD9]) ∧
      hasPlanetImage s.db = (planetImage onePixel s.db).isSome :=
  ⟨_, (Option.some_get afterUpdates_isSome).symm, by decide +kernel,
    (planet_image_served onePixelConfig ⟨rfl, rfl⟩
      (fun _ _ _ _ _ _ => ⟨Nat.min_le_right _ _, Nat.min_le_right _ _⟩) Guild.accountAndAdmin
      (by decide) twoUpdates _ _ (Option.some_get afterUpdates_isSome).symm).1⟩

end SyncServer.Admin
