import SyncServer.Auth.Extractors
import SyncServer.Federation.Outbox
import SyncServer.Guild.PolicyStore

/-! # The configuration of a planet

The settings of administrators, and the handler that replaces them. Every statement of the handler
commits on its own.
-/

namespace SyncServer.Admin
open Transaction

/-! ## Images -/

inductive ImageFormat where
  | png
  | jpeg
  | webP
deriving DecidableEq, Repr

inductive FilterType where
  | lanczos3
  | triangle
deriving DecidableEq, Repr

/-- A pixel with its alpha channel; a channel is at most 255. -/
structure Rgba where
  r : Nat
  g : Nat
  b : Nat
  a : Nat
deriving DecidableEq, Repr

structure Rgb where
  r : Nat
  g : Nat
  b : Nat
deriving DecidableEq, Repr

/-- The libraries for images and base64. The pixels of an image come row by row. -/
structure ImageEnv where
  Image : Type
  load : ImageFormat → List UInt8 → Option Image
  width : Image → Nat
  height : Image → Nat
  resize : FilterType → Nat → Nat → Image → Image
  toRgba8 : Image → List Rgba
  encodeJpeg : Nat → Nat → Nat → List Rgb → Option (List UInt8)
  decodeBase64 : String → Option (List UInt8)
  encodeBase64 : List UInt8 → String

def maxInputImageBytes : Nat := 20 * 1024 * 1024

def maxInputImageEncodedChars : Nat := 28000000

def maxOutputImageBytes : Nat := 512 * 1024

def maxOutputDimension : Nat := 1024

def minOutputDimension : Nat := 128

/-- `parse_supported_image_data_url`. -/
def parseSupportedImageDataUrl (dataUrl : String) : Except AppError (ImageFormat × String) :=
  match Auth.stripStart "data:image/png;base64," dataUrl with
  | some payload => .ok (.png, payload)
  | none =>
    match Auth.stripStart "data:image/jpeg;base64," dataUrl with
    | some payload => .ok (.jpeg, payload)
    | none =>
      match Auth.stripStart "data:image/webp;base64," dataUrl with
      | some payload => .ok (.webP, payload)
      | none => .error (.badRequest "planet_image_base64 must be a data URL (png/jpeg/webp)")

/-- `flatten_with_white_background`. -/
def flattenWithWhiteBackground (pixels : List Rgba) : List Rgb :=
  pixels.map fun px =>
    let flatten (channel : Nat) := (channel * px.a + 255 * (255 - px.a)) / 255
    ⟨flatten px.r, flatten px.g, flatten px.b⟩

/-- `encode_jpeg_bytes`. -/
def encodeJpegBytes (env : ImageEnv) (image : env.Image) (quality : Nat) :
    Except AppError (List UInt8) :=
  match env.encodeJpeg quality (env.width image) (env.height image)
      (flattenWithWhiteBackground (env.toRgba8 image)) with
  | some bytes => .ok bytes
  | none => .error (.badRequest "planet_image_base64 could not be encoded")

def qualitySteps : List Nat := [85, 75, 65, 55, 45]

def better (best : Option (List UInt8)) (encoded : List UInt8) : List UInt8 :=
  match best with
  | some existing => if existing.length ≤ encoded.length then existing else encoded
  | none => encoded

def encodeSteps (env : ImageEnv) (image : env.Image) :
    List Nat → Option (List UInt8) → Except AppError (List UInt8 ⊕ Option (List UInt8))
  | [], best => .ok (.inr best)
  | quality :: rest, best => do
    let encoded ← encodeJpegBytes env image quality
    if encoded.length ≤ maxOutputImageBytes then pure (.inl encoded)
    else encodeSteps env image rest (some (better best encoded))

def compressRounds (env : ImageEnv) :
    Nat → env.Image → Option (List UInt8) → Except AppError (List UInt8 ⊕ Option (List UInt8))
  | 0, _, best => .ok (.inr best)
  | n + 1, working, best => do
    match ← encodeSteps env working qualitySteps best with
    | .inl encoded => pure (.inl encoded)
    | .inr best =>
      let nextWidth := max (env.width working * 3 / 4) minOutputDimension
      let nextHeight := max (env.height working * 3 / 4) minOutputDimension
      if nextWidth = env.width working ∧ nextHeight = env.height working then pure (.inr best)
      else compressRounds env n (env.resize .triangle nextWidth nextHeight working) best

/-- `compress_planet_image_to_data_url`. -/
def compressPlanetImageToDataUrl (env : ImageEnv) (dataUrl : String) : Except AppError String := do
  let trimmed := trim dataUrl
  require (trimmed.utf8ByteSize ≤ maxInputImageEncodedChars)
    "planet_image_base64 is too large (max 20MB)"
  let (sourceFormat, payload) ← parseSupportedImageDataUrl trimmed
  match env.decodeBase64 payload with
  | none => .error (.badRequest "planet_image_base64 is not valid base64")
  | some decoded => do
    require (decoded.length ≤ maxInputImageBytes)
      "planet_image_base64 decoded payload must be <= 20MB"
    match env.load sourceFormat decoded with
    | none => .error (.badRequest "planet_image_base64 could not be decoded as an image")
    | some image => do
      let working := if maxOutputDimension < max (env.width image) (env.height image) then
        env.resize .lanczos3 maxOutputDimension maxOutputDimension image else image
      match ← compressRounds env 4 working none with
      | .inl encoded | .inr (some encoded) =>
        pure ("data:image/jpeg;base64," ++ env.encodeBase64 encoded)
      | .inr none => .error (.badRequest "planet_image_base64 could not be compressed")

/-! ## Settings -/

structure ConfigEnv where
  names : Accounts.NameEnv
  images : ImageEnv
  maxUsers : Option Nat
  encodeStrings : List String → String
  decodeStrings : String → Option (List String)

def settingMaxUsers : String := "max_users"

def settingWebhookUrl : String := "notification_webhook_url"

def settingPlanetName : String := "planet_name"

def settingPlanetDescription : String := "planet_description"

def settingPlanetImageBase64 : String := "planet_image_base64"

def settingLinkedPlanets : String := "linked_planets"

def settingRequireApproval : String := "registration_requires_approval"

/-- The value of a setting. -/
def setting (key : String) (d : Db) : Option String :=
  (d.adminSettings.get key).map AdminSetting.value

/-- `clear_setting`. -/
def clearSetting (key : String) : Query Unit :=
  Query.exec (fun _ => []) (fun s =>
    .ok ((), { s with adminSettings := s.adminSettings.filter (fun r => r.key ≠ key) }))

def storeSetting (key : String) : Option String → Query Unit
  | some value => Guild.setSetting key value
  | none => clearSetting key

/-- `AdminConfigView`. -/
structure AdminConfigView where
  maxUsersOverride : Option Nat
  effectiveMaxUsers : Option Nat
  notificationWebhookUrl : Option String
  planetName : Option String
  planetDescription : Option String
  planetImageBase64 : Option String
  linkedPlanets : List String
  requireApproval : Bool
deriving DecidableEq, Repr

/-- `read_linked_planets`. -/
def readLinkedPlanets (env : ConfigEnv) (d : Db) : List String :=
  match setting settingLinkedPlanets d with
  | none => []
  | some raw =>
    (((env.decodeStrings raw).getD []).map (fun item => Federation.trimEndMatches '/' (trim item))).filter
      (· ≠ "")

/-- `read_admin_config`. -/
def readAdminConfig (env : ConfigEnv) : Query AdminConfigView :=
  Tx.query fun d =>
    let maxUsersOverride := (setting settingMaxUsers d).bind parseU32
    { maxUsersOverride
      effectiveMaxUsers := maxUsersOverride.or env.maxUsers
      notificationWebhookUrl := setting settingWebhookUrl d
      planetName := setting settingPlanetName d
      planetDescription := setting settingPlanetDescription d
      planetImageBase64 := setting settingPlanetImageBase64 d
      linkedPlanets := readLinkedPlanets env d
      requireApproval := setting settingRequireApproval d = some "true" }

/-! ## The handler -/

/-- `UpdateConfigRequest`. -/
structure UpdateConfigRequest where
  maxUsers : Option Nat
  notificationWebhookUrl : Option String
  planetName : Option String
  planetDescription : Option String
  planetImageBase64 : Option String
  linkedPlanets : Option (List String)
  requireApproval : Option Bool
deriving DecidableEq, Repr

/-- The value of `max_users`. -/
def normalizeMaxUsers (maxUsers : Nat) : Except AppError (Option String) :=
  if maxUsers = 0 then .error (.badRequest "max_users must be greater than 0")
  else .ok (some (toString maxUsers))

def normalizeText (text : String) : Except AppError (Option String) :=
  if trim text = "" then .ok none else .ok (some (trim text))

/-- The value of `notification_webhook_url`. -/
def normalizeWebhookUrl (env : ConfigEnv) (url : String) : Except AppError (Option String) :=
  if trim url = "" then .ok none
  else match env.names.parseUrl (trim url) with
    | .error _ => .error (.badRequest "notification_webhook_url must be a valid URL")
    | .ok parsed =>
      if parsed.scheme ≠ "https" then
        .error (.badRequest "notification_webhook_url must use https")
      else .ok (some (trim url))

/-- The value of `planet_image_base64`. -/
def normalizePlanetImage (env : ConfigEnv) (image : String) : Except AppError (Option String) :=
  if trim image = "" then .ok none
  else (compressPlanetImageToDataUrl env.images (trim image)).map some

/-- One of `linked_planets`; a blank one is left out. -/
def normalizeLinkedPlanet (env : ConfigEnv) (raw : String) : Except AppError (Option String) :=
  let trimmed := Federation.trimEndMatches '/' (trim raw)
  if trimmed = "" then .ok none
  else match env.names.parseUrl trimmed with
    | .error _ => .error (.badRequest "linked_planets must contain valid URLs")
    | .ok parsed =>
      if parsed.scheme ≠ "https" ∧ parsed.scheme ≠ "http" then
        .error (.badRequest "linked_planets URLs must use http or https")
      else .ok (some trimmed)

/-- The loop over `linked_planets`. -/
def collectLinkedPlanets (env : ConfigEnv) : List String → Except AppError (List String)
  | [] => .ok []
  | raw :: rest => do
    let planet ← normalizeLinkedPlanet env raw
    let planets ← collectLinkedPlanets env rest
    pure (planet.toList ++ planets)

def normalizedLinkedPlanets (env : ConfigEnv) (request : UpdateConfigRequest) :
    Except AppError (List String) :=
  match request.linkedPlanets with
  | some planets => (collectLinkedPlanets env planets).map sortedSet
  | none => .ok []

/-- The value of `linked_planets`. -/
def encodedPlanets (env : ConfigEnv) (planets : List String) : Option String :=
  if planets = [] then none else some (env.encodeStrings planets)

def updateSetting {α : Type} (key : String) (normalize : α → Except AppError (Option String)) :
    Option α → Query Unit
  | some value => do
    let normalized ← Tx.done (normalize value)
    storeSetting key normalized
  | none => clearSetting key

def isSet (text : Option String) : Bool := (text.map (fun v => decide (trim v ≠ ""))).getD false

structure UpdateConfigCall where
  adminId : Uuid
  request : UpdateConfigRequest
  audit : Uuid
deriving DecidableEq, Repr

def configLog (call : UpdateConfigCall) (linkedPlanets : List String) : AdminAuditLog where
  id := call.audit
  actorUserId := some call.adminId
  action := "config.update"
  target := none
  details := Json.ofFields [
    ("max_users", Json.ofOption (call.request.maxUsers.map (fun n => Json.ofInt n))),
    ("notification_webhook_url_set", .bool (isSet call.request.notificationWebhookUrl)),
    ("planet_name_set", .bool (isSet call.request.planetName)),
    ("planet_description_set", .bool (isSet call.request.planetDescription)),
    ("planet_image_set", .bool (isSet call.request.planetImageBase64)),
    ("linked_planets_count", Json.ofInt linkedPlanets.length)]

/-- `update_config`. -/
def updateConfig (env : ConfigEnv) (call : UpdateConfigCall) : Query AdminConfigView := do
  updateSetting settingMaxUsers normalizeMaxUsers call.request.maxUsers
  updateSetting settingWebhookUrl (normalizeWebhookUrl env) call.request.notificationWebhookUrl
  updateSetting settingPlanetName normalizeText call.request.planetName
  updateSetting settingPlanetDescription normalizeText call.request.planetDescription
  updateSetting settingPlanetImageBase64 (normalizePlanetImage env) call.request.planetImageBase64
  let linkedPlanets ← Tx.done (normalizedLinkedPlanets env call.request)
  storeSetting settingLinkedPlanets (encodedPlanets env linkedPlanets)
  match call.request.requireApproval with
  | some requireApproval =>
    if requireApproval then Guild.setSetting settingRequireApproval "true"
    else clearSetting settingRequireApproval
  | none => pure ()
  Guild.insertAuditLog (configLog call linkedPlanets)
  readAdminConfig env

end SyncServer.Admin
