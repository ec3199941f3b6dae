import SyncServer.Guild.Service
import SyncServer.Stickers.Service

/-! # The request to upload a sticker

The upload of an administrator is stored at once. Anybody else's is an attachment, which may not be
allowed, or be one too many for the day.
-/

namespace SyncServer.Stickers
open Transaction

structure UploadCall where
  requesterId : Uuid
  role : String
  input : UploadStickerInput
  now : Int
  sticker : Uuid
  activityAudit : Uuid
  audit : Uuid
deriving DecidableEq, Repr

inductive UploadAnswer where
  | created (sticker : Sticker)
  | limited (guild : Guild.GuildSnapshot) (retryAfterSeconds : Int) (allowedMimeTypes : List String)
  | unsupported (guild : Guild.GuildSnapshot) (allowedMimeTypes : List String)
deriving DecidableEq, Repr

/-- `sticker_upload_allowed_mime_types`. -/
def stickerUploadAllowedMimeTypes (guild : Guild.GuildSnapshot) : List String :=
  allowedMimeTypes.filter (fun mimeType => guild.allowedAttachmentTypes.any (· = mimeType))

def dailyLimitLog (call : UploadCall) (guild : Guild.GuildSnapshot) (retryAfterSeconds : Int) :
    AdminAuditLog where
  id := call.audit
  actorUserId := some call.requesterId
  action := "guild.blocked_action.attachment_daily_limit"
  target := none
  details := Json.ofFields [
    ("retry_after_seconds", Json.ofInt retryAfterSeconds),
    ("level", Json.ofInt guild.level),
    ("rank", .string guild.rank),
    ("daily_attachment_send_limit", Json.ofOption (guild.dailyAttachmentSendLimit.map Json.ofInt)),
    ("daily_attachment_sends_sent", Json.ofInt guild.dailyAttachmentSendsSent),
    ("mime_type", .string call.input.mimeType)]

def typeLog (call : UploadCall) (guild : Guild.GuildSnapshot) : AdminAuditLog where
  id := call.audit
  actorUserId := some call.requesterId
  action := "guild.blocked_action.attachment_type_not_allowed"
  target := none
  details := Json.ofFields [
    ("level", Json.ofInt guild.level),
    ("rank", .string guild.rank),
    ("mime_type", .string call.input.mimeType),
    ("allowed_mime_types", .array ((stickerUploadAllowedMimeTypes guild).map Json.string))]

def uploadLog (call : UploadCall) (created : Sticker) : AdminAuditLog where
  id := call.audit
  actorUserId := some call.requesterId
  action := "sticker.upload"
  target := some (uuidString created.id)
  details := Json.ofFields [
    ("group_name", .string created.groupName),
    ("mime_type", .string created.mimeType),
    ("size_bytes", Json.ofInt created.sizeBytes),
    ("status", .string created.status)]

def answerWith (row : AdminAuditLog) (answer : UploadAnswer) : Query UploadAnswer := do
  Guild.insertAuditLog row
  pure answer

/-- `POST /api/stickers/upload`. -/
def upload (env : Guild.Env) (decode : String → Option (List UInt8)) (call : UploadCall) :
    Query UploadAnswer :=
  let operation := uploadStickerConn decode call.requesterId call.role call.input call.sticker
  if call.role = "admin" then do
    let created ← operation
    answerWith (uploadLog call created) (.created created)
  else do
    let result ← (Guild.runAttachmentActionWithGuild env call.requesterId call.input.mimeType
      operation call.now call.activityAudit).asStatement
    match result with
    | .completed value => answerWith (uploadLog call value) (.created value)
    | .limited guild retryAfterSeconds =>
      answerWith (dailyLimitLog call guild retryAfterSeconds)
        (.limited guild retryAfterSeconds (stickerUploadAllowedMimeTypes guild))
    | .unsupportedMime guild =>
      answerWith (typeLog call guild) (.unsupported guild (stickerUploadAllowedMimeTypes guild))

end SyncServer.Stickers
