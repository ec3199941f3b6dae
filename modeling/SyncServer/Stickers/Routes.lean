import SyncServer.Accounts.Deletion
import SyncServer.Admin.Standing
import SyncServer.Stickers.Groups
import SyncServer.Stickers.Upload

/-! # The requests about stickers

Administrators review stickers and rename their groups, and what they do is recorded. Everybody else
sees the active stickers and their own.
-/

namespace SyncServer.Stickers
open Transaction

/-! ## What administrators do -/

structure ModerateCall where
  admin : Uuid
  stickerId : Uuid
  action : String
  times : Admin.AwardTimes
  audit : Uuid
deriving DecidableEq, Repr

def reviewScore (env : Guild.Env) (call : ModerateCall) (updated : StickerListItem) :
    Query Guild.ContributionEventOutcome :=
  (Guild.recordContributionEvent env
    (Guild.awardValidatedModerationAction call.admin "validated_moderation_action.sticker_review"
      (some (uuidString call.stickerId))
      (Json.ofFields [
        ("action", .string (trim call.action)),
        ("sticker_id", .string (uuidString call.stickerId)),
        ("uploader_id", .string (uuidString updated.uploaderId))]))
    call.times.now call.times.startedAt call.times.eventId).asStatement

def moderateLog (call : ModerateCall) (updated : StickerListItem)
    (score : Guild.ContributionEventOutcome) : AdminAuditLog where
  id := call.audit
  actorUserId := some call.admin
  action := "sticker.moderate"
  target := some (uuidString call.stickerId)
  details := Json.ofFields [
    ("action", .string call.action),
    ("status", .string updated.status),
    ("score_event_id",
      Json.ofOption (score.event.map (fun event => .string (uuidString event.id)))),
    ("score_delta_applied", Json.ofInt score.appliedDelta),
    ("contribution_score", Json.ofInt score.contributionScore),
    ("derived_rank", .string score.derivedRank),
    ("score_duplicate", .bool score.duplicate),
    ("score_suppressed_reason", Json.ofOption (score.suppressedReason.map .string))]

/-- `POST /api/stickers/{id}/moderate`. -/
def moderate (env : Guild.Env) (call : ModerateCall) : Query StickerListItem := do
  let updated ← moderateSticker call.stickerId (trim call.action)
  let score ← reviewScore env call updated
  Guild.insertAuditLog (moderateLog call updated score)
  pure updated

/-- `PATCH /api/stickers/groups/author`. -/
def updateAuthor (admin audit : Uuid) (groupName : String) (author : Option String) :
    Query Json := do
  let answer := Json.ofFields [
    ("group_name", .string groupName),
    ("author", Json.ofOption (author.map .string))]
  updateGroupAuthor groupName author
  Guild.insertAuditLog ⟨audit, some admin, "sticker.update_group_author", none, answer⟩
  pure answer

/-- `PATCH /api/stickers/groups/rename`. -/
def renameGroup (admin audit : Uuid) (oldName newName : String) : Query Json := do
  let affected ← renameStickerGroup oldName newName
  Guild.insertAuditLog ⟨audit, some admin, "sticker.rename_group", none, Json.ofFields [
    ("old_name", .string oldName),
    ("new_name", .string newName),
    ("affected_stickers", Json.ofInt affected)]⟩
  pure (Json.ofFields [
    ("old_name", .string oldName),
    ("new_name", .string newName),
    ("affected", Json.ofInt affected)])

/-! ## What is shown -/

structure StickerDetail where
  id : Uuid
  uploaderId : Uuid
  groupName : String
  name : String
  mimeType : String
  sizeBytes : Int
  status : String
  contentBase64 : String
  groupAuthor : Option String
deriving DecidableEq, Repr

def StickerDetail.ofSticker (r : Sticker) : StickerDetail :=
  ⟨r.id, r.uploaderId, r.groupName, r.name, r.mimeType, r.sizeBytes, r.status, r.contentBase64,
    r.groupAuthor⟩

def canView (requester : Uuid) (role : String) (uploader : Uuid) (status : String) : Bool :=
  decide (role = "admin") || decide (status = "active") || decide (uploader = requester)

/-- `get_sticker`. -/
def getSticker (requester : Uuid) (role : String) (id : Uuid) : Query StickerDetail := do
  let found ← Tx.query (fun s => s.stickers.get id)
  let sticker ← Tx.okOr .notFound found
  if canView requester role sticker.uploaderId sticker.status then pure (.ofSticker sticker)
  else throw .forbidden

/-- What the query for the stickers of a user may deliver; as its second `order` replaces the first,
the latest come first. -/
structure DeliveredTo (requester : Uuid) (role : String) (w : Wide StickerTimes)
    (rows : List Sticker) : Prop where
  visible : rows.Perm (w.db.stickers.rows.filter
    (fun r => canView requester role r.uploaderId r.status))
  ordered : rows.Pairwise (fun a b => w.columns b.id ≤ w.columns a.id)

/-- `list_stickers`, for the rows that the query delivers. -/
def listStickers (rows : List Sticker) : List StickerListItem := rows.map .ofSticker

end SyncServer.Stickers
