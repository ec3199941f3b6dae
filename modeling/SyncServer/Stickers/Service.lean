import Mathlib.Algebra.Ring.Int.Defs
import SyncServer.Base.Text
import SyncServer.Schema

/-! # The sticker service

The upload of a sticker, and what administrators change afterwards. The decoder for base64 comes
from a library and is a parameter; only the length of what it decodes matters.
-/

namespace SyncServer.Stickers
open Transaction

def allowedMimeTypes : List String := ["image/png", "image/webp", "image/gif", "image/jpeg"]

def maxStickerSizeBytes : Nat := 256 * 1024

def maxStickersPerUser : Nat := 120

def maxTotalBytesPerUser : Int := 8 * 1024 * 1024

structure UploadStickerInput where
  groupName : String
  name : String
  mimeType : String
  contentBase64 : String
  groupAuthor : Option String
deriving DecidableEq, Repr

def checkUpload (decode : String → Option (List UInt8)) (input : UploadStickerInput) :
    Except AppError Nat := do
  let name := trim input.name
  require (decide (name ≠ "" ∧ name.utf8ByteSize ≤ 80)) "name is required and must be <= 80 chars"
  let groupName := trim input.groupName
  require (decide (groupName ≠ "" ∧ groupName.utf8ByteSize ≤ 40))
    "group_name is required and must be <= 40 chars"
  require (decide (input.mimeType ∈ allowedMimeTypes))
    "mime_type must be one of image/png,image/webp,image/gif,image/jpeg"
  match decode (trim input.contentBase64) with
  | none => .error (.badRequest "content_base64 must be valid base64")
  | some decoded => do
    require (decide (decoded ≠ [] ∧ decoded.length ≤ maxStickerSizeBytes))
      ("sticker size must be between 1 and " ++ toString maxStickerSizeBytes ++ " bytes")
    pure decoded.length

def groupAuthorOf (input : UploadStickerInput) : Option String :=
  if trim input.name = "__tab__" then (input.groupAuthor.map trim).filter (· ≠ "") else none

/-- An insertion into `stickers`. -/
def insertSticker (row : Sticker) : Query Unit :=
  Query.exec (fun _ => []) (fun s =>
    match s.stickers.insert row with
    | none => .error .uniqueViolation
    | some t =>
      if ¬ 0 < row.sizeBytes then .error .checkViolation
      else if row.status ∉ ["active", "pending", "rejected"] then .error .checkViolation
      else if ¬ s.userExists row.uploaderId then .error .foreignKeyViolation
      else .ok ((), { s with stickers := t }))

/-- `upload_sticker_conn`. -/
def uploadStickerConn (decode : String → Option (List UInt8)) (uploader : Uuid) (role : String)
    (input : UploadStickerInput) (id : Uuid) : Query Sticker := do
  let size ← Tx.done (checkUpload decode input)
  let existing ← Tx.query (fun s => s.stickers.rows.countP (fun r => r.uploaderId = uploader))
  if maxStickersPerUser ≤ existing then
    throw (.badRequest ("sticker quota exceeded (" ++ toString maxStickersPerUser ++ " per user)"))
  else do
    let used ← Tx.query (fun s =>
      ((s.stickers.rows.filter (fun r => r.uploaderId = uploader)).map Sticker.sizeBytes).sum)
    if maxTotalBytesPerUser < used + size then
      throw (.badRequest
        ("storage quota exceeded (" ++ toString maxTotalBytesPerUser ++ " bytes per user)"))
    else do
      insertSticker {
        id := id
        uploaderId := uploader
        groupName := trim input.groupName
        name := trim input.name
        mimeType := input.mimeType
        contentBase64 := trim input.contentBase64
        sizeBytes := size
        status := if role = "admin" then "active" else "pending"
        groupAuthor := groupAuthorOf input }
      let saved ← Tx.query (fun s => s.stickers.get id)
      Tx.okOr (.database .notFound) saved

/-! ## Changes by administrators -/

/-- `UPDATE stickers SET .. WHERE p`; the number of rows is returned. -/
def updateStickers (p : Sticker → Bool) (f : Sticker → Sticker)
    (hf : ∀ r, (f r).id = r.id := by intro r; rfl) : Query Nat :=
  Query.exec (fun _ => []) (fun s => .ok (s.stickers.rows.countP p,
    { s with stickers := s.stickers.map (fun r => if p r then f r else r) (by
        intro r
        split
        · exact hf r
        · rfl) }))

def updateSome (p : Sticker → Bool) (f : Sticker → Sticker)
    (hf : ∀ r, (f r).id = r.id := by intro r; rfl) : Query Nat := do
  let changed ← updateStickers p f hf
  if changed = 0 then throw .notFound else pure changed

/-- `rename_sticker_group`. -/
def renameStickerGroup (oldName newName : String) : Query Nat :=
  let oldName := trim oldName
  let newName := trim newName
  if oldName = "" ∨ newName = "" then throw (.badRequest "old_name and new_name are required")
  else if 40 < newName.utf8ByteSize then throw (.badRequest "new_name must be <= 40 chars")
  else updateSome (fun r => r.groupName = oldName) (fun r => { r with groupName := newName })

/-- `update_group_author`. -/
def updateGroupAuthor (groupName : String) (author : Option String) : Query Unit :=
  let groupName := trim groupName
  if groupName = "" then throw (.badRequest "group_name is required")
  else do
    let authorValue := (author.map trim).filter (· ≠ "")
    let _ ← updateSome (fun r => r.groupName = groupName && r.name = "__tab__")
      (fun r => { r with groupAuthor := authorValue })
    pure ()

structure StickerListItem where
  id : Uuid
  uploaderId : Uuid
  groupName : String
  name : String
  mimeType : String
  sizeBytes : Int
  status : String
  groupAuthor : Option String
deriving DecidableEq, Repr

def StickerListItem.ofSticker (r : Sticker) : StickerListItem :=
  ⟨r.id, r.uploaderId, r.groupName, r.name, r.mimeType, r.sizeBytes, r.status, r.groupAuthor⟩

/-- `moderate_sticker`. -/
def moderateSticker (id : Uuid) (action : String) : Query StickerListItem :=
  if action ≠ "approve" ∧ action ≠ "reject" then
    throw (.badRequest "action must be one of: approve,reject")
  else do
    let status := if action = "approve" then "active" else "rejected"
    let _ ← updateSome (fun r => r.id = id) (fun r => { r with status := status })
    let found ← Tx.query (fun s => s.stickers.get id)
    let updated ← Tx.okOr (.database .notFound) found
    pure (.ofSticker updated)

/-! ## What an upload touches -/

variable {τ : Type} {π : Db → τ}

theorem keeps_insertSticker (hπ : ∀ s t, π { s with stickers := t } = π s) (row : Sticker) :
    (insertSticker row).Keeps π := by
  refine Query.keeps_exec (fun s a s' h => ?_)
  split at h
  · cases h
  split at h
  · cases h
  split at h
  · cases h
  split at h
  · cases h
  cases h
  exact hπ s _

theorem keeps_uploadStickerConn (hπ : ∀ s t, π { s with stickers := t } = π s)
    (decode : String → Option (List UInt8)) (uploader : Uuid) (role : String)
    (input : UploadStickerInput) (id : Uuid) :
    (uploadStickerConn decode uploader role input id).Keeps π := by
  refine Tx.keeps_bind trivial (fun size => ?_)
  refine Tx.keeps_bind (Tx.keeps_query _ _) (fun existing => ?_)
  split
  · exact Tx.keeps_throw _ _
  refine Tx.keeps_bind (Tx.keeps_query _ _) (fun used => ?_)
  split
  · exact Tx.keeps_throw _ _
  refine Tx.keeps_bind (keeps_insertSticker hπ _) (fun _ => ?_)
  exact Tx.keeps_bind (Tx.keeps_query _ _) (fun saved => Tx.keeps_okOr _ _ saved)

end SyncServer.Stickers
