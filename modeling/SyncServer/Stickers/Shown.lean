import SyncServer.Base.LastWord
import SyncServer.Guild.Gate
import SyncServer.Stickers.Routes
import SyncServer.Stickers.Store

/-! # Which stickers are shown

A sticker is what was uploaded, as long as its uploader is there. Whether others see it was decided
by its last review, or by its upload if nobody has reviewed it.
-/

namespace SyncServer.Stickers
open Transaction

/-! ## Requests about stickers -/

/-- A request about stickers, or whatever else happens to the database. -/
inductive StickerRequest where
  | upload (call : UploadCall)
  | moderate (call : ModerateCall)
  | updateAuthor (admin audit : Uuid) (groupName : String) (author : Option String)
  | renameGroup (admin audit : Uuid) (oldName newName : String)
  | deleteAccount (user : Uuid)
  | elsewhere (db : Db)

structure StickerEnv where
  guild : Guild.Env
  decode : String → Option (List UInt8)

/-- The database after the request. -/
def StickerRequest.apply (env : StickerEnv) : StickerRequest → Db → Db
  | upload call, s => ((Stickers.upload env.guild env.decode call).run s).2
  | moderate call, s => ((Stickers.moderate env.guild call).run s).2
  | updateAuthor admin audit groupName author, s =>
    ((Stickers.updateAuthor admin audit groupName author).run s).2
  | renameGroup admin audit oldName newName, s =>
    ((Stickers.renameGroup admin audit oldName newName).run s).2
  | deleteAccount user, s => ((Accounts.deleteUser user).run s).2
  | elsewhere db, s => { db with stickers := s.stickers }

def afterStickerRequests (env : StickerEnv) (requests : List StickerRequest) (s : Db) : Db :=
  requests.foldl (fun s request => request.apply env s) s

/-! ## What the requests say -/

/-- What of a sticker stays as it was uploaded. -/
structure Upload where
  uploaderId : Uuid
  name : String
  mimeType : String
  contentBase64 : String
  sizeBytes : Int
deriving DecidableEq, Repr

inductive StickerEvent where
  | uploaded (id : Uuid) (upload : Upload) (status : String)
  | reviewed (id : Uuid) (status : String)
  | accountDeleted (user : Uuid)
deriving DecidableEq, Repr

def uploadRules : LastWord.Rules StickerEvent Uuid Upload where
  gives e id upload := ∃ status, e = .uploaded id upload status
  ends e id upload :=
    match e with
    | .uploaded id' _ _ => id' = id
    | .reviewed _ _ => False
    | .accountDeleted user => user = upload.uploaderId

def statusRules : LastWord.Rules StickerEvent Uuid String where
  gives e id status := (∃ upload, e = .uploaded id upload status) ∨ e = .reviewed id status
  ends e id _ :=
    match e with
    | .uploaded id' _ _ => id' = id
    | .reviewed id' _ => id' = id
    | .accountDeleted _ => False

def storedBy (env : StickerEnv) (call : UploadCall) (s : Db) : Option Sticker :=
  let operation := uploadStickerConn env.decode call.requesterId call.role call.input call.sticker
  if call.role = "admin" then (operation.run s).1.toOption
  else match ((Guild.runAttachmentActionWithGuild env.guild call.requesterId call.input.mimeType
      operation call.now call.activityAudit).run s).1 with
    | .ok (.completed created) => some created
    | _ => none

def reviewStatus (action : String) : Option String :=
  if action = "approve" then some "active"
  else if action = "reject" then some "rejected"
  else none

/-- What a request says about stickers, if it takes effect. -/
def StickerRequest.events (env : StickerEnv) : StickerRequest → Db → List StickerEvent
  | upload call, s =>
    match storedBy env call s with
    | some created => [.uploaded call.sticker ⟨call.requesterId, trim call.input.name,
        call.input.mimeType, trim call.input.contentBase64, created.sizeBytes⟩
        (if call.role = "admin" then "active" else "pending")]
    | none => []
  | moderate call, s =>
    match reviewStatus (trim call.action) with
    | some status =>
      if (s.stickers.get call.stickerId).isSome then [.reviewed call.stickerId status] else []
    | none => []
  | deleteAccount user, s => if s.userExists user then [.accountDeleted user] else []
  | _, _ => []

def stickerEvents (env : StickerEnv) : List StickerRequest → Db → List StickerEvent
  | [], _ => []
  | request :: requests, s =>
    request.events env s ++ stickerEvents env requests (request.apply env s)

/-! ## What one more event says -/

section
variable {events : List StickerEvent} {id id' : Uuid} {upload upload' : Upload}
  {status status' : String}

@[simp] theorem uploadHolds_uploaded :
    uploadRules.Holds (events ++ [.uploaded id' upload' status']) id upload ↔
      id' = id ∧ upload' = upload ∨ uploadRules.Holds events id upload ∧ id' ≠ id := by
  simp [LastWord.Rules.holds_concat, uploadRules]

@[simp] theorem uploadHolds_reviewed :
    uploadRules.Holds (events ++ [.reviewed id' status']) id upload ↔
      uploadRules.Holds events id upload := by
  simp [LastWord.Rules.holds_concat, uploadRules]

@[simp] theorem uploadHolds_accountDeleted {user : Uuid} :
    uploadRules.Holds (events ++ [.accountDeleted user]) id upload ↔
      uploadRules.Holds events id upload ∧ user ≠ upload.uploaderId := by
  simp [LastWord.Rules.holds_concat, uploadRules]

@[simp] theorem statusHolds_uploaded :
    statusRules.Holds (events ++ [.uploaded id' upload' status']) id status ↔
      id' = id ∧ status' = status ∨ statusRules.Holds events id status ∧ id' ≠ id := by
  simp [LastWord.Rules.holds_concat, statusRules]

@[simp] theorem statusHolds_reviewed :
    statusRules.Holds (events ++ [.reviewed id' status']) id status ↔
      id' = id ∧ status' = status ∨ statusRules.Holds events id status ∧ id' ≠ id := by
  simp [LastWord.Rules.holds_concat, statusRules]

@[simp] theorem statusHolds_accountDeleted {user : Uuid} :
    statusRules.Holds (events ++ [.accountDeleted user]) id status ↔
      statusRules.Holds events id status := by
  simp [LastWord.Rules.holds_concat, statusRules]

end

/-! ## The table says what was said last -/

def uploadOf (r : Sticker) : Upload :=
  ⟨r.uploaderId, r.name, r.mimeType, r.contentBase64, r.sizeBytes⟩

structure Cosmetic (g : Sticker → Sticker) : Prop where
  id : ∀ r, (g r).id = r.id
  upload : ∀ r, uploadOf (g r) = uploadOf r
  status : ∀ r, (g r).status = r.status

theorem Cosmetic.some {f : Sticker → Sticker} (h : Cosmetic f) (p : Sticker → Bool) :
    Cosmetic (fun r => if p r then f r else r) where
  id r := by by_cases hp : p r <;> simp [hp, h.id]
  upload r := by by_cases hp : p r <;> simp [hp, h.upload]
  status r := by by_cases hp : p r <;> simp [hp, h.status]

/-- A sticker after a review of the sticker `id`. -/
def reviewed (id : Uuid) (status : String) (r : Sticker) : Sticker :=
  if r.id = id then { r with status := status } else r

@[simp] theorem reviewed_id (id : Uuid) (status : String) (r : Sticker) :
    (reviewed id status r).id = r.id := by
  by_cases h : r.id = id <;> simp [reviewed, h]

@[simp] theorem uploadOf_reviewed (id : Uuid) (status : String) (r : Sticker) :
    uploadOf (reviewed id status r) = uploadOf r := by
  by_cases h : r.id = id <;> simp [reviewed, h, uploadOf]

@[simp] theorem reviewed_status (id : Uuid) (status : String) (r : Sticker) :
    (reviewed id status r).status = if r.id = id then status else r.status := by
  by_cases h : r.id = id <;> simp [reviewed, h]

theorem map_reviewed_missing {s : Db} {id : Uuid} (status : String)
    (h : s.stickers.get id = none) : s.stickers.rows.map (reviewed id status) = s.stickers.rows := by
  have hother : ∀ r ∈ s.stickers.rows, reviewed id status r = r := by
    intro r hr
    have hid : r.id ≠ id := fun hid => Table.get_eq_none.mp h (List.mem_map.mpr ⟨r, hr, hid⟩)
    exact if_neg hid
  exact (List.map_congr_left hother).trans (List.map_id' _)

/-- The stickers are what the events say. -/
structure Represents (rows : List Sticker) (events : List StickerEvent) : Prop where
  shown : ∀ id upload status,
    (∃ r ∈ rows, r.id = id ∧ uploadOf r = upload ∧ r.status = status) ↔
      uploadRules.Holds events id upload ∧ statusRules.Holds events id status
  decided : ∀ id upload, uploadRules.Holds events id upload →
    ∃ status, statusRules.Holds events id status

namespace Represents

theorem empty : Represents [] [] where
  shown id upload status := by simp [LastWord.Rules.not_holds_nil]
  decided id upload h := absurd h LastWord.Rules.not_holds_nil

variable {rows : List Sticker} {events : List StickerEvent}

theorem exists_iff (h : Represents rows events) (id : Uuid) (upload : Upload) :
    (∃ r ∈ rows, r.id = id ∧ uploadOf r = upload) ↔ uploadRules.Holds events id upload := by
  constructor
  · rintro ⟨r, hr, hid, hupload⟩
    exact ((h.shown id upload r.status).mp ⟨r, hr, hid, hupload, rfl⟩).1
  · intro hupload
    obtain ⟨status, hstatus⟩ := h.decided id upload hupload
    obtain ⟨r, hr, hid, hr', -⟩ := (h.shown id upload status).mpr ⟨hupload, hstatus⟩
    exact ⟨r, hr, hid, hr'⟩

theorem upload (h : Represents rows events) {new : Sticker} (hfresh : ∀ r ∈ rows, r.id ≠ new.id) :
    Represents (rows ++ [new]) (events ++ [.uploaded new.id (uploadOf new) new.status]) := by
  constructor
  · intro id upload status
    by_cases hid : new.id = id
    · subst hid
      have hold : ¬ ∃ r ∈ rows, r.id = new.id ∧ uploadOf r = upload ∧ r.status = status :=
        fun hr => hfresh _ hr.choose_spec.1 hr.choose_spec.2.1
      simp [or_and_right, exists_or, hold]
    · simp [or_and_right, exists_or, hid, h.shown]
  · intro id upload hupload
    by_cases hid : new.id = id
    · exact ⟨new.status, statusHolds_uploaded.mpr (.inl ⟨hid, rfl⟩)⟩
    · have hold : uploadRules.Holds events id upload := by simpa [hid] using hupload
      obtain ⟨status, hstatus⟩ := h.decided id upload hold
      exact ⟨status, statusHolds_uploaded.mpr (.inr ⟨hstatus, hid⟩)⟩

/-- A review changes the status of its sticker. -/
theorem review (h : Represents rows events) (id : Uuid) (status : String) :
    Represents (rows.map (reviewed id status)) (events ++ [.reviewed id status]) := by
  constructor
  · intro id' upload' status'
    rw [uploadHolds_reviewed, statusHolds_reviewed]
    simp only [List.mem_map, exists_exists_and_eq_and, reviewed_id, uploadOf_reviewed,
      reviewed_status]
    by_cases hid : id = id'
    · subst hid
      rw [← h.exists_iff]
      constructor
      · rintro ⟨r, hr, hid, hupload, hstatus⟩
        rw [if_pos hid] at hstatus
        exact ⟨⟨r, hr, hid, hupload⟩, .inl ⟨rfl, hstatus⟩⟩
      · rintro ⟨⟨r, hr, hid, hupload⟩, hstatus⟩
        exact ⟨r, hr, hid, hupload, by simpa [hid] using hstatus⟩
    · simp only [hid, false_and, false_or, ne_eq, not_false_eq_true, and_true, ← h.shown]
      refine exists_congr (fun r => and_congr_right (fun _ => and_congr_right (fun hr => ?_)))
      rw [if_neg (fun hsame => hid (hsame.symm.trans hr))]
  · intro id' upload' hupload
    rw [uploadHolds_reviewed] at hupload
    by_cases hid : id = id'
    · exact ⟨status, statusHolds_reviewed.mpr (.inl ⟨hid, rfl⟩)⟩
    · obtain ⟨status', hstatus⟩ := h.decided id' upload' hupload
      exact ⟨status', statusHolds_reviewed.mpr (.inr ⟨hstatus, hid⟩)⟩

theorem map (h : Represents rows events) {g : Sticker → Sticker} (hg : Cosmetic g) :
    Represents (rows.map g) events where
  shown id upload status := by simp [← h.shown, hg.id, hg.upload, hg.status]
  decided := h.decided

theorem deleteAccount (h : Represents rows events) (user : Uuid) :
    Represents (rows.filter (fun r => decide (r.uploaderId ≠ user)))
      (events ++ [.accountDeleted user]) := by
  constructor
  · intro id upload status
    rw [uploadHolds_accountDeleted, statusHolds_accountDeleted, and_right_comm, ← h.shown]
    simp only [List.mem_filter, decide_eq_true_eq]
    constructor
    · rintro ⟨r, ⟨hr, hother⟩, hid, rfl, hstatus⟩
      exact ⟨⟨r, hr, hid, rfl, hstatus⟩, Ne.symm hother⟩
    · rintro ⟨⟨r, hr, hid, rfl, hstatus⟩, hother⟩
      exact ⟨r, ⟨hr, Ne.symm hother⟩, hid, rfl, hstatus⟩
  · intro id upload hupload
    obtain ⟨status, hstatus⟩ := h.decided id upload (uploadHolds_accountDeleted.mp hupload).1
    exact ⟨status, statusHolds_accountDeleted.mpr hstatus⟩

end Represents

/-! ## What a request does to the stickers -/

section
variable {env : StickerEnv} {s s' : Db}

theorem keeps_recorded {α : Type} (row : AdminAuditLog) (answer : α) :
    (Guild.insertAuditLog row >>= fun _ => pure answer : Query α).Keeps Db.stickers :=
  Tx.keeps_bind (Guild.keeps_insertAuditLog (fun _ _ => rfl) _) (fun _ => Tx.keeps_pure _ _)

/-- The sticker of an upload is stored under a new id. -/
def Stores (call : UploadCall) (created : Option Sticker) (s s' : Db) : Prop :=
  (created = none ∧ s'.stickers = s.stickers) ∨
    ∃ size : Nat, created = some (uploaded call.requesterId call.role call.input call.sticker size) ∧
      s.stickers.insert (uploaded call.requesterId call.role call.input call.sticker size) =
        some s'.stickers

theorem Stores.keep {call : UploadCall} {created : Option Sticker} {s'' : Db}
    (h : Stores call created s s') (hkeep : s''.stickers = s'.stickers) :
    Stores call created s s'' := by
  unfold Stores at *
  rwa [hkeep]

theorem stores_uploadStickerConn (decode : String → Option (List UInt8)) (call : UploadCall)
    (s : Db) :
    Stores call ((uploadStickerConn decode call.requesterId call.role call.input call.sticker).run
        s).1.toOption s
      ((uploadStickerConn decode call.requesterId call.role call.input call.sticker).run s).2 := by
  rcases run_uploadStickerConn_cases decode call.requesterId call.role call.input call.sticker s
    with ⟨e, hrun⟩ | ⟨size, t, -, -, -, hinsert, hrun⟩
  · rw [hrun]
    exact .inl ⟨rfl, rfl⟩
  · rw [hrun]
    exact .inr ⟨size, rfl, hinsert⟩

theorem stores_upload (env : StickerEnv) (call : UploadCall) (s : Db) :
    Stores call (storedBy env call s) s ((StickerRequest.upload call).apply env s) := by
  have hoperation := stores_uploadStickerConn env.decode call
  simp only [StickerRequest.apply, upload, storedBy]
  by_cases hadmin : call.role = "admin"
  · rw [if_pos hadmin, if_pos hadmin]
    exact (hoperation s).keep (Tx.run_bind_keeps _ (fun created => keeps_recorded _ _) s)
  rw [if_neg hadmin, if_neg hadmin]
  rcases hrun : (Guild.runAttachmentActionWithGuild env.guild call.requesterId call.input.mimeType
    (uploadStickerConn env.decode call.requesterId call.role call.input call.sticker)
    call.now call.activityAudit).run s with ⟨e | result, d⟩
  · rw [Tx.run_bind_error ((Tx.run_asStatement _ _).trans (Tx.atomically_of_error hrun))]
    exact .inl ⟨rfl, rfl⟩
  rw [Tx.run_bind_ok ((Tx.run_asStatement _ _).trans (Tx.atomically_ok hrun))]
  obtain ⟨-, s₁, -, ⟨stats, logs, rfl, -⟩, hrest⟩ := Guild.run_humanOperation_parts hrun
  rcases Guild.run_attachmentActionChecked_ok hrest with
    ⟨rfl, rfl | rfl⟩ | ⟨-, value, s₂, rfl, hvalue, hincrement⟩
  · exact .inl ⟨rfl, (keeps_recorded _ _).run _⟩
  · exact .inl ⟨rfl, (keeps_recorded _ _).run _⟩
  · have hstores := hoperation { s with userGuildStats := stats, adminAuditLogs := logs }
    rw [hvalue] at hstores
    have hcounted : d.stickers = s₂.stickers :=
      (Guild.keeps_incrementDailyCounter (fun _ _ => rfl) _ _ _).of_run hincrement
    exact (hstores.keep hcounted).keep ((keeps_recorded _ _).run d)

theorem rows_updateSome (p : Sticker → Bool) (f : Sticker → Sticker) (hf : ∀ r, (f r).id = r.id)
    (s : Db) : ((updateSome p f hf).run s).2.stickers.rows =
      s.stickers.rows.map (fun r => if p r then f r else r) := by
  have hrest : ∀ n : Nat, (if n = 0 then throw .notFound else pure n : Query Nat).Keeps
      Db.stickers := by
    intro n
    by_cases hn : n = 0
    · rw [if_pos hn]
      exact Tx.keeps_throw _ _
    · rw [if_neg hn]
      exact Tx.keeps_pure _ _
  exact congrArg Table.rows (Tx.run_bind_keeps (updateStickers p f hf) hrest s)

/-- A review changes the status of its sticker, if its action gives one. -/
theorem rows_moderateSticker (id : Uuid) (action : String) (s : Db) :
    ((moderateSticker id action).run s).2.stickers.rows =
      match reviewStatus action with
      | some status => s.stickers.rows.map (reviewed id status)
      | none => s.stickers.rows := by
  unfold moderateSticker
  by_cases haction : action ≠ "approve" ∧ action ≠ "reject"
  · rw [if_pos haction]
    simp [reviewStatus, haction]
  have hstatus : reviewStatus action =
      some (if action = "approve" then "active" else "rejected") := by
    by_cases h : action = "approve"
    · simp [reviewStatus, h]
    · have hreject : action = "reject" := by simpa [h] using haction
      simp [reviewStatus, hreject]
  rw [if_neg haction, hstatus]
  dsimp only
  have hread : ∀ n : Nat, (do
      let found ← Tx.query (fun s => s.stickers.get id)
      let updated ← Tx.okOr (.database .notFound) found
      pure (.ofSticker updated) : Query StickerListItem).Keeps Db.stickers := fun _ =>
    Tx.keeps_bind (Tx.keeps_query _ _) (fun found =>
      Tx.keeps_bind (Tx.keeps_okOr _ _ _) (fun _ => Tx.keeps_pure _ _))
  rw [congrArg Table.rows (Tx.run_bind_keeps _ hread s), rows_updateSome]
  simp [reviewed]

theorem rows_moderate (env : Guild.Env) (call : ModerateCall) (s : Db) :
    ((moderate env call).run s).2.stickers.rows =
      match reviewStatus (trim call.action) with
      | some status => s.stickers.rows.map (reviewed call.stickerId status)
      | none => s.stickers.rows := by
  rw [← rows_moderateSticker, moderate]
  have hkeeps : ∀ updated, (reviewScore env call updated).Keeps Db.stickers := fun updated =>
    Tx.Keeps.asStatement (Admin.keeps_recordContributionEvent (fun _ _ => rfl) (fun _ _ => rfl)
      env _ _ _ _)
  refine congrArg Table.rows (Tx.run_bind_keeps _ (fun updated => ?_) s)
  exact Tx.keeps_bind (hkeeps updated) (fun score => keeps_recorded _ _)

def Cosmetics (s s' : Db) : Prop :=
  ∃ g, Cosmetic g ∧ s'.stickers.rows = s.stickers.rows.map g

theorem Cosmetics.of_eq (h : s'.stickers = s.stickers) : Cosmetics s s' :=
  ⟨fun r => r, ⟨fun _ => rfl, fun _ => rfl, fun _ => rfl⟩, by simp [h]⟩

theorem Cosmetics.bind {α β : Type} {q : Query α} {f : α → Query β} (h : Cosmetics s (q.run s).2)
    (hf : ∀ a, (f a).Keeps Db.stickers) : Cosmetics s ((q >>= f).run s).2 := by
  obtain ⟨g, hg, hrows⟩ := h
  exact ⟨g, hg, (congrArg Table.rows (Tx.run_bind_keeps q hf s)).trans hrows⟩

theorem cosmetics_updateSome {p : Sticker → Bool} {f : Sticker → Sticker}
    {hf : ∀ r, (f r).id = r.id} (h : Cosmetic f) (s : Db) :
    Cosmetics s ((updateSome p f hf).run s).2 :=
  ⟨_, h.some p, rows_updateSome p f hf s⟩

theorem cosmetics_renameGroup (admin audit : Uuid) (oldName newName : String) (s : Db) :
    Cosmetics s ((renameGroup admin audit oldName newName).run s).2 := by
  apply Cosmetics.bind
  · unfold renameStickerGroup
    dsimp only
    split
    · exact .of_eq rfl
    split
    · exact .of_eq rfl
    · apply cosmetics_updateSome
      exact ⟨fun _ => rfl, fun _ => rfl, fun _ => rfl⟩
  · exact fun affected => keeps_recorded _ _

theorem cosmetics_updateAuthor (admin audit : Uuid) (groupName : String) (author : Option String)
    (s : Db) : Cosmetics s ((updateAuthor admin audit groupName author).run s).2 := by
  apply Cosmetics.bind
  · unfold updateGroupAuthor
    dsimp only
    split
    · exact .of_eq rfl
    · apply Cosmetics.bind
      · apply cosmetics_updateSome
        exact ⟨fun _ => rfl, fun _ => rfl, fun _ => rfl⟩
      · exact fun _ => Tx.keeps_pure _ _
  · exact fun _ => keeps_recorded _ _

end

/-! ## Runs -/

section
variable {env : StickerEnv} {s : Db} {events : List StickerEvent}

/-- A request makes the table follow what it says. -/
theorem Represents.apply (h : Represents s.stickers.rows events) (request : StickerRequest) :
    Represents (request.apply env s).stickers.rows (events ++ request.events env s) := by
  have hcosmetics : ∀ {s'}, Cosmetics s s' → Represents s'.stickers.rows (events ++ []) := by
    rintro s' ⟨g, hg, hrows⟩
    rw [hrows, List.append_nil]
    exact h.map hg
  cases request with
  | upload call =>
    rcases stores_upload env call s with ⟨hnone, hkeep⟩ | ⟨size, hstored, hinsert⟩
    · simp only [StickerRequest.events, hnone]
      exact hcosmetics (.of_eq hkeep)
    · simp only [StickerRequest.events, hstored]
      rw [Table.rows_of_insert hinsert]
      have hfree := Table.get_eq_none.mp (Table.get_eq_none_of_insert hinsert)
      exact h.upload (fun r hr hid => hfree (List.mem_map.mpr ⟨r, hr, hid⟩))
  | moderate call =>
    simp only [StickerRequest.apply, StickerRequest.events, rows_moderate]
    rcases reviewStatus (trim call.action) with _ | status
    · exact hcosmetics (.of_eq rfl)
    rcases hget : s.stickers.get call.stickerId with _ | r
    · dsimp only
      rw [map_reviewed_missing status hget]
      exact hcosmetics (.of_eq rfl)
    · exact h.review call.stickerId status
  | updateAuthor admin audit groupName author =>
    exact hcosmetics (cosmetics_updateAuthor admin audit groupName author s)
  | renameGroup admin audit oldName newName =>
    exact hcosmetics (cosmetics_renameGroup admin audit oldName newName s)
  | deleteAccount user =>
    simp only [StickerRequest.apply, StickerRequest.events, Accounts.run_deleteUser]
    by_cases hexists : s.userExists user
    · rw [if_pos hexists, if_pos hexists]
      exact h.deleteAccount user
    · rw [if_neg hexists, if_neg hexists]
      exact hcosmetics (.of_eq rfl)
  | elsewhere db => exact hcosmetics (.of_eq rfl)

theorem Represents.run (h : Represents s.stickers.rows events) (requests : List StickerRequest) :
    Represents (afterStickerRequests env requests s).stickers.rows
      (events ++ stickerEvents env requests s) := by
  induction requests generalizing s events with
  | nil =>
    rw [stickerEvents, List.append_nil]
    exact h
  | cons request requests ih =>
    rw [stickerEvents, ← List.append_assoc]
    exact ih (h.apply request)

end

/-! ## What is shown -/

def StickerDetail.upload (d : StickerDetail) : Upload :=
  ⟨d.uploaderId, d.name, d.mimeType, d.contentBase64, d.sizeBytes⟩

def StickerDetail.item (d : StickerDetail) : StickerListItem :=
  ⟨d.id, d.uploaderId, d.groupName, d.name, d.mimeType, d.sizeBytes, d.status, d.groupAuthor⟩

section
variable {requester : Uuid} {role : String} {id : Uuid} {s : Db}

theorem run_getSticker : (getSticker requester role id).run s = (match s.stickers.get id with
    | none => .error .notFound
    | some r =>
      if canView requester role r.uploaderId r.status then .ok (.ofSticker r)
      else .error .forbidden, s) := by
  rw [getSticker, Tx.run_bind_ok (Tx.run_query _ _)]
  rcases s.stickers.get id with _ | r
  · rfl
  · rw [Tx.run_bind_ok (Tx.run_okOr _ _ _)]
    dsimp only
    split <;> rfl

theorem run_getSticker_ok {d : StickerDetail} :
    (getSticker requester role id).run s = (.ok d, s) ↔
      ∃ r ∈ s.stickers.rows, r.id = id ∧ canView requester role r.uploaderId r.status = true ∧
        StickerDetail.ofSticker r = d := by
  rw [run_getSticker]
  constructor
  · intro h
    rcases hget : s.stickers.get id with _ | r
    · simp [hget] at h
    · obtain ⟨hr, hid⟩ := Table.get_eq_some.mp hget
      by_cases hview : canView requester role r.uploaderId r.status
      · simp only [hget, hview, if_true, Prod.mk.injEq, Except.ok.injEq, and_true] at h
        exact ⟨r, hr, hid, hview, h⟩
      · simp [hget, hview] at h
  · rintro ⟨r, hr, hid, hview, rfl⟩
    simp [Table.get_eq_some.mpr ⟨hr, hid⟩, hview]

theorem run_getSticker_missing : (getSticker requester role id).run s = (.error .notFound, s) ↔
    s.stickers.get id = none := by
  rw [run_getSticker]
  rcases s.stickers.get id with _ | r
  · simp
  · by_cases hview : canView requester role r.uploaderId r.status <;> simp [hview]

end

/-- Somebody sees what the events say of a sticker, if it is active or their own or if they are an
administrator; and the list has what they see. -/
structure Shows (requester : Uuid) (role : String) (s : Db) (events : List StickerEvent) :
    Prop where
  detail : ∀ id upload status, (∃ d, (getSticker requester role id).run s = (.ok d, s) ∧
      d.id = id ∧ d.upload = upload ∧ d.status = status) ↔
    uploadRules.Holds events id upload ∧ statusRules.Holds events id status ∧
      canView requester role upload.uploaderId status = true
  missing : ∀ id, (getSticker requester role id).run s = (.error .notFound, s) ↔
    ∀ upload, ¬ uploadRules.Holds events id upload
  listed : ∀ times rows, DeliveredTo requester role ⟨s, times⟩ rows → ∀ item,
    item ∈ listStickers rows ↔
      ∃ d, (getSticker requester role item.id).run s = (.ok d, s) ∧ d.item = item
  once : ∀ times rows, DeliveredTo requester role ⟨s, times⟩ rows →
    ((listStickers rows).map StickerListItem.id).Nodup

theorem Represents.shows {s : Db} {events : List StickerEvent}
    (h : Represents s.stickers.rows events) (requester : Uuid) (role : String) :
    Shows requester role s events where
  detail id upload status := by
    rw [← and_assoc, ← h.shown]
    constructor
    · rintro ⟨d, hd, rfl, rfl, rfl⟩
      obtain ⟨r, hr, -, hview, rfl⟩ := run_getSticker_ok.mp hd
      exact ⟨⟨r, hr, rfl, rfl, rfl⟩, hview⟩
    · rintro ⟨⟨r, hr, rfl, rfl, rfl⟩, hview⟩
      exact ⟨.ofSticker r, run_getSticker_ok.mpr ⟨r, hr, rfl, hview, rfl⟩, rfl, rfl, rfl⟩
  missing id := by
    rw [run_getSticker_missing, Table.get_eq_none]
    simp only [← h.exists_iff]
    constructor
    · rintro hnone upload ⟨r, hr, hid, -⟩
      exact hnone (List.mem_map.mpr ⟨r, hr, hid⟩)
    · intro hnone hmem
      obtain ⟨r, hr, hid⟩ := List.mem_map.mp hmem
      exact hnone (uploadOf r) ⟨r, hr, hid, rfl⟩
  listed times rows hrows item := by
    have hmem : ∀ r, r ∈ rows ↔ r ∈ s.stickers.rows ∧
        canView requester role r.uploaderId r.status = true := fun r =>
      hrows.visible.mem_iff.trans List.mem_filter
    constructor
    · intro hitem
      obtain ⟨r, hr, rfl⟩ := List.mem_map.mp hitem
      obtain ⟨hr, hview⟩ := (hmem r).mp hr
      exact ⟨.ofSticker r, run_getSticker_ok.mpr ⟨r, hr, rfl, hview, rfl⟩, rfl⟩
    · rintro ⟨d, hd, rfl⟩
      obtain ⟨r, hr, -, hview, rfl⟩ := run_getSticker_ok.mp hd
      exact List.mem_map.mpr ⟨r, (hmem r).mpr ⟨hr, hview⟩, rfl⟩
  once times rows hrows := by
    have hids : (listStickers rows).map StickerListItem.id = rows.map Sticker.id := by
      simp [listStickers, StickerListItem.ofSticker, Function.comp_def]
    rw [hids, (hrows.visible.map Sticker.id).nodup_iff]
    exact (List.filter_sublist.map _).nodup s.stickers.keys_nodup

/-- From a server without stickers, whatever is asked for, a sticker is what was uploaded, it is
there until its uploader is deleted, and others see it if it was approved last. -/
theorem stickers_shown (env : StickerEnv) (db : Db) (requests : List StickerRequest)
    (requester : Uuid) (role : String) :
    let start : Db := { db with stickers := .empty }
    Shows requester role (afterStickerRequests env requests start)
      (stickerEvents env requests start) := by
  intro start
  exact (Represents.empty.run (s := start) requests).shows requester role

end SyncServer.Stickers
