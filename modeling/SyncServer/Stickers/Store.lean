import SyncServer.Stickers.Service

/-! # The sticker store

Four operations write stickers. Whatever is asked of them, one after another, no user gets over
the quotas and every sticker stays one that an upload would accept.
-/

namespace SyncServer.Stickers
open Transaction

/-- A sticker whose fields are what an upload accepts. -/
structure StickerValid (decode : String → Option (List UInt8)) (r : Sticker) : Prop where
  name_trimmed : trim r.name = r.name
  name_size : 1 ≤ r.name.utf8ByteSize ∧ r.name.utf8ByteSize ≤ 80
  group_trimmed : trim r.groupName = r.groupName
  group_size : 1 ≤ r.groupName.utf8ByteSize ∧ r.groupName.utf8ByteSize ≤ 40
  mime : r.mimeType ∈ allowedMimeTypes
  content : ∃ decoded, decode r.contentBase64 = some decoded ∧ r.sizeBytes = decoded.length
  size : 1 ≤ r.sizeBytes ∧ r.sizeBytes ≤ maxStickerSizeBytes
  author : r.groupAuthor.isSome = true → r.name = "__tab__"

def stickersOf (u : Uuid) (rows : List Sticker) : List Sticker :=
  rows.filter (fun r => r.uploaderId = u)

/-- All stickers are valid, and all users within their quotas. -/
structure StoreValid (decode : String → Option (List UInt8)) (rows : List Sticker) : Prop where
  stickers : ∀ r ∈ rows, StickerValid decode r
  count : ∀ u, (stickersOf u rows).length ≤ maxStickersPerUser
  bytes : ∀ u, ((stickersOf u rows).map Sticker.sizeBytes).sum ≤ maxTotalBytesPerUser

variable {decode : String → Option (List UInt8)} {s : Db}

/-! ## Uploads -/

/-- What the checks of an upload leave. -/
structure UploadAccepted (decode : String → Option (List UInt8)) (input : UploadStickerInput)
    (size : Nat) : Prop where
  name : trim input.name ≠ "" ∧ (trim input.name).utf8ByteSize ≤ 80
  group : trim input.groupName ≠ "" ∧ (trim input.groupName).utf8ByteSize ≤ 40
  mime : input.mimeType ∈ allowedMimeTypes
  content : ∃ decoded, decode (trim input.contentBase64) = some decoded ∧ decoded.length = size
  size : 1 ≤ size ∧ size ≤ maxStickerSizeBytes

theorem checkUpload_ok {input : UploadStickerInput} {size : Nat}
    (h : checkUpload decode input = .ok size) : UploadAccepted decode input size := by
  simp only [checkUpload, require_bind_eq_ok, decide_eq_true_eq] at h
  obtain ⟨hname, hgroup, hmime, h⟩ := h
  rcases hdecode : decode (trim input.contentBase64) with _ | decoded
  · rw [hdecode] at h
    cases h
  · rw [hdecode] at h
    simp only [require_bind_eq_ok, decide_eq_true_eq] at h
    obtain ⟨⟨hne, hle⟩, h⟩ := h
    cases h
    exact ⟨hname, hgroup, hmime, ⟨decoded, hdecode, rfl⟩, List.length_pos_iff.mpr hne, hle⟩

def uploaded (uploader : Uuid) (role : String) (input : UploadStickerInput) (id : Uuid)
    (size : Nat) : Sticker where
  id := id
  uploaderId := uploader
  groupName := trim input.groupName
  name := trim input.name
  mimeType := input.mimeType
  contentBase64 := trim input.contentBase64
  sizeBytes := size
  status := if role = "admin" then "active" else "pending"
  groupAuthor := groupAuthorOf input

theorem run_insertSticker_cases (row : Sticker) (s : Db) :
    (∃ e, (insertSticker row).run s = (.error e, s)) ∨
      ∃ t, s.stickers.insert row = some t ∧
        (insertSticker row).run s = (.ok (), { s with stickers := t }) := by
  unfold insertSticker
  rcases Query.run_exec_cases _ _ s with he | ⟨u, s', hs, hrun⟩
  · exact .inl he
  refine .inr ?_
  split at hs
  · cases hs
  rename_i t ht
  split at hs
  · cases hs
  split at hs
  · cases hs
  split at hs
  · cases hs
  cases hs
  exact ⟨t, ht, hrun⟩

/-- An upload is refused and nothing changes, or its sticker is added within the quotas. -/
theorem run_uploadStickerConn_cases (decode : String → Option (List UInt8)) (uploader : Uuid)
    (role : String) (input : UploadStickerInput) (id : Uuid) (s : Db) :
    (∃ e, (uploadStickerConn decode uploader role input id).run s = (.error e, s)) ∨
      ∃ size t, UploadAccepted decode input size ∧
        (stickersOf uploader s.stickers.rows).length < maxStickersPerUser ∧
        ((stickersOf uploader s.stickers.rows).map Sticker.sizeBytes).sum + size ≤
          maxTotalBytesPerUser ∧
        s.stickers.insert (uploaded uploader role input id size) = some t ∧
        (uploadStickerConn decode uploader role input id).run s =
          (.ok (uploaded uploader role input id size), { s with stickers := t }) := by
  unfold uploadStickerConn
  rcases hcheck : checkUpload decode input with e | size
  · exact .inl ⟨e, rfl⟩
  rw [Tx.run_bind_ok (Tx.run_done _ _), Tx.run_bind_ok (Tx.run_query _ _)]
  split
  · exact .inl ⟨_, rfl⟩
  rename_i hcount
  rw [Tx.run_bind_ok (Tx.run_query _ _)]
  split
  · exact .inl ⟨_, rfl⟩
  rename_i hbytes
  rcases run_insertSticker_cases (uploaded uploader role input id size) s with
    ⟨e, he⟩ | ⟨t, ht, hrun⟩
  · exact .inl ⟨e, Tx.run_bind_error he _⟩
  · refine .inr ⟨size, t, checkUpload_ok hcheck, ?_, not_lt.mp hbytes, ht, ?_⟩
    · rw [stickersOf, ← List.countP_eq_length_filter]
      exact not_le.mp hcount
    · refine (Tx.run_bind_ok hrun _).trans ?_
      rw [Tx.run_bind_ok (Tx.run_query _ _), Tx.run_okOr]
      have hget : t.get id = some (uploaded uploader role input id size) :=
        Table.get_insert_self ht
      simp only [hget]
      rfl

theorem one_le_utf8ByteSize {t : String} (h : t ≠ "") : 1 ≤ t.utf8ByteSize :=
  Nat.one_le_iff_ne_zero.mpr (fun hzero => h (String.utf8ByteSize_eq_zero_iff.mp hzero))

theorem UploadAccepted.valid {input : UploadStickerInput} {size : Nat}
    (h : UploadAccepted decode input size) (uploader : Uuid) (role : String) (id : Uuid) :
    StickerValid decode (uploaded uploader role input id size) := by
  obtain ⟨decoded, hdecode, hlength⟩ := h.content
  refine ⟨trim_trim _, ⟨one_le_utf8ByteSize h.name.1, h.name.2⟩, trim_trim _, ⟨one_le_utf8ByteSize h.group.1, h.group.2⟩,
    h.mime, ⟨decoded, hdecode, ?_⟩, ?_, ?_⟩
  · rw [hlength]
    rfl
  · exact ⟨Int.ofNat_le.mpr h.size.1, Int.ofNat_le.mpr h.size.2⟩
  · intro hauthor
    by_contra hname
    have hnone : groupAuthorOf input = none := if_neg hname
    rw [uploaded, hnone] at hauthor
    cases hauthor

theorem StoreValid.upload {uploader : Uuid} {role : String} {input : UploadStickerInput}
    {id : Uuid} {size : Nat} {rows : List Sticker} (h : StoreValid decode rows)
    (haccepted : UploadAccepted decode input size)
    (hcount : (stickersOf uploader rows).length < maxStickersPerUser)
    (hbytes : ((stickersOf uploader rows).map Sticker.sizeBytes).sum + size ≤
      maxTotalBytesPerUser) :
    StoreValid decode (rows ++ [uploaded uploader role input id size]) := by
  have hsplit : ∀ u, stickersOf u (rows ++ [uploaded uploader role input id size]) =
      stickersOf u rows ++ if uploader = u then [uploaded uploader role input id size] else [] := by
    intro u
    rw [stickersOf, List.filter_append]
    by_cases hu : uploader = u <;> simp [stickersOf, uploaded, hu]
  refine ⟨?_, fun u => ?_, fun u => ?_⟩
  · intro r hr
    rcases List.mem_append.mp hr with hr | hr
    · exact h.stickers r hr
    · rw [List.mem_singleton.mp hr]
      exact haccepted.valid uploader role id
  · rw [hsplit]
    by_cases hu : uploader = u
    · subst hu
      rw [if_pos rfl, List.length_append, List.length_singleton]
      exact hcount
    · simpa [hu] using h.count u
  · rw [hsplit]
    by_cases hu : uploader = u
    · subst hu
      simpa [uploaded] using hbytes
    · simpa [hu] using h.bytes u

/-! ## Updates -/

theorem StoreValid.map {rows : List Sticker} (h : StoreValid decode rows) {g : Sticker → Sticker}
    (howner : ∀ r, (g r).uploaderId = r.uploaderId) (hsize : ∀ r, (g r).sizeBytes = r.sizeBytes)
    (hvalid : ∀ r, StickerValid decode r → StickerValid decode (g r)) :
    StoreValid decode (rows.map g) := by
  have hof : ∀ u, stickersOf u (rows.map g) = (stickersOf u rows).map g := by
    intro u
    rw [stickersOf, List.filter_map, stickersOf]
    congr 1
    exact List.filter_congr (fun r _ => by simp [howner])
  refine ⟨?_, fun u => ?_, fun u => ?_⟩
  · intro r' hmap
    obtain ⟨r, hr, rfl⟩ := List.mem_map.mp hmap
    exact hvalid r (h.stickers r hr)
  · rw [hof, List.length_map]
    exact h.count u
  · rw [hof, List.map_map, show Sticker.sizeBytes ∘ g = Sticker.sizeBytes from funext hsize]
    exact h.bytes u

/-- An update of some stickers finds none and changes nothing, or changes them all. -/
theorem run_updateSome_cases (p : Sticker → Bool) (f : Sticker → Sticker)
    (hf : ∀ r, (f r).id = r.id) (s : Db) :
    (updateSome p f hf).run s = (.error .notFound, s) ∨
      ∃ n t, (updateSome p f hf).run s = (.ok n, { s with stickers := t }) ∧
        t.rows = s.stickers.rows.map (fun r => if p r then f r else r) ∧
        ∃ r ∈ s.stickers.rows, p r = true := by
  have hupdate : (updateStickers p f hf).run s = (.ok (s.stickers.rows.countP p),
      { s with stickers := s.stickers.map (fun r => if p r then f r else r) (by
          intro r
          split
          · exact hf r
          · rfl) }) := Query.run_exec_ok.mpr rfl
  unfold updateSome
  rw [Tx.run_bind_ok hupdate]
  by_cases hnone : s.stickers.rows.countP p = 0
  · left
    rw [if_pos hnone]
    refine Prod.ext rfl (congrArg (fun t => { s with stickers := t }) (Table.ext ?_))
    rw [List.countP_eq_zero] at hnone
    refine (List.map_congr_left (fun r hr => ?_)).trans (List.map_id _)
    rw [if_neg (hnone r hr)]
    rfl
  · right
    rw [if_neg hnone]
    refine ⟨_, _, rfl, rfl, ?_⟩
    simpa [List.countP_eq_zero] using hnone

theorem run_moderateSticker_cases (id : Uuid) (action : String) (s : Db) :
    (∃ e, (moderateSticker id action).run s = (.error e, s)) ∨
      ∃ item t status, (moderateSticker id action).run s = (.ok item, { s with stickers := t }) ∧
        t.rows = s.stickers.rows.map
          (fun r => if decide (r.id = id) then { r with status := status } else r) := by
  unfold moderateSticker
  split
  · exact .inl ⟨_, rfl⟩
  dsimp only
  generalize (if action = "approve" then "active" else "rejected" : String) = status
  rcases run_updateSome_cases (fun r => r.id = id) (fun r => { r with status := status })
    (fun _ => rfl) s with he | ⟨n, t, hrun, hrows, r, hr, hid⟩
  · exact .inl ⟨_, Tx.run_bind_error he _⟩
  · have hfound : t.get id = some { r with status := status } := by
      refine Table.get_eq_some.mpr ⟨?_, of_decide_eq_true hid⟩
      rw [hrows]
      exact List.mem_map.mpr ⟨r, hr, if_pos hid⟩
    refine .inr ⟨.ofSticker { r with status := status }, t, status, ?_, hrows⟩
    rw [Tx.run_bind_ok hrun, Tx.run_bind_ok (Tx.run_query _ _)]
    simp only [hfound]
    rfl

/-! ## The operations -/

/-- What writes stickers, each with what it is asked for and what is drawn for it. -/
inductive StickerOp where
  | upload (uploader : Uuid) (role : String) (input : UploadStickerInput) (id : Uuid)
  | moderate (id : Uuid) (action : String)
  | renameGroup (oldName newName : String)
  | updateGroupAuthor (groupName : String) (author : Option String)

namespace StickerOp

def call (decode : String → Option (List UInt8)) : StickerOp → Query Unit
  | upload uploader role input id => do
    let _ ← uploadStickerConn decode uploader role input id
    pure ()
  | moderate id action => do
    let _ ← moderateSticker id action
    pure ()
  | renameGroup oldName newName => do
    let _ ← renameStickerGroup oldName newName
    pure ()
  | updateGroupAuthor groupName author => Stickers.updateGroupAuthor groupName author

def apply (decode : String → Option (List UInt8)) (op : StickerOp) (s : Db) : Db :=
  ((op.call decode).run s).2

end StickerOp

/-- An operation fails and nothing changes, or it succeeds and the store stays valid. -/
structure Sound (decode : String → Option (List UInt8)) (q : Query Unit) : Prop where
  error : ∀ s e s', q.run s = (.error e, s') → s' = s
  ok : ∀ s s', q.run s = (.ok (), s') → StoreValid decode s.stickers.rows →
    StoreValid decode s'.stickers.rows

theorem Sound.of_cases {q : Query Unit} (h : ∀ s, (∃ e, q.run s = (.error e, s)) ∨
    ∃ s', q.run s = (.ok (), s') ∧
      (StoreValid decode s.stickers.rows → StoreValid decode s'.stickers.rows)) :
    Sound decode q := by
  constructor
  · intro s e s' hrun
    rcases h s with ⟨e', he⟩ | ⟨s₁, hok, -⟩
    · exact (Prod.mk.inj (hrun.symm.trans he)).2
    · cases hrun.symm.trans hok
  · intro s s' hrun hvalid
    rcases h s with ⟨e', he⟩ | ⟨s₁, hok, hkeep⟩
    · cases hrun.symm.trans he
    · rw [(Prod.mk.inj (hrun.symm.trans hok)).2]
      exact hkeep hvalid

theorem sound_upload (uploader : Uuid) (role : String) (input : UploadStickerInput) (id : Uuid) :
    Sound decode ((StickerOp.upload uploader role input id).call decode) := by
  refine .of_cases (fun s => ?_)
  unfold StickerOp.call
  rcases run_uploadStickerConn_cases decode uploader role input id s with
    ⟨e, he⟩ | ⟨size, t, haccepted, hcount, hbytes, ht, hrun⟩
  · exact .inl ⟨e, Tx.run_bind_error he _⟩
  · refine .inr ⟨_, Tx.run_bind_ok hrun _, fun h => ?_⟩
    change StoreValid decode t.rows
    rw [Table.rows_of_insert ht]
    exact h.upload haccepted hcount hbytes

theorem sound_moderate (id : Uuid) (action : String) :
    Sound decode ((StickerOp.moderate id action).call decode) := by
  refine .of_cases (fun s => ?_)
  unfold StickerOp.call
  rcases run_moderateSticker_cases id action s with ⟨e, he⟩ | ⟨item, t, status, hrun, hrows⟩
  · exact .inl ⟨e, Tx.run_bind_error he _⟩
  · refine .inr ⟨_, Tx.run_bind_ok hrun _, fun h => ?_⟩
    change StoreValid decode t.rows
    rw [hrows]
    refine h.map (fun r => by split <;> rfl) (fun r => by split <;> rfl) (fun r hr => ?_)
    split
    · exact { hr with }
    · exact hr

theorem sound_renameGroup (oldName newName : String) :
    Sound decode ((StickerOp.renameGroup oldName newName).call decode) := by
  refine .of_cases (fun s => ?_)
  unfold StickerOp.call renameStickerGroup
  dsimp only
  split
  · exact .inl ⟨_, Tx.run_bind_error (Tx.run_throw _ _) _⟩
  rename_i hnames
  split
  · exact .inl ⟨_, Tx.run_bind_error (Tx.run_throw _ _) _⟩
  rename_i hsize
  rcases run_updateSome_cases (fun r => r.groupName = trim oldName)
    (fun r => { r with groupName := trim newName }) (fun _ => rfl) s with
    he | ⟨n, t, hrun, hrows, -⟩
  · exact .inl ⟨_, Tx.run_bind_error he _⟩
  · refine .inr ⟨_, Tx.run_bind_ok hrun _, fun h => ?_⟩
    change StoreValid decode t.rows
    rw [hrows]
    refine h.map (fun r => by split <;> rfl) (fun r => by split <;> rfl) (fun r hr => ?_)
    split
    · exact { hr with
        group_trimmed := trim_trim _
        group_size := ⟨one_le_utf8ByteSize (not_or.mp hnames).2, not_lt.mp hsize⟩ }
    · exact hr

theorem sound_updateGroupAuthor (groupName : String) (author : Option String) :
    Sound decode ((StickerOp.updateGroupAuthor groupName author).call decode) := by
  refine .of_cases (fun s => ?_)
  unfold StickerOp.call updateGroupAuthor
  dsimp only
  split
  · exact .inl ⟨_, Tx.run_throw _ _⟩
  rcases run_updateSome_cases (fun r => r.groupName = trim groupName && r.name = "__tab__")
    (fun r => { r with groupAuthor := (author.map trim).filter (· ≠ "") }) (fun _ => rfl) s with
    he | ⟨n, t, hrun, hrows, -⟩
  · exact .inl ⟨_, Tx.run_bind_error he _⟩
  · refine .inr ⟨_, Tx.run_bind_ok hrun _, fun h => ?_⟩
    change StoreValid decode t.rows
    rw [hrows]
    refine h.map (fun r => by split <;> rfl) (fun r => by split <;> rfl) (fun r hr => ?_)
    split
    · rename_i htab
      simp only [Bool.and_eq_true, decide_eq_true_eq] at htab
      exact { hr with author := fun _ => htab.2 }
    · exact hr

theorem StickerOp.sound (op : StickerOp) : Sound decode (op.call decode) := by
  cases op with
  | upload uploader role input id => exact sound_upload uploader role input id
  | moderate id action => exact sound_moderate id action
  | renameGroup oldName newName => exact sound_renameGroup oldName newName
  | updateGroupAuthor groupName author => exact sound_updateGroupAuthor groupName author

/-- One operation after another. -/
def runStickers (decode : String → Option (List UInt8)) (ops : List StickerOp) (s : Db) : Db :=
  ops.foldl (fun s op => op.apply decode s) s

theorem StoreValid.apply (op : StickerOp) (h : StoreValid decode s.stickers.rows) :
    StoreValid decode (op.apply decode s).stickers.rows := by
  have hsound : Sound decode (op.call decode) := op.sound
  rcases hrun : (op.call decode).run s with ⟨e | u, s'⟩
  · rw [StickerOp.apply, hrun, hsound.error s e s' hrun]
    exact h
  · rw [StickerOp.apply, hrun]
    exact hsound.ok s s' hrun h

theorem StoreValid.run (ops : List StickerOp) (h : StoreValid decode s.stickers.rows) :
    StoreValid decode (runStickers decode ops s).stickers.rows := by
  induction ops generalizing s with
  | nil => exact h
  | cons op ops ih => exact ih (h.apply op)

theorem StoreValid.empty : StoreValid decode [] :=
  ⟨by simp, fun _ => Nat.zero_le _, fun _ => (by decide : (0 : Int) ≤ maxTotalBytesPerUser)⟩

/-- From a server without stickers, whatever is asked for and whoever asks, the store stays valid,
and a call that returns an error leaves everything as it was. -/
theorem sticker_store_valid (decode : String → Option (List UInt8)) (s : Db)
    (hempty : s.stickers = .empty) (ops : List StickerOp) :
    StoreValid decode (runStickers decode ops s).stickers.rows ∧
      ∀ (op : StickerOp) (e : AppError) (s' : Db),
        (op.call decode).run (runStickers decode ops s) = (.error e, s') →
          s' = runStickers decode ops s := by
  refine ⟨StoreValid.run ops ?_, fun op => op.sound.error _⟩
  rw [hempty]
  exact .empty

/-! ## An example -/

/-- A server with one account. -/
def oneUploader : Db :=
  { Db.empty with users := .single ⟨1, "alice", "alice@example.org", "", none, none, none, "user",
      true, none, true, none, 0, none⟩ }

/-- A decoder for texts of four letters, which stand for three bytes. -/
def decodeFour (text : String) : Option (List UInt8) :=
  if text.toList.length = 4 then some [0, 0, 0] else none

/-- An upload, its approval, and a new name and an author for its group. -/
def stickerCalls : List StickerOp :=
  [.upload 1 "user" ⟨" cats ", "__tab__", "image/png", "AAAA", none⟩ 7, .moderate 7 "approve",
    .renameGroup "cats" "dogs", .updateGroupAuthor "dogs" (some "Alice")]

theorem sticker_store_valid_cats :
    StoreValid decodeFour (runStickers decodeFour stickerCalls oneUploader).stickers.rows ∧
      ∀ (op : StickerOp) (e : AppError) (s' : Db),
        (op.call decodeFour).run (runStickers decodeFour stickerCalls oneUploader) =
          (.error e, s') → s' = runStickers decodeFour stickerCalls oneUploader :=
  sticker_store_valid decodeFour oneUploader rfl stickerCalls

example : (runStickers decodeFour stickerCalls oneUploader).stickers.rows =
    [⟨7, 1, "dogs", "__tab__", "image/png", "AAAA", 3, "active", some "Alice"⟩] := by
  decide

end SyncServer.Stickers
