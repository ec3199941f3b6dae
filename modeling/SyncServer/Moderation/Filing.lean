import SyncServer.Accounts.Deletion
import SyncServer.Moderation.Reviews

/-! # Filing of reports

Users report what others have written, and a block is reported too. Whatever has been filed can
be reviewed: the reported user exists, and the content is named in a way that the review reads.
-/

namespace SyncServer.Moderation
open Transaction

/-! ## Fields -/

structure ReportInput where
  reportedUserId : Uuid
  source : String
  contentKind : String
  contentId : Option String
  reasonCode : String
  reporterNote : Option String
  contentExcerptOverride : Option String
deriving DecidableEq, Repr

/-- `normalize_report_source`. -/
def normalizeReportSource (raw : String) : Except AppError String :=
  if trim raw ∈ ["user_report", "block_action"] then .ok (trim raw)
  else .error (.badRequest "Invalid report source")

def contentKinds : List String := ["user_profile", "direct_message", "room_message"]

/-- `normalize_content_kind`. -/
def normalizeContentKind (raw : String) : Except AppError String :=
  if trim raw ∈ contentKinds then .ok (trim raw)
  else .error (.badRequest "Invalid report content kind")

/-- `normalize_reason_code`. -/
def normalizeReasonCode (raw : Option String) (fallback : String) : String :=
  (raw.bind (fun value => normalizeOptionalText (some value))).getD fallback

/-- `normalize_report_excerpt`. -/
def normalizeReportExcerpt (raw : Option String) : Option String :=
  (normalizeOptionalText raw).map (fun normalized =>
    if normalized.toList.length ≤ 2000 then normalized
    else String.ofList (normalized.toList.take 2000) ++ "...")

def contentUuid (env : ReviewEnv) (contentKind : String) (contentId : Option String) :
    Except AppError Uuid :=
  match contentId with
  | none => .error (.badRequest ("content_id is required for " ++ contentKind ++ " reports"))
  | some rawId =>
    match env.parseUuid rawId with
    | none => .error (.badRequest "content_id must be a UUID")
    | some messageId => .ok messageId

def quoted (reportedUserId senderId : Uuid) (deletedAt : Option Int) (content : String) :
    Except AppError (Option String) :=
  if senderId ≠ reportedUserId ∨ deletedAt.isSome then .error .notFound else .ok (some content)

/-- `content_excerpt_conn`. -/
def contentExcerptConn (env : ReviewEnv) (reportedUserId : Uuid) (contentKind : String)
    (contentId : Option String) : Query (Option String) :=
  if contentKind = "user_profile" then do
    let found ← Accounts.findById reportedUserId
    let user ← Tx.okOr .notFound found
    pure (some (trim ("username: " ++ user.username ++ "\ndescription: " ++
      user.description.getD "")))
  else if contentKind = "direct_message" then do
    let messageId ← Tx.done (contentUuid env contentKind contentId)
    let found ← Tx.query (fun s => s.messages.get messageId)
    let message ← Tx.okOr .notFound found
    Tx.done (quoted reportedUserId message.senderId message.deletedAt message.content)
  else if contentKind = "room_message" then do
    let messageId ← Tx.done (contentUuid env contentKind contentId)
    let found ← Tx.query (fun s => s.roomMessages.get messageId)
    let message ← Tx.okOr .notFound found
    Tx.done (quoted reportedUserId message.senderId message.deletedAt message.content)
  else throw (.badRequest "Unsupported report content kind")

/-! ## Reports and blocks -/

structure NewReport where
  id : Uuid
  now : Int
deriving DecidableEq, Repr

/-- An open report, due after a day. -/
def ReportInput.row (input : ReportInput) (reporterUserId : Uuid) (new : NewReport)
    (source contentKind : String) (excerpt : Option String) : ModerationReport where
  id := new.id
  reporterUserId := reporterUserId
  reportedUserId := input.reportedUserId
  source := source
  contentKind := contentKind
  contentId := normalizeOptionalText input.contentId
  reasonCode := normalizeReasonCode (some input.reasonCode) "other"
  reporterNote := normalizeOptionalText input.reporterNote
  contentExcerpt := (normalizeReportExcerpt input.contentExcerptOverride).or excerpt
  status := reportStatusOpen
  resolutionAction := none
  resolutionNotes := none
  reviewDueAt := new.now + Duration.days 1
  reviewedByUserId := none
  reviewedAt := none
  createdAt := new.now

/-- `INSERT INTO moderation_reports`. -/
def addReport (row : ModerationReport) (s : Db) : Except DbError (ModerationReport × Db) :=
  if row.source ∉ ["user_report", "block_action"] ∨ row.contentKind ∉ contentKinds then
    .error .checkViolation
  else match s.moderationReports.insert row with
    | none => .error .uniqueViolation
    | some t =>
      if s.userExists row.reporterUserId ∧ s.userExists row.reportedUserId then
        .ok (row, { s with moderationReports := t })
      else .error .foreignKeyViolation

/-- `create_report_conn`. -/
def createReportConn (env : ReviewEnv) (reporterUserId : Uuid) (input : ReportInput)
    (new : NewReport) : Query ModerationReport :=
  if reporterUserId = input.reportedUserId then
    throw (.badRequest "You cannot report your own account")
  else do
    let found ← Accounts.findById input.reportedUserId
    let _ ← Tx.okOr .notFound found
    let source ← Tx.done (normalizeReportSource input.source)
    let contentKind ← Tx.done (normalizeContentKind input.contentKind)
    let excerpt ← contentExcerptConn env input.reportedUserId contentKind
      (normalizeOptionalText input.contentId)
    Query.exec (fun _ => []) (addReport (input.row reporterUserId new source contentKind excerpt))

structure BlockedUserView where
  userId : Uuid
  username : String
  avatarBase64 : Option String
  blockedAt : Int
deriving DecidableEq, Repr

def addBlock (row : UserBlock) (s : Db) : Except DbError (Unit × Db) :=
  if row.blockerUserId = row.blockedUserId then .error .checkViolation
  else match s.userBlocks.insert row with
    | none => .error .uniqueViolation
    | some t =>
      if s.userExists row.blockerUserId ∧ s.userExists row.blockedUserId then
        .ok ((), { s with userBlocks := t })
      else .error .foreignKeyViolation

/-- The report of a block. -/
def blockReport (blockedUserId : Uuid) (reasonCode reporterNote : Option String) :
    ReportInput where
  reportedUserId := blockedUserId
  source := "block_action"
  contentKind := "user_profile"
  contentId := none
  reasonCode := normalizeReasonCode reasonCode "abusive_user"
  reporterNote := normalizeOptionalText reporterNote
  contentExcerptOverride := none

/-- Report and block a user, unless she is blocked already. -/
def reportAndBlock (env : ReviewEnv) (blockerUserId blockedUserId : Uuid)
    (reasonCode reporterNote : Option String) (new : NewReport) : Query Unit := do
  let existsAlready ← Tx.query (fun s => (s.userBlocks.get (blockerUserId, blockedUserId)).isSome)
  if existsAlready then pure ()
  else do
    let _ ← createReportConn env blockerUserId
      (blockReport blockedUserId reasonCode reporterNote) new
    Query.exec (fun _ => []) (addBlock ⟨blockerUserId, blockedUserId⟩)

/-- `block_user`. -/
def blockUser (env : ReviewEnv) (blockerUserId blockedUserId : Uuid)
    (reasonCode reporterNote : Option String) (new : NewReport) (blockedAt : Int) :
    Query BlockedUserView :=
  if blockerUserId = blockedUserId then throw (.badRequest "You cannot block your own account")
  else do
    let found ← Accounts.findById blockedUserId
    let blockedUser ← Tx.okOr .notFound found
    reportAndBlock env blockerUserId blockedUserId reasonCode reporterNote new
    pure ⟨blockedUser.id, blockedUser.username, blockedUser.avatarBase64, blockedAt⟩

/-- `unblock_user`. -/
def unblockUser (blockerUserId blockedUserId : Uuid) : Query Unit :=
  Query.exec (fun _ => []) (fun s => .ok ((), { s with
    userBlocks := s.userBlocks.filter
      (fun r => decide (r.key ≠ (blockerUserId, blockedUserId))) }))

/-! ## What has been filed can be reviewed -/

structure Reviewable (env : ReviewEnv) (d : Db) (report : ModerationReport) : Prop where
  user : d.userExists report.reportedUserId
  content : ∃ content, reportedContent env report = .ok content

def AllReviewable (env : ReviewEnv) (d : Db) : Prop :=
  ∀ r ∈ d.moderationReports.rows, Reviewable env d r

section
variable {env : ReviewEnv} {d d' : Db}

theorem AllReviewable.of_stands (h : AllReviewable env d) (hstands : Stands d d') :
    AllReviewable env d' := by
  intro r' hr'
  have hfiled := hstands.reports r'.id
  rw [Table.get_eq_some.mpr ⟨hr', rfl⟩] at hfiled
  obtain ⟨r, hr, hsame⟩ := Option.map_eq_some_iff.mp hfiled.symm
  have hreview := h r (Table.get_eq_some.mp hr).1
  have huser : (filed r).reportedUserId = (filed r').reportedUserId := by rw [hsame]
  constructor
  · change (d'.users.get (filed r').reportedUserId).isSome
    rw [hstands.users, ← huser]
    exact hreview.user
  · change ∃ content, reportedContent env (filed r') = .ok content
    rw [← hsame]
    exact hreview.content

theorem keeps_contentExcerptConn {τ : Type} {π : Db → τ} (reportedUserId : Uuid)
    (contentKind : String) (contentId : Option String) :
    (contentExcerptConn env reportedUserId contentKind contentId).Keeps π := by
  unfold contentExcerptConn
  split
  · refine Tx.keeps_bind (Tx.keeps_query _ _) (fun found => ?_)
    exact Tx.keeps_bind (Tx.keeps_okOr _ _ found) (fun _ => trivial)
  split
  · refine Tx.keeps_bind (Tx.keeps_done _ _) (fun messageId => ?_)
    refine Tx.keeps_bind (Tx.keeps_query _ _) (fun found => ?_)
    exact Tx.keeps_bind (Tx.keeps_okOr _ _ found) (fun _ => trivial)
  split
  · refine Tx.keeps_bind (Tx.keeps_done _ _) (fun messageId => ?_)
    refine Tx.keeps_bind (Tx.keeps_query _ _) (fun found => ?_)
    exact Tx.keeps_bind (Tx.keeps_okOr _ _ found) (fun _ => trivial)
  · trivial

theorem run_contentExcerptConn_ok {reportedUserId : Uuid} {contentKind : String}
    {contentId excerpt : Option String} {s s' : Db}
    (h : (contentExcerptConn env reportedUserId contentKind contentId).run s =
      (.ok excerpt, s')) :
    contentKind = "user_profile" ∨ (contentKind = "direct_message" ∨ contentKind = "room_message") ∧
      ∃ messageId, contentUuid env contentKind contentId = .ok messageId := by
  unfold contentExcerptConn at h
  split at h
  · exact .inl ‹_›
  split at h
  · obtain ⟨messageId, _, hid, -⟩ := Tx.run_bind_eq_ok h
    exact .inr ⟨.inl ‹_›, messageId, (Prod.mk.inj hid).1⟩
  split at h
  · obtain ⟨messageId, _, hid, -⟩ := Tx.run_bind_eq_ok h
    exact .inr ⟨.inr ‹_›, messageId, (Prod.mk.inj hid).1⟩
  · cases h

theorem reportedMessage_of_contentUuid {contentKind : String} {report : ModerationReport}
    {messageId : Uuid} (h : contentUuid env contentKind report.contentId = .ok messageId) :
    reportedMessage env report = .ok messageId := by
  unfold contentUuid at h
  unfold reportedMessage
  generalize report.contentId = contentId at h ⊢
  cases contentId with
  | none => cases h
  | some rawId =>
    dsimp only at h ⊢
    generalize env.parseUuid rawId = parsed at h ⊢
    cases parsed <;> cases h
    rfl

theorem addReport_ok {row r : ModerationReport} {s s' : Db} (h : addReport row s = .ok (r, s')) :
    r = row ∧ s.userExists row.reportedUserId ∧
      ∃ t, s.moderationReports.insert row = some t ∧ s' = { s with moderationReports := t } := by
  unfold addReport at h
  split at h
  · cases h
  split at h
  · cases h
  rename_i t ht
  split at h
  · rename_i hexists
    cases h
    exact ⟨rfl, hexists.2, t, ht, rfl⟩
  · cases h

theorem addBlock_ok {row : UserBlock} {s s' : Db} (h : addBlock row s = .ok ((), s')) :
    ∃ t, s' = { s with userBlocks := t } := by
  unfold addBlock at h
  split at h
  · cases h
  split at h
  · cases h
  rename_i t ht
  split at h
  · cases h
    exact ⟨t, rfl⟩
  · cases h

theorem run_createReportConn_filed {reporterUserId : Uuid} {input : ReportInput} {new : NewReport}
    {row : ModerationReport} {s s' : Db}
    (h : (createReportConn env reporterUserId input new).run s = (.ok row, s')) :
    ∃ source contentKind excerpt, normalizeReportSource input.source = .ok source ∧
      normalizeContentKind input.contentKind = .ok contentKind ∧
      (contentExcerptConn env input.reportedUserId contentKind
        (normalizeOptionalText input.contentId)).run s = (.ok excerpt, s) ∧
      row = input.row reporterUserId new source contentKind excerpt ∧
      s.userExists row.reportedUserId ∧
      ∃ t, s.moderationReports.insert row = some t ∧ s' = { s with moderationReports := t } := by
  unfold createReportConn at h
  split at h
  · cases h
  rw [Accounts.findById, Tx.run_bind_ok (Tx.run_query _ _)] at h
  obtain ⟨user, s₁, huser, h₁⟩ := Tx.run_bind_eq_ok h
  obtain rfl : s₁ = s := (Tx.run_okOr_ok.mp huser).2
  obtain ⟨source, hsource, h₂⟩ := Tx.run_done_bind_eq_ok.mp h₁
  obtain ⟨contentKind, hkind, h₃⟩ := Tx.run_done_bind_eq_ok.mp h₂
  obtain ⟨excerpt, s₂, hexcerpt, h₄⟩ := Tx.run_bind_eq_ok h₃
  obtain rfl : s₂ = s₁ := Tx.Keeps.of_run (π := id) (keeps_contentExcerptConn _ _ _) hexcerpt
  obtain ⟨rfl, hexists, t, hins, rfl⟩ := addReport_ok (Query.run_exec_ok.mp h₄)
  exact ⟨source, contentKind, excerpt, hsource, hkind, hexcerpt, rfl, hexists, t, hins, rfl⟩

theorem run_createReportConn_ok {reporterUserId : Uuid} {input : ReportInput} {new : NewReport}
    {row : ModerationReport} {s s' : Db}
    (h : (createReportConn env reporterUserId input new).run s = (.ok row, s')) :
    ∃ t, s.moderationReports.insert row = some t ∧ s' = { s with moderationReports := t } ∧
      Reviewable env s row := by
  obtain ⟨source, contentKind, excerpt, -, -, hexcerpt, rfl, hexists, t, hins, rfl⟩ :=
    run_createReportConn_filed h
  refine ⟨t, hins, rfl, hexists, ?_⟩
  rcases run_contentExcerptConn_ok hexcerpt with rfl | ⟨hmessage, messageId, hid⟩
  · exact ⟨_, rfl⟩
  · have hread : reportedMessage env (input.row reporterUserId new source contentKind excerpt) =
        .ok messageId := reportedMessage_of_contentUuid hid
    unfold reportedContent
    rcases hmessage with rfl | rfl
    · exact ⟨.directMessage messageId, by rw [hread]; rfl⟩
    · exact ⟨.roomMessage messageId, by rw [hread]; rfl⟩

theorem run_blockUser_ok {blockerUserId blockedUserId : Uuid}
    {reasonCode reporterNote : Option String} {new : NewReport} {blockedAt : Int}
    {view : BlockedUserView} {s s' : Db}
    (h : (blockUser env blockerUserId blockedUserId reasonCode reporterNote new blockedAt).run s =
      (.ok view, s')) :
    (s.userBlocks.get (blockerUserId, blockedUserId)).isSome = true ∧ s' = s ∨
      ∃ row s₁ t, (createReportConn env blockerUserId
        (blockReport blockedUserId reasonCode reporterNote) new).run s = (.ok row, s₁) ∧
        s' = { s₁ with userBlocks := t } := by
  unfold blockUser at h
  split at h
  · cases h
  rw [Accounts.findById, Tx.run_bind_ok (Tx.run_query _ _)] at h
  obtain ⟨user, s₁, huser, h₁⟩ := Tx.run_bind_eq_ok h
  obtain rfl : s₁ = s := (Tx.run_okOr_ok.mp huser).2
  obtain ⟨⟨⟩, s₂, hreport, hpure⟩ := Tx.run_bind_eq_ok h₁
  obtain rfl : s₂ = s' := (Prod.mk.inj hpure).2
  rw [reportAndBlock, Tx.run_bind_ok (Tx.run_query _ _)] at hreport
  split at hreport
  · rename_i hblocked
    exact .inl ⟨hblocked, (Prod.mk.inj hreport).2.symm⟩
  · obtain ⟨row, s₃, hfiled, hblock⟩ := Tx.run_bind_eq_ok hreport
    obtain ⟨t, rfl⟩ := addBlock_ok (Query.run_exec_ok.mp hblock)
    exact .inr ⟨row, s₃, t, hfiled, rfl⟩

/-! ## What reviews write -/

theorem stands_onlyIf {condition : Bool} {t : Query Unit}
    (h : t.Writes (fun w => ∀ d, Stands d (w d))) :
    (onlyIf condition t).Writes (fun w => ∀ d, Stands d (w d)) := by
  unfold onlyIf
  split
  · exact h
  · trivial

theorem stands_updateUser (id : Uuid) (f : User → User) (hf : ∀ r, (f r).id = r.id) :
    (updateUser id f hf).Writes (fun w => ∀ d, Stands d (w d)) := by
  refine Query.writes_exec Stands.refl (fun d _ d' h => ?_)
  cases h
  exact stands_updateUsers d id f hf

theorem stands_delete (content : ReportedContent) (deletedAt : Int) :
    (content.delete deletedAt).Writes (fun w => ∀ d, Stands d (w d)) := by
  cases content with
  | userProfile user => exact stands_updateUser user _ _
  | directMessage id =>
    refine Query.writes_exec Stands.refl (fun d _ d' h => ?_)
    cases h
    exact ⟨fun _ => rfl, fun _ => rfl⟩
  | roomMessage id =>
    refine Query.writes_exec Stands.refl (fun d _ d' h => ?_)
    cases h
    exact ⟨fun _ => rfl, fun _ => rfl⟩

-- what a review writes is read off its statements, without running it
attribute [local irreducible] Tx.Writes

theorem stands_resolveReportConn (report : ModerationReport) (reviewer : Option Uuid)
    (action : String) (notes : Option String) (times : ReviewTimes) :
    (resolveReportConn env report reviewer action notes times).Writes
      (fun w => ∀ d, Stands d (w d)) := by
  refine Tx.writes_bind (Tx.writes_done _ _) (fun action => ?_)
  refine Tx.writes_bind (stands_onlyIf ?_) (fun _ => ?_)
  · exact Tx.writes_bind (Tx.writes_done _ _) (fun content => stands_delete content _)
  refine Tx.writes_bind (stands_onlyIf ?_) (fun _ => ?_)
  · refine Tx.writes_bind (Tx.writes_query Stands.refl _) (fun found => ?_)
    refine Tx.writes_bind (Tx.writes_okOr _ _ found) (fun user => ?_)
    exact stands_updateUser _ _ _
  refine Tx.writes_bind (stands_onlyIf (stands_updateUser _ _ _)) (fun _ => ?_)
  refine Query.writes_exec Stands.refl (fun d _ d' h => ?_)
  split at h
  · cases h
  split at h
  · cases h
    exact stands_marking _ _ d
  · cases h

theorem stands_resolveReport (env : ReviewEnv) (reportId reviewer : Uuid) (action : String)
    (notes : Option String) (times : ReviewTimes) :
    (resolveReport env reportId reviewer action notes times).Writes
      (fun w => ∀ d, Stands d (w d)) := by
  refine Tx.writes_bind (Tx.writes_query Stands.refl _) (fun found => ?_)
  refine Tx.writes_bind (Tx.writes_okOr _ _ found) (fun report => ?_)
  split
  · exact Tx.writes_done _ _
  refine Tx.writes_bind (stands_resolveReportConn report _ _ _ _) (fun updated => ?_)
  refine Tx.writes_bind ?_ (fun views => Tx.writes_okOr _ _ _)
  unfold reportsToAdminViews
  split
  · exact Tx.writes_done _ _
  · exact Tx.writes_query Stands.refl _

theorem stands_reviewAll (reports : List ModerationReport) (times : Uuid → ReviewTimes)
    (rest : List ModerationReport) :
    (reviewAll env reports times rest).Writes (fun w => ∀ d, Stands d (w d)) := by
  induction rest with
  | nil => exact Tx.writes_done _ _
  | cons report rest ih =>
    rw [reviewAll]
    generalize automaticDecision env reports report = decision
    refine Tx.writes_bind (stands_resolveReportConn report _ _ _ _) (fun updated => ?_)
    exact Tx.writes_bind ih (fun reviewed => Tx.writes_done _ _)

theorem stands_runAutomaticReviewPass (env : ReviewEnv) (now : Int) (times : Uuid → ReviewTimes) :
    (runAutomaticReviewPass env now times).Writes (fun w => ∀ d, Stands d (w d)) := by
  unfold runAutomaticReviewPass reviewOverdue
  refine Tx.writes_bind (Tx.writes_bind (Tx.writes_query Stands.refl _) (fun reports => ?_))
    (fun reviewed => Tx.writes_done _ _)
  exact stands_reviewAll reports times reports

end

/-! ## Runs -/

/-- The calls that file and review reports, and that delete accounts and messages. -/
inductive ModerationCall where
  | createReport (reporterUserId : Uuid) (input : ReportInput) (new : NewReport)
  | blockUser (blockerUserId blockedUserId : Uuid) (reasonCode reporterNote : Option String)
      (new : NewReport) (blockedAt : Int)
  | unblockUser (blockerUserId blockedUserId : Uuid)
  | resolveReport (reportId reviewedByUserId : Uuid) (resolutionAction : String)
      (resolutionNotes : Option String) (times : ReviewTimes)
  | automaticReview (now : Int) (times : Uuid → ReviewTimes)
  /-- Whatever is deleted, or written, of the messages. -/
  | messages (direct : Table Uuid Message Message.id) (inRooms : Table Uuid RoomMessage RoomMessage.id)
  | deleteUser (userId : Uuid)

/-- The database after a call; reports are filed and reviewed in transactions. -/
def ModerationCall.serve (env : ReviewEnv) (d : Db) : ModerationCall → Db
  | createReport reporterUserId input new =>
    ((createReportConn env reporterUserId input new).atomically d).2
  | blockUser blockerUserId blockedUserId reasonCode reporterNote new blockedAt =>
    ((Moderation.blockUser env blockerUserId blockedUserId reasonCode reporterNote new
      blockedAt).atomically d).2
  | unblockUser blockerUserId blockedUserId =>
    ((Moderation.unblockUser blockerUserId blockedUserId).run d).2
  | resolveReport reportId reviewedByUserId resolutionAction resolutionNotes times =>
    ((Moderation.resolveReport env reportId reviewedByUserId resolutionAction resolutionNotes
      times).atomically d).2
  | automaticReview now times => ((runAutomaticReviewPass env now times).atomically d).2
  | messages direct inRooms => { d with messages := direct, roomMessages := inRooms }
  | deleteUser userId => ((Accounts.deleteUser userId).run d).2

def runModeration (env : ReviewEnv) (d : Db) (calls : List ModerationCall) : Db :=
  calls.foldl (ModerationCall.serve env) d

section
variable {env : ReviewEnv} {d d' : Db}

theorem AllReviewable.atomically {α : Type} {q : Query α} (h : AllReviewable env d)
    (hq : ∀ a d', q.run d = (.ok a, d') → AllReviewable env d') :
    AllReviewable env (q.atomically d).2 := by
  rcases Tx.atomically_snd_cases q d with ⟨a, ha⟩ | hsame
  · exact hq a _ ha
  · rwa [hsame]

theorem AllReviewable.insert (h : AllReviewable env d) {row : ModerationReport}
    {t : Table Uuid ModerationReport ModerationReport.id} (hrow : Reviewable env d row)
    (hins : d.moderationReports.insert row = some t) :
    AllReviewable env { d with moderationReports := t } := by
  intro r hr
  have hr : r ∈ t.rows := hr
  rw [Table.rows_of_insert hins, List.mem_append, List.mem_singleton] at hr
  rcases hr with hr | rfl
  · exact ⟨(h r hr).user, (h r hr).content⟩
  · exact ⟨hrow.user, hrow.content⟩

theorem AllReviewable.createReportConn (h : AllReviewable env d) {reporterUserId : Uuid}
    {input : ReportInput} {new : NewReport} {row : ModerationReport}
    (hrun : (createReportConn env reporterUserId input new).run d = (.ok row, d')) :
    AllReviewable env d' := by
  obtain ⟨t, hins, rfl, hrow⟩ := run_createReportConn_ok hrun
  exact h.insert hrow hins

theorem AllReviewable.blockUser (h : AllReviewable env d) {blockerUserId blockedUserId : Uuid}
    {reasonCode reporterNote : Option String} {new : NewReport} {blockedAt : Int}
    {view : BlockedUserView} (hrun : (Moderation.blockUser env blockerUserId blockedUserId
      reasonCode reporterNote new blockedAt).run d = (.ok view, d')) : AllReviewable env d' := by
  obtain ⟨-, rfl⟩ | ⟨row, d₁, t, hfiled, rfl⟩ := run_blockUser_ok hrun
  · exact h
  · have hfiled := h.createReportConn hfiled
    exact fun r hr => ⟨(hfiled r hr).user, (hfiled r hr).content⟩

theorem AllReviewable.deleteUser (h : AllReviewable env d) (userId : Uuid) :
    AllReviewable env ((Accounts.deleteUser userId).run d).2 := by
  rw [Accounts.run_deleteUser]
  split
  · intro r hr
    obtain ⟨r₀, hr₀, rfl⟩ := List.mem_map.mp hr
    obtain ⟨hmem, hkept⟩ := List.mem_filter.mp hr₀
    have hother : r₀.reportedUserId ≠ userId := (of_decide_eq_true hkept).2
    constructor
    · change ((d.users.filter (fun u => decide (u.id ≠ userId))).get r₀.reportedUserId).isSome
      rw [Table.get_filter_of_key d.users (fun u hu => by simpa [hu] using hother)]
      exact (h r₀ hmem).user
    · exact (h r₀ hmem).content
  · exact h

theorem AllReviewable.serve (h : AllReviewable env d) (call : ModerationCall) :
    AllReviewable env (call.serve env d) := by
  unfold ModerationCall.serve
  cases call with
  | createReport reporterUserId input new =>
    exact h.atomically (fun row d' hrun => h.createReportConn hrun)
  | blockUser blockerUserId blockedUserId reasonCode reporterNote new blockedAt =>
    exact h.atomically (fun view d' hrun => h.blockUser hrun)
  | unblockUser blockerUserId blockedUserId =>
    exact fun r hr => ⟨(h r hr).user, (h r hr).content⟩
  | resolveReport reportId reviewer action notes times =>
    refine h.atomically (fun view d' hrun => h.of_stands ?_)
    have := Tx.Writes.rel Stands.refl Stands.trans
      (stands_resolveReport env reportId reviewer action notes times) d
    rwa [hrun] at this
  | automaticReview now times =>
    refine h.atomically (fun count d' hrun => h.of_stands ?_)
    have := Tx.Writes.rel Stands.refl Stands.trans
      (stands_runAutomaticReviewPass env now times) d
    rwa [hrun] at this
  | messages direct inRooms => exact fun r hr => ⟨(h r hr).user, (h r hr).content⟩
  | deleteUser userId => exact h.deleteUser userId

theorem AllReviewable.run (h : AllReviewable env d) (calls : List ModerationCall) :
    AllReviewable env (runModeration env d calls) := by
  induction calls generalizing d with
  | nil => exact h
  | cons call calls ih => exact ih (h.serve call)

end

end SyncServer.Moderation
