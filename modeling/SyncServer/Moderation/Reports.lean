import Mathlib.Data.List.Sort
import SyncServer.Accounts.Users
import SyncServer.Base.Clock
import SyncServer.Moderation.Text

/-! # Reviews of reports

An administrator resolves a report, or an automatic pass resolves all the reports that are
overdue. Both read the status of a report first, and set it last.
-/

namespace SyncServer.Moderation
open Transaction

/-- The libraries that reviews depend on. -/
structure ReviewEnv where
  unicode : Unicode
  parseUuid : String → Option Uuid

def reportStatusOpen : String := "open"

def reportStatusResolved : String := "resolved"

def reportStatusDismissed : String := "dismissed"

inductive ResolutionAction where
  | dismiss
  | removeContent
  | removeAndLimitNewDms
  | suspendUser
  | removeAndSuspend
deriving DecidableEq, Repr

def ResolutionAction.text : ResolutionAction → String
  | .dismiss => "dismiss"
  | .removeContent => "remove_content"
  | .removeAndLimitNewDms => "remove_content_and_limit_new_direct_messages"
  | .suspendUser => "suspend_user"
  | .removeAndSuspend => "remove_content_and_suspend_user"

/-- `normalize_resolution_action`. -/
def normalizeResolutionAction (raw : String) : Except AppError ResolutionAction :=
  let found := [ResolutionAction.dismiss, .removeContent, .removeAndLimitNewDms, .suspendUser,
    .removeAndSuspend].find? (fun action => action.text = trim raw)
  match found with
  | some action => .ok action
  | none => .error (.badRequest ("action must be one of dismiss, remove_content, " ++
      "remove_content_and_limit_new_direct_messages, suspend_user, " ++
      "remove_content_and_suspend_user"))

def ResolutionAction.removesContent : ResolutionAction → Bool
  | .removeContent | .removeAndLimitNewDms | .removeAndSuspend => true
  | _ => false

def ResolutionAction.suspends : ResolutionAction → Bool
  | .suspendUser | .removeAndSuspend => true
  | _ => false

def ResolutionAction.nextStatus : ResolutionAction → String
  | .dismiss => reportStatusDismissed
  | _ => reportStatusResolved

/-- `normalize_optional_text`. -/
def normalizeOptionalText (raw : Option String) : Option String :=
  (raw.map trim).filter (· ≠ "")

/-! ## Statements -/

def onlyIf (condition : Bool) (t : Query Unit) : Query Unit := if condition then t else pure ()

/-- `UPDATE users SET .. WHERE id = ..`. -/
def updateUser (id : Uuid) (f : User → User) (hf : ∀ r, (f r).id = r.id) : Query Unit :=
  Query.exec (fun s => if (s.users.get id).isSome then [.user id] else [])
    (fun s => .ok ((), { s with users := s.users.update id f hf }))

def clearedProfile (r : User) : User := { r with avatarBase64 := none, description := none }

theorem clearedProfile_id (r : User) : (clearedProfile r).id = r.id := rfl

def dmRestricted (until_ warnings : Int) (r : User) : User :=
  { r with dmRestrictedUntil := some until_, safetyWarningCount := warnings }

theorem dmRestricted_id (until_ warnings : Int) (r : User) :
    (dmRestricted until_ warnings r).id = r.id := rfl

def deletedMessage (deletedAt : Int) (r : Message) : Message :=
  { r with deletedAt := some deletedAt }

theorem deletedMessage_id (deletedAt : Int) (r : Message) :
    (deletedMessage deletedAt r).id = r.id := rfl

def deletedRoomMessage (deletedAt : Int) (r : RoomMessage) : RoomMessage :=
  { r with deletedAt := some deletedAt }

theorem deletedRoomMessage_id (deletedAt : Int) (r : RoomMessage) :
    (deletedRoomMessage deletedAt r).id = r.id := rfl

/-- What a report is about. -/
inductive ReportedContent where
  | userProfile (user : Uuid)
  | directMessage (message : Uuid)
  | roomMessage (message : Uuid)
deriving DecidableEq, Repr

def reportedMessage (env : ReviewEnv) (report : ModerationReport) : Except AppError Uuid :=
  match report.contentId with
  | none => .error (.badRequest "Report content_id is missing")
  | some contentId =>
    match env.parseUuid contentId with
    | none => .error (.badRequest "Report content_id is invalid")
    | some messageId => .ok messageId

def reportedContent (env : ReviewEnv) (report : ModerationReport) :
    Except AppError ReportedContent :=
  if report.contentKind = "user_profile" then .ok (.userProfile report.reportedUserId)
  else if report.contentKind = "direct_message" then
    (reportedMessage env report).map .directMessage
  else if report.contentKind = "room_message" then (reportedMessage env report).map .roomMessage
  else .error (.badRequest "Unsupported report content kind")

/-- The `UPDATE` that removes a content. -/
def ReportedContent.delete (deletedAt : Int) : ReportedContent → Query Unit
  | .userProfile user => updateUser user clearedProfile clearedProfile_id
  | .directMessage id =>
    Query.exec (fun s => if (s.messages.get id).isSome then [.message id] else []) (fun s =>
      let t := s.messages.update id (deletedMessage deletedAt) (deletedMessage_id deletedAt)
      .ok ((), { s with messages := t }))
  | .roomMessage id =>
    Query.exec (fun s => if (s.roomMessages.get id).isSome then [.roomMessage id] else []) (fun s =>
      let t := s.roomMessages.update id (deletedRoomMessage deletedAt)
        (deletedRoomMessage_id deletedAt)
      .ok ((), { s with roomMessages := t }))

/-- `remove_reported_content_conn`. -/
def removeReportedContentConn (env : ReviewEnv) (report : ModerationReport) (deletedAt : Int) :
    Query Unit := do
  let content ← Tx.done (reportedContent env report)
  content.delete deletedAt

def moderatorDmRestrictionDays : Int := 7

def effectiveUntil (user : User) (now : Int) : Int :=
  let restrictionUntil := now + Duration.days moderatorDmRestrictionDays
  match user.dmRestrictedUntil with
  | some current => if restrictionUntil < current then current else restrictionUntil
  | none => restrictionUntil

theorem restricted_id (warned : User) (now : Int) (r : User) :
    (dmRestricted (effectiveUntil warned now) (i32 (warned.safetyWarningCount + 1)) r).id = r.id :=
  rfl

/-- `apply_temporary_dm_restriction_conn`. -/
def applyTemporaryDmRestrictionConn (userId : Uuid) (now : Int) : Query Unit := do
  let found ← Accounts.findById userId
  let user ← Tx.okOr .notFound found
  updateUser userId (dmRestricted (effectiveUntil user now) (i32 (user.safetyWarningCount + 1)))
    (dmRestricted_id _ _)

/-- The columns that a review sets. -/
structure Resolution where
  action : ResolutionAction
  notes : Option String
  reviewer : Option Uuid
  reviewedAt : Int
deriving DecidableEq, Repr

def Resolution.mark (resolution : Resolution) (r : ModerationReport) : ModerationReport :=
  { r with
    status := resolution.action.nextStatus
    resolutionAction := some resolution.action.text
    resolutionNotes := resolution.notes
    reviewedByUserId := resolution.reviewer
    reviewedAt := some resolution.reviewedAt }

theorem Resolution.mark_id (resolution : Resolution) (r : ModerationReport) :
    (resolution.mark r).id = r.id := rfl

/-- `UPDATE moderation_reports SET .. WHERE id = .. RETURNING *`. -/
def markReport (id : Uuid) (resolution : Resolution) : Query ModerationReport :=
  Query.exec
    (fun s => if (s.moderationReports.get id).isSome then [.moderationReport id] else [])
    (fun s =>
      match s.moderationReports.get id with
      | none => .error .notFound
      | some r =>
        if resolution.reviewer.all (fun reviewer => decide (s.userExists reviewer)) then
          let t := s.moderationReports.update id resolution.mark resolution.mark_id
          .ok (resolution.mark r, { s with moderationReports := t })
        else .error .foreignKeyViolation)

/-! ## Reviews -/

/-- The readings of the clock of one review. -/
structure ReviewTimes where
  deletedAt : Int
  restrictedAt : Int
  reviewedAt : Int
deriving DecidableEq, Repr

/-- `resolve_report_conn`. -/
def resolveReportConn (env : ReviewEnv) (report : ModerationReport) (reviewedByUserId : Option Uuid)
    (resolutionAction : String) (resolutionNotes : Option String) (times : ReviewTimes) :
    Query ModerationReport := do
  let action ← Tx.done (normalizeResolutionAction resolutionAction)
  onlyIf action.removesContent (removeReportedContentConn env report times.deletedAt)
  onlyIf (action = .removeAndLimitNewDms)
    (applyTemporaryDmRestrictionConn report.reportedUserId times.restrictedAt)
  onlyIf action.suspends
    (updateUser report.reportedUserId Accounts.deactivated Accounts.deactivated_id)
  markReport report.id
    ⟨action, normalizeOptionalText resolutionNotes, reviewedByUserId, times.reviewedAt⟩

structure AdminModerationReportView where
  report : ModerationReport
  reporterUsername : String
  reportedUsername : String
deriving DecidableEq, Repr

def usernameOrId (s : Db) (id : Uuid) : String :=
  ((s.users.get id).map User.username).getD (uuidString id)

/-- `reports_to_admin_views`. -/
def reportsToAdminViews (reports : List ModerationReport) :
    Query (List AdminModerationReportView) :=
  if reports = [] then pure []
  else Tx.query (fun s => reports.map (fun report =>
    ⟨report, usernameOrId s report.reporterUserId, usernameOrId s report.reportedUserId⟩))

/-- `resolve_report`. -/
def resolveReport (env : ReviewEnv) (reportId reviewedByUserId : Uuid) (resolutionAction : String)
    (resolutionNotes : Option String) (times : ReviewTimes) : Query AdminModerationReportView := do
  let found ← Tx.query (fun s => s.moderationReports.get reportId)
  let report ← Tx.okOr .notFound found
  if report.status ≠ reportStatusOpen then
    throw (.conflict "Report has already been reviewed")
  else do
    let updated ← resolveReportConn env report (some reviewedByUserId) resolutionAction
      resolutionNotes times
    let views ← reportsToAdminViews [updated]
    Tx.okOr .notFound views.getLast?

/-! ## The automatic pass -/

/-- The reports that are open at `now` and due, the oldest first. -/
def overdueReports (s : Db) (now : Int) : List ModerationReport :=
  (s.moderationReports.rows.filter (fun r =>
    decide (r.status = reportStatusOpen ∧ r.reviewDueAt ≤ now))).insertionSort
      (fun a b => a.createdAt ≤ b.createdAt)

def automaticDecision (env : ReviewEnv) (reports : List ModerationReport)
    (report : ModerationReport) : ResolutionAction × String :=
  let highRisk := (report.contentExcerpt.bind (detectBlockedTerm env.unicode)).isSome
  let userOverdueCount := reports.countP (fun r => r.reportedUserId = report.reportedUserId)
  if highRisk || decide (3 ≤ userOverdueCount) then
    (.removeAndSuspend, "Automatic moderation: overdue report escalated by high-risk content " ++
      "or repeat offense")
  else
    (.removeAndLimitNewDms, "Automatic moderation: overdue report content removed and new " ++
      "direct messages limited for follow-up")

/-- The loop of `run_automatic_review_pass`. -/
def reviewAll (env : ReviewEnv) (reports : List ModerationReport) (times : Uuid → ReviewTimes) :
    List ModerationReport → Query (List ModerationReport)
  | [] => pure []
  | report :: rest => do
    let (action, notes) := automaticDecision env reports report
    let updated ← resolveReportConn env report none action.text (some notes) (times report.id)
    let reviewed ← reviewAll env reports times rest
    pure (updated :: reviewed)

/-- The reports that `run_automatic_review_pass` reviews. -/
def reviewOverdue (env : ReviewEnv) (now : Int) (times : Uuid → ReviewTimes) :
    Query (List ModerationReport) := do
  let reports ← Tx.query (fun s => overdueReports s now)
  reviewAll env reports times reports

/-- `run_automatic_review_pass`. -/
def runAutomaticReviewPass (env : ReviewEnv) (now : Int) (times : Uuid → ReviewTimes) :
    Query Nat := do
  let reviewed ← reviewOverdue env now times
  pure reviewed.length

end SyncServer.Moderation
