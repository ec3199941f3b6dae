import Mathlib.Data.List.Pairwise
import SyncServer.Moderation.Reports
import SyncServer.Transaction.Interference

/-! # One review for each report

Administrators and the automatic pass review reports at the same time. No statement locks a
report between the check of its status and the update of it, so two reviews of one report
may both be carried out. They are not if each review finds its reports still open when it
commits.
-/

namespace SyncServer.Moderation
open Transaction ReadCommitted

/-! ## What a review writes -/

def ReportedContent.remove (deletedAt : Int) (s : Db) : ReportedContent → Db
  | .userProfile user =>
    { s with users := s.users.update user clearedProfile clearedProfile_id }
  | .directMessage id =>
    let t := s.messages.update id (deletedMessage deletedAt) (deletedMessage_id deletedAt)
    { s with messages := t }
  | .roomMessage id =>
    let t := s.roomMessages.update id (deletedRoomMessage deletedAt)
      (deletedRoomMessage_id deletedAt)
    { s with roomMessages := t }

def removal (env : ReviewEnv) (report : ModerationReport) (action : ResolutionAction)
    (deletedAt : Int) (s : Db) : Db :=
  match action.removesContent, reportedContent env report with
  | true, .ok content => content.remove deletedAt s
  | _, _ => s

/-- The restriction and the warning of a user whose row was read as `warned`. -/
def restriction (user : Uuid) (warned : Option User) (restrictedAt : Int) (s : Db) : Db :=
  match warned with
  | none => s
  | some r =>
    let restricted := dmRestricted (effectiveUntil r restrictedAt) (i32 (r.safetyWarningCount + 1))
    { s with users := s.users.update user restricted (restricted_id r restrictedAt) }

def suspension (user : Uuid) (action : ResolutionAction) (s : Db) : Db :=
  if action.suspends then
    { s with users := s.users.update user Accounts.deactivated Accounts.deactivated_id }
  else s

def marking (id : Uuid) (resolution : Resolution) (s : Db) : Db :=
  { s with
    moderationReports := s.moderationReports.update id resolution.mark resolution.mark_id }

/-- A review: the open report and the row of the warned user as they were read, and what
the review decides. -/
structure Review (env : ReviewEnv) where
  report : ModerationReport
  resolution : Resolution
  times : ReviewTimes
  warned : Option User
  isOpen : report.status = reportStatusOpen
  removable : resolution.action.removesContent = true →
    ∃ content, reportedContent env report = .ok content
  warns : warned.isSome = decide (resolution.action = .removeAndLimitNewDms)

variable {env : ReviewEnv}

/-- The effects of a review. -/
def Review.apply (v : Review env) (s : Db) : Db :=
  marking v.report.id v.resolution
    (suspension v.report.reportedUserId v.resolution.action
      (restriction v.report.reportedUserId v.warned v.times.restrictedAt
        (removal env v.report v.resolution.action v.times.deletedAt s)))

def applyAll (vs : List (Review env)) (s : Db) : Db := vs.foldl (fun d v => v.apply d) s

def reviewedIds (vs : List (Review env)) : List Uuid := vs.map (fun v => v.report.id)

/-- The review does what the arguments of `resolve_report_conn` ask. -/
structure Review.Asked (v : Review env) (reviewer : Option Uuid) (action : String)
    (notes : Option String) (times : ReviewTimes) : Prop where
  action : normalizeResolutionAction action = .ok v.resolution.action
  resolution : v.resolution =
    ⟨v.resolution.action, normalizeOptionalText notes, reviewer, times.reviewedAt⟩
  times : v.times = times

/-! ## What reviews leave alone -/

/-- A report without the columns of its review. -/
def filed (r : ModerationReport) : ModerationReport :=
  { r with
    status := ""
    resolutionAction := none
    resolutionNotes := none
    reviewedByUserId := none
    reviewedAt := none }

structure Stands (db d : Db) : Prop where
  users : ∀ id, (d.users.get id).isSome = (db.users.get id).isSome
  reports : ∀ id, (d.moderationReports.get id).map filed = (db.moderationReports.get id).map filed

theorem Stands.refl (d : Db) : Stands d d := ⟨fun _ => rfl, fun _ => rfl⟩

theorem Stands.trans {d d' d'' : Db} (h : Stands d d') (h' : Stands d' d'') : Stands d d'' where
  users id := (h'.users id).trans (h.users id)
  reports id := (h'.reports id).trans (h.reports id)

theorem stands_updateUsers (s : Db) (user : Uuid) (f : User → User) (hf : ∀ r, (f r).id = r.id) :
    Stands s { s with users := s.users.update user f hf } where
  users id := Table.isSome_get_update s.users user id f hf
  reports _ := rfl

theorem stands_removal (report : ModerationReport) (action : ResolutionAction) (deletedAt : Int)
    (s : Db) : Stands s (removal env report action deletedAt s) := by
  unfold removal
  split
  · rename_i content _ _
    cases content with
    | userProfile user => exact stands_updateUsers s user _ _
    | directMessage id => exact ⟨fun _ => rfl, fun _ => rfl⟩
    | roomMessage id => exact ⟨fun _ => rfl, fun _ => rfl⟩
  · exact .refl s

theorem stands_restriction (user : Uuid) (warned : Option User) (restrictedAt : Int) (s : Db) :
    Stands s (restriction user warned restrictedAt s) := by
  cases warned with
  | none => exact .refl s
  | some r => exact stands_updateUsers s user _ _

theorem stands_suspension (user : Uuid) (action : ResolutionAction) (s : Db) :
    Stands s (suspension user action s) := by
  unfold suspension
  split
  · exact stands_updateUsers s user _ _
  · exact .refl s

theorem stands_marking (id : Uuid) (resolution : Resolution) (s : Db) :
    Stands s (marking id resolution s) where
  users _ := rfl
  reports k := by
    by_cases h : k = id
    · subst h
      rw [marking, Table.get_update_self, Option.map_map]
      rfl
    · rw [marking, Table.get_update_of_ne _ _ _ h]

theorem Review.stands (v : Review env) (s : Db) : Stands s (v.apply s) :=
  ((stands_removal _ _ _ s).trans (stands_restriction _ _ _ _)).trans
    ((stands_suspension _ _ _).trans (stands_marking _ _ _))

@[simp] theorem applyAll_nil (s : Db) : applyAll ([] : List (Review env)) s = s := rfl

@[simp] theorem applyAll_cons (v : Review env) (vs : List (Review env)) (s : Db) :
    applyAll (v :: vs) s = applyAll vs (v.apply s) := rfl

theorem applyAll_append (vs vs' : List (Review env)) (s : Db) :
    applyAll (vs ++ vs') s = applyAll vs' (applyAll vs s) := by
  simp [applyAll]

theorem stands_applyAll (vs : List (Review env)) (s : Db) : Stands s (applyAll vs s) := by
  induction vs generalizing s with
  | nil => exact .refl s
  | cons v vs ih => exact (v.stands s).trans (ih (v.apply s))

/-! ## The status of the reports -/

def isOpen (s : Db) (id : Uuid) : Prop :=
  (s.moderationReports.get id).map ModerationReport.status = some reportStatusOpen

instance (s : Db) (id : Uuid) : Decidable (isOpen s id) :=
  inferInstanceAs (Decidable (_ = some reportStatusOpen))

theorem Review.reports_apply (v : Review env) (s : Db) :
    (v.apply s).moderationReports =
      s.moderationReports.update v.report.id v.resolution.mark v.resolution.mark_id := by
  have hremoval : (removal env v.report v.resolution.action v.times.deletedAt s).moderationReports =
      s.moderationReports := by
    unfold removal
    split
    · rename_i content _ _
      cases content <;> rfl
    · rfl
  have hrestriction : ∀ d, (restriction v.report.reportedUserId v.warned v.times.restrictedAt
      d).moderationReports = d.moderationReports := by
    intro d
    unfold restriction
    split <;> rfl
  have hsuspension : ∀ d, (suspension v.report.reportedUserId v.resolution.action
      d).moderationReports = d.moderationReports := by
    intro d
    unfold suspension
    split <;> rfl
  rw [Review.apply, marking]
  simp only [hsuspension, hrestriction, hremoval]

theorem nextStatus_ne_open (action : ResolutionAction) : action.nextStatus ≠ reportStatusOpen := by
  cases action <;> decide

theorem Review.isOpen_apply (v : Review env) (s : Db) (id : Uuid) :
    Moderation.isOpen (v.apply s) id ↔ Moderation.isOpen s id ∧ v.report.id ≠ id := by
  rw [Moderation.isOpen, v.reports_apply]
  by_cases h : id = v.report.id
  · subst h
    rw [Table.get_update_self]
    simp [Function.comp_def, Resolution.mark, nextStatus_ne_open]
  · rw [Table.get_update_of_ne _ _ _ h]
    simp [Moderation.isOpen, Ne.symm h]

theorem isOpen_applyAll (vs : List (Review env)) (s : Db) (id : Uuid) :
    isOpen (applyAll vs s) id ↔ isOpen s id ∧ id ∉ reviewedIds vs := by
  induction vs generalizing s with
  | nil => simp [reviewedIds]
  | cons v vs ih =>
    rw [applyAll_cons, ih, v.isOpen_apply]
    simp [reviewedIds, and_assoc, eq_comm]

theorem report_applyAll {vs : List (Review env)} (hnodup : (reviewedIds vs).Nodup) {v : Review env}
    (hv : v ∈ vs) (s : Db) : (applyAll vs s).moderationReports.get v.report.id =
      (s.moderationReports.get v.report.id).map v.resolution.mark := by
  have hother : ∀ (ws : List (Review env)) (d : Db), v.report.id ∉ reviewedIds ws →
      (applyAll ws d).moderationReports.get v.report.id =
        d.moderationReports.get v.report.id := by
    intro ws
    induction ws with
    | nil => exact fun _ _ => rfl
    | cons w ws ih =>
      intro d hw
      simp only [reviewedIds, List.map_cons, List.mem_cons, not_or] at hw
      rw [applyAll_cons, ih _ hw.2, w.reports_apply, Table.get_update_of_ne _ _ _ hw.1]
  induction vs generalizing s with
  | nil => cases hv
  | cons w ws ih =>
    have hn := List.nodup_cons.mp hnodup
    rw [applyAll_cons]
    rcases List.mem_cons.mp hv with rfl | hv
    · rw [hother ws _ hn.1, v.reports_apply, Table.get_update_self]
    · have hne : v.report.id ≠ w.report.id := by
        intro he
        exact hn.1 (List.mem_map.mpr ⟨v, hv, he⟩)
      rw [ih hn.2 hv, w.reports_apply, Table.get_update_of_ne _ _ _ hne]

/-! ## The program of a review

Whatever is committed between the statements of a review, it writes what one `Review` writes.
`G` stands for the conditions under which it does not fail. -/

section
variable {db : Db} {P : Except AppError ModerationReport → (Db → Db) → Prop} {G : Prop}
  {p : Db → Db}

/-- A part of a review that writes `q`. -/
def Leaves (G : Prop) (q : Db → Db) : Except AppError Unit → (Db → Db) → Prop
  | .ok _, p => p = q
  | .error _, _ => ¬ G

/-- An `UPDATE` that returns nothing. -/
theorem ends_update {I : Db → Prop} {Q : Except AppError Unit → (Db → Db) → Prop}
    {locks : Db → List RowLock} {w : Db → Db} (h : Q (.ok ()) (w ∘ p)) :
    (Query.exec locks (fun s => .ok ((), w s))).Ends I Q p :=
  (Tx.ends_exec _ _).mpr (fun _ _ => h)

theorem ends_delete {I : Db → Prop} {Q : Except AppError Unit → (Db → Db) → Prop}
    {content : ReportedContent} {deletedAt : Int}
    (h : Q (.ok ()) ((fun s => content.remove deletedAt s) ∘ p)) :
    (content.delete deletedAt).Ends I Q p := by
  cases content <;> exact ends_update h

theorem ends_removeReportedContentConn {report : ModerationReport} {action : ResolutionAction}
    (hG : G → action.removesContent = true → ∃ content, reportedContent env report = .ok content)
    (deletedAt : Int) :
    (onlyIf action.removesContent (removeReportedContentConn env report deletedAt)).Ends
      (Stands db) (fun r q => match r with
        | .ok _ => q = removal env report action deletedAt ∘ p ∧
          (action.removesContent = true → ∃ content, reportedContent env report = .ok content)
        | .error _ => ¬ G) p := by
  by_cases h : action.removesContent
  · rw [onlyIf, if_pos h, removeReportedContentConn, Tx.ends_done_bind]
    rcases hcontent : reportedContent env report with e | content
    · intro hg
      obtain ⟨content, hc⟩ := hG hg h
      rw [hcontent] at hc
      cases hc
    · have hremoval : removal env report action deletedAt =
          fun s => content.remove deletedAt s := by
        funext s
        rw [removal, h, hcontent]
      rw [hremoval]
      exact ends_delete ⟨rfl, fun _ => ⟨content, rfl⟩⟩
  · rw [onlyIf, if_neg h, Tx.ends_pure]
    apply And.intro _ (fun h' => absurd h' h)
    funext s
    rw [Function.comp_apply, removal]
    simp [h]

theorem ends_applyTemporaryDmRestrictionConn {user : Uuid} {action : ResolutionAction}
    (hp : ∀ d, Stands db d → Stands d (p d)) (hG : G → db.userExists user) (restrictedAt : Int) :
    (onlyIf (action = .removeAndLimitNewDms)
      (applyTemporaryDmRestrictionConn user restrictedAt)).Ends (Stands db) (fun r q => match r with
        | .ok _ => ∃ warned, warned.isSome = decide (action = .removeAndLimitNewDms) ∧
            q = restriction user warned restrictedAt ∘ p
        | .error _ => ¬ G) p := by
  by_cases h : action = .removeAndLimitNewDms
  · rw [onlyIf, if_pos (by simpa using h), applyTemporaryDmRestrictionConn, Accounts.findById,
      Tx.ends_query_bind]
    intro d hd
    rw [Tx.ends_okOr_bind]
    rcases hr : (p d).users.get user with _ | r
    · intro hg
      have huser := hG hg
      rw [Db.userExists, ← (hd.trans (hp d hd)).users, hr] at huser
      cases huser
    · exact ends_update ⟨some r, by simp [h], rfl⟩
  · rw [onlyIf, if_neg (by simpa using h), Tx.ends_pure]
    exact ⟨none, by simp [h], rfl⟩

theorem ends_suspend (user : Uuid) (action : ResolutionAction) :
    (onlyIf action.suspends
      (updateUser user Accounts.deactivated Accounts.deactivated_id)).Ends (Stands db)
        (Leaves G (suspension user action ∘ p)) p := by
  by_cases h : action.suspends
  · rw [onlyIf, if_pos h]
    have hsuspension : suspension user action = fun s =>
        { s with users := s.users.update user Accounts.deactivated Accounts.deactivated_id } := by
      funext s
      rw [suspension, if_pos h]
    rw [hsuspension]
    exact ends_update rfl
  · rw [onlyIf, if_neg h, Tx.ends_pure]
    funext s
    rw [Function.comp_apply, suspension, if_neg h]

def ReviewerExists (db : Db) (reviewer : Option Uuid) : Prop :=
  ∀ id ∈ reviewer, db.userExists id

instance (db : Db) (reviewer : Option Uuid) : Decidable (ReviewerExists db reviewer) :=
  inferInstanceAs (Decidable (∀ id ∈ reviewer, db.userExists id))

theorem Stands.reviewerExists {d d' : Db} (h : Stands d d') (reviewer : Option Uuid) :
    ReviewerExists d' reviewer ↔ ReviewerExists d reviewer := by
  apply forall₂_congr
  intro id _
  rw [Db.userExists, h.users, ← Db.userExists]

theorem ends_markReport {id : Uuid} {resolution : Resolution}
    (hp : ∀ d, Stands db d → Stands d (p d))
    (hG : G → (db.moderationReports.get id).isSome ∧ ReviewerExists db resolution.reviewer)
    (hok : ∀ row q, row.id = id → (∀ d, Stands db d → q d = marking id resolution (p d)) →
      P (.ok row) q)
    (herror : ¬ G → ∀ e q, P (.error e) q) :
    (markReport id resolution).Ends (Stands db) P p := by
  rw [markReport, Query.exec, Tx.ends_exec]
  intro d hd
  have hdb := hd.trans (hp d hd)
  have hall : ∀ d, resolution.reviewer.all (fun reviewer => decide (d.userExists reviewer)) = true ↔
      ReviewerExists d resolution.reviewer := by
    intro d
    cases resolution.reviewer <;> simp [ReviewerExists]
  rcases hr : (p d).moderationReports.get id with _ | r
  · simp only [Tx.outcome, hr]
    apply herror
    intro hg
    have hreport := hdb.reports id
    rw [hr] at hreport
    have hnone : db.moderationReports.get id = none := by simpa using hreport.symm
    simpa [hnone] using (hG hg).1
  by_cases hrev : ReviewerExists db resolution.reviewer
  · have hd' : ReviewerExists (p d) resolution.reviewer := (hdb.reviewerExists _).mpr hrev
    rw [Tx.outcome]
    simp only [hr, if_pos ((hall _).mpr hd')]
    have hid : r.id = id := Table.key_of_get hr
    apply hok (resolution.mark r) _ hid
    intro d' hd'
    have hdb' := hd'.trans (hp d' hd')
    have hrev' := (hdb'.reviewerExists _).mpr hrev
    rw [Function.comp_apply, Tx.effect]
    rcases hr' : (p d').moderationReports.get id with _ | r'
    · have hsame := (hdb'.reports id).trans (hdb.reports id).symm
      rw [hr, hr'] at hsame
      cases hsame
    · simp only [if_pos ((hall _).mpr hrev')]
      rfl
  · have hd' : ¬ ReviewerExists (p d) resolution.reviewer :=
      fun h => hrev ((hdb.reviewerExists _).mp h)
    rw [Tx.outcome]
    simp only [hr, if_neg (fun h => hd' ((hall _).mp h))]
    exact herror (fun hg => hrev (hG hg).2) _ _

/-- A report that is open can be resolved as it is asked. -/
structure CanResolve (env : ReviewEnv) (db : Db) (report : ModerationReport)
    (reviewer : Option Uuid) (resolutionAction : String) : Prop where
  action : ∃ action, normalizeResolutionAction resolutionAction = .ok action ∧
    (action.removesContent = true → ∃ content, reportedContent env report = .ok content)
  user : db.userExists report.reportedUserId
  reviewer : ReviewerExists db reviewer
  report : (db.moderationReports.get report.id).isSome

theorem CanResolve.of_filed {report report' : ModerationReport} {reviewer : Option Uuid}
    {action : String} (h : CanResolve env db report reviewer action)
    (hfiled : filed report' = filed report) : CanResolve env db report' reviewer action := by
  have hid : (filed report').id = (filed report).id := by rw [hfiled]
  have huser : (filed report').reportedUserId = (filed report).reportedUserId := by rw [hfiled]
  have hcontent : reportedContent env (filed report') = reportedContent env (filed report) := by
    rw [hfiled]
  constructor
  · change ∃ action, _ ∧ (_ → ∃ content, reportedContent env (filed report') = _)
    rw [hcontent]
    exact h.action
  · change db.userExists (filed report').reportedUserId
    rw [huser]
    exact h.user
  · exact h.reviewer
  · change (db.moderationReports.get (filed report').id).isSome
    rw [hid]
    exact h.report

theorem ends_resolveReportConn {report : ModerationReport}
    (hopen : report.status = reportStatusOpen) {reviewer : Option Uuid} {action : String}
    {notes : Option String} {times : ReviewTimes}
    (hp : ∀ d, Stands db d → Stands d (p d)) (hG : G → CanResolve env db report reviewer action)
    (hok : ∀ (v : Review env) row q, v.report = report → v.Asked reviewer action notes times →
      row.id = report.id → (∀ d, Stands db d → q d = v.apply (p d)) → P (.ok row) q)
    (herror : ¬ G → ∀ e q, P (.error e) q) :
    (resolveReportConn env report reviewer action notes times).Ends (Stands db) P p := by
  rw [resolveReportConn, Tx.ends_done_bind]
  rcases haction : normalizeResolutionAction action with e | a
  · apply herror
    intro hg
    obtain ⟨a, ha, -⟩ := (hG hg).action
    rw [haction] at ha
    cases ha
  have hremove : G → a.removesContent = true →
      ∃ content, reportedContent env report = .ok content := by
    intro hg
    obtain ⟨a', ha', hremove⟩ := (hG hg).action
    rw [haction] at ha'
    cases ha'
    exact hremove
  dsimp only
  apply (ends_removeReportedContentConn (p := p) hremove times.deletedAt).bind
  · rintro - q ⟨rfl, hremovable⟩
    have hp₁ : ∀ d, Stands db d → Stands d (removal env report a times.deletedAt (p d)) :=
      fun d hd => (hp d hd).trans (stands_removal _ _ _ _)
    apply (ends_applyTemporaryDmRestrictionConn (G := G) hp₁ (fun hg => (hG hg).user)
      times.restrictedAt).bind
    · rintro - q ⟨warned, hwarned, rfl⟩
      have hp₂ : ∀ d, Stands db d → Stands d (restriction report.reportedUserId warned
          times.restrictedAt (removal env report a times.deletedAt (p d))) :=
        fun d hd => (hp₁ d hd).trans (stands_restriction _ _ _ _)
      apply (ends_suspend (G := G) report.reportedUserId a).bind
      · rintro - q rfl
        apply ends_markReport (G := G) (fun d hd => (hp₂ d hd).trans (stands_suspension _ _ _))
        · exact fun hg => ⟨(hG hg).report, (hG hg).reviewer⟩
        · intro row q hid hq
          exact hok ⟨report, _, times, warned, hopen, hremovable, hwarned⟩ row q rfl
            ⟨haction, rfl, rfl⟩ hid hq
        · exact herror
      · exact fun e q he => herror he e q
    · exact fun e q he => herror he e q
  · exact fun e q he => herror he e q

end

/-! ## Calls -/

/-- A call that reviews reports, with its readings of the clock. -/
inductive ReviewCall where
  | resolveReport (reportId reviewedByUserId : Uuid) (resolutionAction : String)
      (resolutionNotes : Option String) (times : ReviewTimes)
  | automaticReview (now : Int) (times : Uuid → ReviewTimes)

/-- The transaction of a call. It answers with the reports that it reviews. -/
def ReviewCall.transaction (env : ReviewEnv) : ReviewCall → Query (List Uuid)
  | .resolveReport reportId reviewedByUserId resolutionAction resolutionNotes times => do
    let view ← Moderation.resolveReport env reportId reviewedByUserId resolutionAction
      resolutionNotes times
    pure [view.report.id]
  | .automaticReview now times => do
    let reviewed ← reviewOverdue env now times
    pure (reviewed.map ModerationReport.id)

/-- The reviews are those that the call asks for. -/
inductive ReviewCall.Made (env : ReviewEnv) : ReviewCall → List (Review env) → Prop
  | resolved {reviewer : Uuid} {action : String} {notes : Option String} {times : ReviewTimes}
      (v : Review env) (asked : v.Asked (some reviewer) action notes times) :
      ReviewCall.Made env (.resolveReport v.report.id reviewer action notes times) [v]
  | passed {now : Int} {times : Uuid → ReviewTimes} (vs : List (Review env))
      (nodup : (reviewedIds vs).Nodup) (due : ∀ v ∈ vs, v.report.reviewDueAt ≤ now)
      (asked : ∀ v ∈ vs, v.Asked none
        (automaticDecision env (vs.map Review.report) v.report).1.text
        (some (automaticDecision env (vs.map Review.report) v.report).2) (times v.report.id)) :
      ReviewCall.Made env (.automaticReview now times) vs

/-- The call asks to resolve a report in a way that is possible if the report is open. -/
def ReviewCall.Valid (env : ReviewEnv) (db : Db) : ReviewCall → Prop
  | .resolveReport reportId reviewer action _ _ => ∃ report,
      db.moderationReports.get reportId = some report ∧
      CanResolve env db report (some reviewer) action
  | .automaticReview _ _ => False

def alreadyReviewed : AppError := .conflict "Report has already been reviewed"

/-- How a call ends that starts on database `db`. -/
def ReviewCall.Ended (env : ReviewEnv) (db : Db) (call : ReviewCall) :
    Except AppError (List Uuid) → (Db → Db) → Prop
  | .ok ids, p => ∃ vs, (call.Made env vs ∧ ids = reviewedIds vs) ∧
      ∀ d, Stands db d → p d = applyAll vs d
  | .error e, _ => call.Valid env db → e = alreadyReviewed

theorem ends_resolveReport (env : ReviewEnv) (db : Db) (reportId reviewer : Uuid) (action : String)
    (notes : Option String) (times : ReviewTimes) :
    ((ReviewCall.resolveReport reportId reviewer action notes times).transaction env).Ends
      (Stands db) ((ReviewCall.resolveReport reportId reviewer action notes times).Ended env db)
      id := by
  generalize hcall : ReviewCall.resolveReport reportId reviewer action notes times = call
  rw [← hcall, ReviewCall.transaction, hcall, Moderation.resolveReport, Tx.ends_bind,
    Tx.ends_query_bind]
  intro d hd
  rw [Tx.ends_okOr_bind, id_eq]
  rcases hr : d.moderationReports.get reportId with _ | r
  · -- the report does not exist, in this database or in the first one
    rintro hvalid
    rw [← hcall] at hvalid
    obtain ⟨report, hreport, -⟩ := hvalid
    have hfiled := hd.reports reportId
    rw [hr, hreport] at hfiled
    cases hfiled
  obtain rfl : r.id = reportId := Table.key_of_get hr
  change (if r.status ≠ reportStatusOpen then _ else _ : Query AdminModerationReportView).Ends _ _ _
  by_cases hopen : r.status = reportStatusOpen
  · rw [if_neg (by simpa using hopen), Tx.ends_bind]
    apply ends_resolveReportConn (G := call.Valid env db) hopen
      (fun d _ => .refl d)
    · intro hvalid
      rw [← hcall] at hvalid
      obtain ⟨report, hreport, hcan⟩ := hvalid
      have hfiled := hd.reports r.id
      rw [hr, hreport] at hfiled
      exact hcan.of_filed (Option.some.inj hfiled)
    · intro v row q hv hasked hid hq
      subst hv
      have hview : reportsToAdminViews [row] = Tx.query (fun s => [⟨row,
          usernameOrId s row.reporterUserId, usernameOrId s row.reportedUserId⟩]) := by
        simp [reportsToAdminViews]
      dsimp only
      rw [hview, Tx.ends_query_bind]
      intro d' _
      rw [List.getLast?_singleton, Tx.ends_okOr, Option.elim_some]
      apply (Tx.ends_pure _).mpr
      refine ⟨[v], ⟨hcall ▸ .resolved v hasked, ?_⟩, hq⟩
      exact congrArg (fun id => [id]) hid
    · exact fun hnot e _ hvalid => absurd hvalid hnot
  · rw [if_pos hopen, Tx.ends_throw]
    exact fun _ => rfl

/-- The loop of the pass makes one review of each report. -/
theorem ends_reviewAll {reports : List ModerationReport} {times : Uuid → ReviewTimes} {db : Db}
    {P : Except AppError (List ModerationReport) → (Db → Db) → Prop} {p : Db → Db}
    {rest : List ModerationReport} (hopen : ∀ r ∈ rest, r.status = reportStatusOpen)
    (hp : ∀ d, Stands db d → Stands d (p d))
    (hok : ∀ (vs : List (Review env)) rows q, vs.map Review.report = rest →
      (∀ v ∈ vs, v.Asked none (automaticDecision env reports v.report).1.text
        (some (automaticDecision env reports v.report).2) (times v.report.id)) →
      rows.map ModerationReport.id = rest.map ModerationReport.id →
      (∀ d, Stands db d → q d = applyAll vs (p d)) → P (.ok rows) q)
    (herror : ∀ e q, P (.error e) q) :
    (reviewAll env reports times rest).Ends (Stands db) P p := by
  induction rest generalizing p P with
  | nil =>
    rw [reviewAll, Tx.ends_pure]
    exact hok [] [] p rfl (by simp) rfl (fun _ _ => rfl)
  | cons report rest ih =>
    rw [reviewAll, Tx.ends_bind]
    apply ends_resolveReportConn (G := False) (hopen report List.mem_cons_self) hp (by simp) _
      (fun _ e q => herror e q)
    intro v row q hv hasked hid hq
    subst hv
    have hp' : ∀ d, Stands db d → Stands d (q d) := by
      intro d hd
      rw [hq d hd]
      exact (hp d hd).trans (v.stands _)
    dsimp only
    rw [Tx.ends_bind]
    apply ih (fun r hr => hopen r (List.mem_cons_of_mem _ hr)) hp'
    · intro vs rows q' hvs hasks hids hq'
      apply (Tx.ends_pure _).mpr
      apply hok (v :: vs) (row :: rows) q'
      · rw [List.map_cons, hvs]
      · exact List.forall_mem_cons.mpr ⟨hasked, hasks⟩
      · rw [List.map_cons, List.map_cons, hid, hids]
      · intro d hd
        rw [hq' d hd, hq d hd, applyAll_cons]
    · exact herror

theorem mem_overdueReports {s : Db} {now : Int} {r : ModerationReport} :
    r ∈ overdueReports s now ↔
      r ∈ s.moderationReports.rows ∧ r.status = reportStatusOpen ∧ r.reviewDueAt ≤ now := by
  simp [overdueReports]

theorem overdueReports_nodup (s : Db) (now : Int) :
    ((overdueReports s now).map ModerationReport.id).Nodup := by
  rw [overdueReports, ((List.perm_insertionSort _ _).map _).nodup_iff]
  exact (s.moderationReports.filter _).keys_nodup

theorem ends_automaticReview (env : ReviewEnv) (db : Db) (now : Int) (times : Uuid → ReviewTimes) :
    ((ReviewCall.automaticReview now times).transaction env).Ends (Stands db)
      ((ReviewCall.automaticReview now times).Ended env db) id := by
  rw [ReviewCall.transaction, reviewOverdue, Tx.ends_bind, Tx.ends_query_bind]
  intro d hd
  rw [id_eq]
  apply ends_reviewAll
  · exact fun r hr => (mem_overdueReports.mp hr).2.1
  · exact fun d _ => .refl d
  · intro vs rows q hvs hasked hids hq
    have hreviewed : reviewedIds vs = (overdueReports d now).map ModerationReport.id := by
      rw [← hvs, List.map_map]
      rfl
    apply (Tx.ends_pure _).mpr
    refine ⟨vs, ⟨.passed vs ?_ ?_ (hvs ▸ hasked), hids.trans hreviewed.symm⟩, hq⟩
    · rw [hreviewed]
      exact overdueReports_nodup d now
    · intro v hv
      have hmem : v.report ∈ overdueReports d now := hvs ▸ List.mem_map_of_mem hv
      exact (mem_overdueReports.mp hmem).2.2
  · exact fun e q hvalid => hvalid.elim

theorem ends_transaction (env : ReviewEnv) (db : Db) (call : ReviewCall) :
    (call.transaction env).Ends (Stands db) (call.Ended env db) id := by
  cases call with
  | resolveReport reportId reviewer action notes times =>
    exact ends_resolveReport env db reportId reviewer action notes times
  | automaticReview now times => exact ends_automaticReview env db now times

/-! ## Runs -/

section
variable {ι : Type} [DecidableEq ι]

/-- A review commits only while all its reports are open in the committed database. -/
def StillOpen (s : Sys ι Db RowLock AppError (List Uuid)) (e : ι × Action) : Prop :=
  match e.2, s.status e.1 with
  | .commit, .active ⟨.done (.ok ids), _, _⟩ => ∀ id ∈ ids, isOpen s.db id
  | _, _ => True

instance (s : Sys ι Db RowLock AppError (List Uuid)) (e : ι × Action) :
    Decidable (StillOpen s e) := by
  unfold StillOpen
  split <;> infer_instance

/-- The reviews of a history. -/
def reviewsOf (history : List (ι × List (Review env))) : List (Review env) :=
  history.flatMap Prod.snd

omit [DecidableEq ι] in
theorem foldl_applyAll (history : List (ι × List (Review env))) (s : Db) :
    history.foldl (fun d e => applyAll e.2 d) s = applyAll (reviewsOf history) s := by
  induction history generalizing s with
  | nil => rfl
  | cons e history ih =>
    rw [List.foldl_cons, ih, reviewsOf, reviewsOf, List.flatMap_cons, applyAll_append]

structure ReviewedOnce (s : Db) (history : List (ι × List (Review env))) : Prop where
  closed : ∀ id ∈ reviewedIds (reviewsOf history), ¬ isOpen s id
  nodup : (reviewedIds (reviewsOf history)).Nodup

theorem made_nodup {call : ReviewCall} {vs : List (Review env)} (h : call.Made env vs) :
    (reviewedIds vs).Nodup := by
  cases h with
  | resolved v => simp [reviewedIds]
  | passed vs nodup => exact nodup

omit [DecidableEq ι] in
theorem ReviewedOnce.commit {s : Db} {history : List (ι × List (Review env))}
    (h : ReviewedOnce s history) {vs : List (Review env)} (hvs : (reviewedIds vs).Nodup)
    (hopen : ∀ id ∈ reviewedIds vs, isOpen s id) (i : ι) :
    ReviewedOnce (applyAll vs s) (history ++ [(i, vs)]) := by
  have hids : reviewedIds (reviewsOf (history ++ [(i, vs)])) =
      reviewedIds (reviewsOf history) ++ reviewedIds vs := by
    simp [reviewsOf, reviewedIds]
  constructor
  · intro id hid hstill
    rw [hids, List.mem_append] at hid
    obtain ⟨hs, hnot⟩ := (isOpen_applyAll vs s id).mp hstill
    rcases hid with hid | hid
    · exact h.closed id hid hs
    · exact hnot hid
  · rw [hids]
    apply List.nodup_append.mpr
    refine ⟨h.nodup, hvs, ?_⟩
    rintro id hid id' hid' rfl
    exact h.closed id hid (hopen id hid')

omit [DecidableEq ι] in
theorem ReviewedOnce.disjoint {s : Db} {history : List (ι × List (Review env))}
    (h : ReviewedOnce s history) {e e' : ι × List (Review env)} (he : e ∈ history)
    (he' : e' ∈ history) (hne : e ≠ e') : (reviewedIds e.2).Disjoint (reviewedIds e'.2) := by
  have hnodup := h.nodup
  rw [reviewedIds, reviewsOf, List.map_flatMap, List.nodup_flatMap] at hnodup
  have : Std.Symm (Function.onFun List.Disjoint
      fun e : ι × List (Review env) => e.2.map (fun v => v.report.id)) :=
    ⟨fun _ _ h => List.Disjoint.symm h⟩
  exact hnodup.2.forall he he' hne

theorem reports_run {env : ReviewEnv} {calls : ι → ReviewCall} {db : Db} {es : List (ι × Action)}
    {s : Sys ι Db RowLock AppError (List Uuid)}
    (hrun : run (start (fun i => (calls i).transaction env) db) es = some s)
    (hopen : ReadCommitted.Along StillOpen (start (fun i => (calls i).transaction env) db) es) :
    EndsInv (Stands db) (fun i => (calls i).Ended env db) s ∧ ∃ history,
      Published (fun i ids vs => (calls i).Made env vs ∧ ids = reviewedIds vs) applyAll db s
        history ∧
      ReviewedOnce s.db history := by
  apply published_run (C := StillOpen) (fun i => ends_transaction env db (calls i)) ?_ ?_ ?_
    (.refl db) ⟨by simp [reviewsOf, reviewedIds], by simp [reviewsOf, reviewedIds]⟩ hopen hrun
  · rintro i ids p d ⟨vs, -, hp⟩ hd
    rw [hp d hd]
    exact hd.trans (stands_applyAll vs d)
  · rintro i ids p ⟨vs, hvs, hp⟩
    exact ⟨vs, hvs, hp⟩
  · rintro s history i ids vs p w - - hstill hst ⟨hmade, rfl⟩ hJ
    rw [StillOpen, hst] at hstill
    exact hJ.commit (made_nodup hmade) hstill i

/-- If reviews commit on open reports only: no report is reviewed by two calls, a possible
call to resolve a report fails only because the report has been reviewed, and the database
has the effects of the committed reviews and no others, one review for each report. -/
theorem reports_reviewed_once (env : ReviewEnv) (calls : ι → ReviewCall) (db : Db)
    (es : List (ι × Action)) (s : Sys ι Db RowLock AppError (List Uuid))
    (hrun : run (start (fun i => (calls i).transaction env) db) es = some s)
    (hopen : ReadCommitted.Along StillOpen (start (fun i => (calls i).transaction env) db) es) :
    (∀ i j ids ids' id, s.status i = .committed ids → s.status j = .committed ids' →
      id ∈ ids → id ∈ ids' → i = j) ∧
    (∀ i e p v, s.status i = .active ⟨.done (.error e), p, v⟩ → (calls i).Valid env db →
      e = alreadyReviewed) ∧
    ∃ history : List (ι × List (Review env)), history.map Prod.fst = s.log ∧
      (∀ e ∈ history, (calls e.1).Made env e.2 ∧ s.status e.1 = .committed (reviewedIds e.2)) ∧
      (reviewedIds (reviewsOf history)).Nodup ∧ s.db = applyAll (reviewsOf history) db ∧
      ∀ v ∈ reviewsOf history, s.db.moderationReports.get v.report.id =
        (db.moderationReports.get v.report.id).map v.resolution.mark := by
  obtain ⟨hinv, history, hpub, honce⟩ := reports_run hrun hopen
  have hdb := hpub.db.trans (foldl_applyAll history db)
  refine ⟨?_, ?_, history, hpub.log, ?_, honce.nodup, hdb, ?_⟩
  · intro i j ids ids' id hi hj hid hid'
    obtain ⟨vs, hvs, -, rfl⟩ := hpub.committed i ids hi
    obtain ⟨vs', hvs', -, rfl⟩ := hpub.committed j ids' hj
    by_contra hij
    have hne : (i, vs) ≠ (j, vs') := fun h => hij (congrArg Prod.fst h)
    exact honce.disjoint hvs hvs' hne hid hid'
  · intro i e p v hst hvalid
    exact (Tx.ends_done _).mp (hinv.sessions i _ hst) hvalid
  · intro e he
    obtain ⟨ids, hids, hmade, rfl⟩ := hpub.record e he
    exact ⟨hmade, hids⟩
  · intro v hv
    rw [hdb]
    exact report_applyAll honce.nodup hv db

end

/-! ## A report that is dismissed and acted on -/

def reviewUser (id : Uuid) (name role : String) : User :=
  Accounts.NewUser.row ⟨id, name, name ++ "@example.org", "", role, none, true⟩

/-- Alice has reported the profile of Bob; Carol and Dave are administrators. -/
def reported : Db :=
  { Db.empty with
    users := ⟨[reviewUser 1 "alice" "user", reviewUser 2 "bob" "user",
      reviewUser 3 "carol" "admin", reviewUser 4 "dave" "admin"], by decide⟩
    moderationReports := ⟨[⟨5, 1, 2, "user_report", "user_profile", none, "other", none, none,
      "open", none, none, Duration.days 1, none, none, 0⟩], by decide⟩ }

def asciiReviews : ReviewEnv := ⟨.ascii, fun _ => none⟩

def carolAndDave (i : Bool) : ReviewCall :=
  if i then .resolveReport 5 3 "dismiss" none ⟨1, 1, 1⟩
  else .resolveReport 5 4 "suspend_user" none ⟨2, 2, 2⟩

def bothOpen : List (Bool × Action) :=
  [(true, .stmt), (false, .stmt), (true, .stmt), (true, .stmt), (true, .commit), (false, .stmt),
    (false, .stmt), (false, .stmt), (false, .commit)]

def carolAlone : List (Bool × Action) :=
  [(true, .stmt), (true, .stmt), (true, .stmt), (true, .commit)]

def afterReviews (es : List (Bool × Action)) : Option (Sys Bool Db RowLock AppError (List Uuid)) :=
  run (start (fun i => (carolAndDave i).transaction asciiReviews) reported) es

theorem reports_reviewed_once_carol :
    ((afterReviews carolAlone).get (by decide)).status false ≠ .committed [5] :=
  fun h => Bool.false_ne_true ((reports_reviewed_once asciiReviews carolAndDave reported carolAlone _
    (Option.some_get _).symm (by decide)).1 false true [5] [5] 5 h rfl (by decide) (by decide))

theorem carolAndDave_valid (i : Bool) : (carolAndDave i).Valid asciiReviews reported := by
  cases i
  · exact ⟨_, rfl, ⟨.suspendUser, rfl, nofun⟩, by decide, by decide, by decide⟩
  · exact ⟨_, rfl, ⟨.dismiss, rfl, nofun⟩, by decide, by decide, by decide⟩

/-- Two administrators resolve one report, both succeed, and the user is suspended although
the first of them dismissed the report. -/
theorem report_reviewed_twice :
    ∃ (env : ReviewEnv) (calls : Bool → ReviewCall) (db : Db) (es : List (Bool × Action))
      (s : Sys Bool Db RowLock AppError (List Uuid)),
      run (start (fun i => (calls i).transaction env) db) es = some s ∧
      (∀ i, (calls i).Valid env db) ∧
      s.status true = .committed [5] ∧ s.status false = .committed [5] ∧
      (db.users.get 2).map User.isActive = some true ∧
      (s.db.users.get 2).map User.isActive = some false ∧
      (s.db.moderationReports.get 5).map (fun r => (r.status, r.reviewedByUserId)) =
        some ("resolved", some 4) :=
  ⟨asciiReviews, carolAndDave, reported, bothOpen, (afterReviews bothOpen).get (by decide),
    (Option.some_get _).symm, carolAndDave_valid, rfl, rfl, by decide, by decide, by decide⟩

end SyncServer.Moderation
