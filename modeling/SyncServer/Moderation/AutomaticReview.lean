import SyncServer.Moderation.Filing

/-! # The automatic review

Every night the reports that are overdue are resolved in one transaction. Whatever has been filed
can be reviewed, so that the transaction succeeds. What the reviews do to the rows of the users
commutes up to the times that they write.
-/

namespace SyncServer.Moderation
open Transaction

/-! ## What one review does -/

/-- What the pass decides on a report. -/
structure Verdict where
  report : ModerationReport
  content : Option ReportedContent
  resolution : Resolution
  times : ReviewTimes

def verdict (env : ReviewEnv) (reports : List ModerationReport) (times : Uuid → ReviewTimes)
    (report : ModerationReport) : Verdict where
  report := report
  content := (reportedContent env report).toOption
  resolution := ⟨(automaticDecision env reports report).1,
    normalizeOptionalText (some (automaticDecision env reports report).2), none,
    (times report.id).reviewedAt⟩
  times := times report.id

namespace Verdict
variable (v : Verdict)

def clears : Bool :=
  match v.content with
  | some (.userProfile _) => true
  | _ => false

def cleared (u : User) : User := if v.clears then clearedProfile u else u

def suspends : Bool := v.resolution.action.suspends

def sanctioned (u : User) : User :=
  { u with
    avatarBase64 := if v.clears then none else u.avatarBase64
    description := if v.clears then none else u.description
    isActive := u.isActive && !v.suspends
    dmRestrictedUntil :=
      if v.suspends then u.dmRestrictedUntil else some (effectiveUntil u v.times.restrictedAt)
    safetyWarningCount :=
      if v.suspends then u.safetyWarningCount else i32 (u.safetyWarningCount + 1) }

def user (u : User) : User := if u.id = v.report.reportedUserId then v.sanctioned u else u

def message (m : Message) : Message :=
  if v.content = some (.directMessage m.id) then deletedMessage v.times.deletedAt m else m

def roomMessage (m : RoomMessage) : RoomMessage :=
  if v.content = some (.roomMessage m.id) then deletedRoomMessage v.times.deletedAt m else m

def marked (r : ModerationReport) : ModerationReport :=
  if r.id = v.report.id then v.resolution.mark r else r

theorem cleared_id (u : User) : (v.cleared u).id = u.id := by
  unfold cleared
  split <;> rfl

theorem sanctioned_id (u : User) : (v.sanctioned u).id = u.id := rfl

theorem user_id (u : User) : (v.user u).id = u.id := by
  unfold user
  split <;> rfl

theorem user_of_eq {u : User} (h : u.id = v.report.reportedUserId) : v.user u = v.sanctioned u :=
  if_pos h

theorem user_of_ne {u : User} (h : ¬ u.id = v.report.reportedUserId) : v.user u = u := if_neg h

theorem message_id (m : Message) : (v.message m).id = m.id := by
  unfold message
  split <;> rfl

theorem roomMessage_id (m : RoomMessage) : (v.roomMessage m).id = m.id := by
  unfold roomMessage
  split <;> rfl

theorem marked_id (r : ModerationReport) : (v.marked r).id = r.id := by
  unfold marked
  split <;> rfl

/-- The database after the review. -/
def apply (d : Db) : Db :=
  { d with
    users := d.users.map v.user v.user_id
    messages := d.messages.map v.message v.message_id
    roomMessages := d.roomMessages.map v.roomMessage v.roomMessage_id
    moderationReports := d.moderationReports.map v.marked v.marked_id }

end Verdict

/-! ## The program of a review -/

theorem normalizeResolutionAction_text (action : ResolutionAction) :
    normalizeResolutionAction action.text = .ok action := by
  cases action <;> decide

theorem run_updateUser (id : Uuid) (f : User → User) (hf : ∀ r, (f r).id = r.id) (s : Db) :
    (updateUser id f hf).run s = (.ok (), { s with users := s.users.update id f hf }) :=
  Query.run_exec_ok.mpr rfl

theorem run_delete (content : ReportedContent) (deletedAt : Int) (s : Db) :
    (content.delete deletedAt).run s = (.ok (), content.remove deletedAt s) := by
  cases content with
  | userProfile user => exact run_updateUser user _ _ s
  | directMessage id => exact Query.run_exec_ok.mpr rfl
  | roomMessage id => exact Query.run_exec_ok.mpr rfl

theorem run_applyTemporaryDmRestrictionConn {userId : Uuid} {u : User} {s : Db}
    (h : s.users.get userId = some u) (now : Int) :
    (applyTemporaryDmRestrictionConn userId now).run s = (.ok (), { s with
      users := s.users.update userId
        (dmRestricted (effectiveUntil u now) (i32 (u.safetyWarningCount + 1)))
        (dmRestricted_id _ _) }) := by
  rw [applyTemporaryDmRestrictionConn, Accounts.findById, Tx.run_bind_ok (Tx.run_query _ _),
    Tx.run_bind_ok (Tx.run_okOr_ok.mpr ⟨h, rfl⟩), run_updateUser]

theorem run_markReport {id : Uuid} {resolution : Resolution} {r : ModerationReport} {s : Db}
    (h : s.moderationReports.get id = some r) (hreviewer : resolution.reviewer = none) :
    (markReport id resolution).run s = (.ok (resolution.mark r), marking id resolution s) := by
  refine Query.run_exec_ok.mpr ?_
  simp only [h, hreviewer]
  rfl

/-- The removal of the content, by what it does to the rows. -/
theorem remove_eq {v : Verdict} {content : ReportedContent} (hv : v.content = some content)
    (huser : ∀ user, content = .userProfile user → user = v.report.reportedUserId) (s : Db) :
    content.remove v.times.deletedAt s =
      { s with
        users := s.users.update v.report.reportedUserId v.cleared v.cleared_id
        messages := s.messages.map v.message v.message_id
        roomMessages := s.roomMessages.map v.roomMessage v.roomMessage_id } := by
  have husers : v.clears = false →
      s.users.update v.report.reportedUserId v.cleared v.cleared_id = s.users := by
    intro hclears
    refine Table.map_id _ _ (fun u => ?_)
    simp [Verdict.cleared, hclears]
  cases content with
  | userProfile user =>
    obtain rfl := huser user rfl
    have hcleared : v.cleared = clearedProfile := by
      funext u
      simp [Verdict.cleared, Verdict.clears, hv]
    have hmessages : s.messages.map v.message v.message_id = s.messages :=
      Table.map_id _ _ (fun m => by simp [Verdict.message, hv])
    have hrooms : s.roomMessages.map v.roomMessage v.roomMessage_id = s.roomMessages :=
      Table.map_id _ _ (fun m => by simp [Verdict.roomMessage, hv])
    simp only [ReportedContent.remove, hcleared, hmessages, hrooms]
  | directMessage id =>
    have hmessages : s.messages.map v.message v.message_id = s.messages.update id
        (deletedMessage v.times.deletedAt) (deletedMessage_id v.times.deletedAt) :=
      Table.map_congr _ _ _ (fun m => by simp [Verdict.message, hv, eq_comm])
    have hrooms : s.roomMessages.map v.roomMessage v.roomMessage_id = s.roomMessages :=
      Table.map_id _ _ (fun m => by simp [Verdict.roomMessage, hv])
    simp only [ReportedContent.remove, husers (by simp [Verdict.clears, hv]), hmessages, hrooms]
  | roomMessage id =>
    have hmessages : s.messages.map v.message v.message_id = s.messages :=
      Table.map_id _ _ (fun m => by simp [Verdict.message, hv])
    have hrooms : s.roomMessages.map v.roomMessage v.roomMessage_id = s.roomMessages.update id
        (deletedRoomMessage v.times.deletedAt) (deletedRoomMessage_id v.times.deletedAt) :=
      Table.map_congr _ _ _ (fun m => by simp [Verdict.roomMessage, hv, eq_comm])
    simp only [ReportedContent.remove, husers (by simp [Verdict.clears, hv]), hmessages, hrooms]

theorem automaticDecision_cases (env : ReviewEnv) (reports : List ModerationReport)
    (report : ModerationReport) :
    (automaticDecision env reports report).1 = .removeAndSuspend ∨
      (automaticDecision env reports report).1 = .removeAndLimitNewDms := by
  unfold automaticDecision
  dsimp only
  split
  · exact .inl rfl
  · exact .inr rfl

theorem userProfile_of_reportedContent {env : ReviewEnv} {report : ModerationReport} {user : Uuid}
    (h : reportedContent env report = .ok (.userProfile user)) :
    user = report.reportedUserId := by
  unfold reportedContent at h
  generalize reportedMessage env report = message at h
  split at h
  · cases h
    rfl
  split at h
  · cases message <;> cases h
  split at h
  · cases message <;> cases h
  · cases h

/-- The effects on the reported user, once the content has been removed. -/
theorem run_sanction {v : Verdict} {s : Db} {u : User}
    (hu : s.users.get v.report.reportedUserId = some u)
    (haction : v.resolution.action = .removeAndSuspend ∨
      v.resolution.action = .removeAndLimitNewDms) {α : Type} (rest : Query α) :
    (do
      onlyIf (v.resolution.action = ResolutionAction.removeAndLimitNewDms)
        (applyTemporaryDmRestrictionConn v.report.reportedUserId v.times.restrictedAt)
      onlyIf v.resolution.action.suspends
        (updateUser v.report.reportedUserId Accounts.deactivated Accounts.deactivated_id)
      rest).run { s with
        users := s.users.update v.report.reportedUserId v.cleared v.cleared_id } =
    rest.run { s with users := s.users.map v.user v.user_id } := by
  have hget : (s.users.update v.report.reportedUserId v.cleared v.cleared_id).get
      v.report.reportedUserId = some (v.cleared u) := by
    rw [Table.get_update_self, hu]
    rfl
  change _ = rest.run { s with
    users := s.users.update v.report.reportedUserId v.sanctioned v.sanctioned_id }
  rcases haction with h | h
  · have hsuspends : ResolutionAction.removeAndSuspend.suspends = true := rfl
    rw [h, onlyIf, if_neg (by decide), Tx.run_bind_ok (Tx.run_pure _ _), onlyIf, if_pos hsuspends,
      Tx.run_bind_ok (run_updateUser _ _ _ _), Table.update_update]
    have hrow : Accounts.deactivated (v.cleared u) = v.sanctioned u := by
      unfold Verdict.cleared Verdict.sanctioned Verdict.suspends
      rw [h]
      cases v.clears <;> simp [Accounts.deactivated, clearedProfile, ResolutionAction.suspends]
    rw [Table.update_congr hu _ v.sanctioned_id hrow]
  · rw [h, onlyIf, if_pos (by decide),
      Tx.run_bind_ok (run_applyTemporaryDmRestrictionConn hget _), onlyIf, if_neg (by decide),
      Tx.run_bind_ok (Tx.run_pure _ _), Table.update_update]
    have hrow : dmRestricted (effectiveUntil (v.cleared u) v.times.restrictedAt)
        (i32 ((v.cleared u).safetyWarningCount + 1)) (v.cleared u) = v.sanctioned u := by
      unfold Verdict.cleared Verdict.sanctioned Verdict.suspends
      rw [h]
      cases v.clears <;> simp [dmRestricted, clearedProfile, ResolutionAction.suspends, effectiveUntil]
    rw [Table.update_congr hu _ v.sanctioned_id hrow]

/-- A report that can be reviewed is reviewed as the pass decides. -/
theorem run_resolveReportConn {env : ReviewEnv} {report : ModerationReport} {s : Db}
    (h : Reviewable env s report) (hreport : (s.moderationReports.get report.id).isSome)
    (reports : List ModerationReport) (times : Uuid → ReviewTimes) :
    ∃ row, (resolveReportConn env report none (automaticDecision env reports report).1.text
        (some (automaticDecision env reports report).2) (times report.id)).run s =
      (.ok row, (verdict env reports times report).apply s) := by
  obtain ⟨content, hcontent⟩ := h.content
  obtain ⟨u, hu⟩ := Option.isSome_iff_exists.mp h.user
  obtain ⟨r, hr⟩ := Option.isSome_iff_exists.mp hreport
  have haction := automaticDecision_cases env reports report
  have hremoves : (automaticDecision env reports report).1.removesContent = true := by
    rcases haction with h | h <;> rw [h] <;> rfl
  have hv : (verdict env reports times report).content = some content := by
    simp [verdict, hcontent, Except.toOption]
  have hdelete : (removeReportedContentConn env report (times report.id).deletedAt).run s =
      (.ok (), content.remove (verdict env reports times report).times.deletedAt s) := by
    rw [removeReportedContentConn, hcontent, Tx.run_bind_ok (Tx.run_done _ _), run_delete]
    rfl
  rw [remove_eq hv (fun user he => userProfile_of_reportedContent (he ▸ hcontent)) s] at hdelete
  have hsanction := run_sanction (v := verdict env reports times report)
    (s := { s with
      messages := s.messages.map (verdict env reports times report).message
        (verdict env reports times report).message_id
      roomMessages := s.roomMessages.map (verdict env reports times report).roomMessage
        (verdict env reports times report).roomMessage_id })
    hu haction (markReport report.id (verdict env reports times report).resolution)
  rw [resolveReportConn, normalizeResolutionAction_text, Tx.run_bind_ok (Tx.run_done _ _),
    onlyIf, if_pos hremoves, Tx.run_bind_ok hdelete]
  exact ⟨_, hsanction.trans (run_markReport hr rfl)⟩

/-! ## The pass -/

/-- The database after reviews of `rest`. -/
def applyVerdicts (env : ReviewEnv) (reports : List ModerationReport) (times : Uuid → ReviewTimes)
    (rest : List ModerationReport) (d : Db) : Db :=
  rest.foldl (fun d r => (verdict env reports times r).apply d) d

theorem Reviewable.apply {env : ReviewEnv} {d : Db} {report : ModerationReport}
    (h : Reviewable env d report) (v : Verdict) : Reviewable env (v.apply d) report := by
  constructor
  · change ((d.users.map v.user v.user_id).get report.reportedUserId).isSome
    rw [Table.get_map, Option.isSome_map]
    exact h.user
  · exact h.content

theorem run_reviewAll {env : ReviewEnv} (reports : List ModerationReport)
    (times : Uuid → ReviewTimes) {rest : List ModerationReport} {d : Db}
    (h : ∀ r ∈ rest, Reviewable env d r ∧ (d.moderationReports.get r.id).isSome) :
    ∃ rows, rows.length = rest.length ∧ (reviewAll env reports times rest).run d =
      (.ok rows, applyVerdicts env reports times rest d) := by
  induction rest generalizing d with
  | nil => exact ⟨[], rfl, rfl⟩
  | cons report rest ih =>
    obtain ⟨hreport, hstored⟩ := h report List.mem_cons_self
    obtain ⟨row, hrow⟩ := run_resolveReportConn hreport hstored reports times
    have hrest : ∀ r ∈ rest, Reviewable env ((verdict env reports times report).apply d) r ∧
        (((verdict env reports times report).apply d).moderationReports.get r.id).isSome := by
      intro r hr
      obtain ⟨hr, hs⟩ := h r (List.mem_cons_of_mem _ hr)
      refine ⟨hr.apply _, ?_⟩
      rw [Verdict.apply, Table.get_map, Option.isSome_map]
      exact hs
    obtain ⟨rows, hlength, hrows⟩ := ih hrest
    refine ⟨row :: rows, by simp [hlength], ?_⟩
    rw [reviewAll]
    generalize automaticDecision env reports report = decision at hrow ⊢
    rw [Tx.run_bind_ok hrow, Tx.run_bind_ok hrows]
    rfl

/-! ## Reports and users after the pass -/

def Overdue (now : Int) (r : ModerationReport) : Prop :=
  r.status = reportStatusOpen ∧ r.reviewDueAt ≤ now

instance (now : Int) (r : ModerationReport) : Decidable (Overdue now r) :=
  inferInstanceAs (Decidable (_ ∧ _))

/-- The excerpt has a blocked term, or three reports of the user are overdue. -/
def Escalated (env : ReviewEnv) (d : Db) (now : Int) (r : ModerationReport) : Prop :=
  (∃ text, r.contentExcerpt = some text ∧ (detectBlockedTerm env.unicode text).isSome) ∨
    3 ≤ d.moderationReports.rows.countP
      (fun r' => Overdue now r' ∧ r'.reportedUserId = r.reportedUserId)

/-- The overdue reports are resolved, and nothing happens to other reports and users. -/
structure PassedOver (env : ReviewEnv) (now : Int) (d d' : Db) : Prop where
  resolved : ∀ r ∈ d.moderationReports.rows, Overdue now r → ∃ r',
    d'.moderationReports.get r.id = some r' ∧ filed r' = filed r ∧
    r'.status = reportStatusResolved ∧ r'.reviewedByUserId = none ∧
    (Escalated env d now r → r'.resolutionAction = some "remove_content_and_suspend_user") ∧
    (¬ Escalated env d now r →
      r'.resolutionAction = some "remove_content_and_limit_new_direct_messages")
  others : ∀ r ∈ d.moderationReports.rows, ¬ Overdue now r →
    d'.moderationReports.get r.id = some r
  none_new : d'.moderationReports.rows.map ModerationReport.id =
    d.moderationReports.rows.map ModerationReport.id
  users : ∀ id, (∀ r ∈ d.moderationReports.rows, Overdue now r → r.reportedUserId ≠ id) →
    d'.users.get id = d.users.get id
  suspended : ∀ u ∈ d.users.rows, ∃ u', d'.users.get u.id = some u' ∧
    (u'.isActive = true ↔ u.isActive = true ∧ ∀ r ∈ d.moderationReports.rows, Overdue now r →
      r.reportedUserId = u.id → ¬ Escalated env d now r)

theorem mem_overdueReports_iff {d : Db} {now : Int} {r : ModerationReport} :
    r ∈ overdueReports d now ↔ r ∈ d.moderationReports.rows ∧ Overdue now r :=
  mem_overdueReports

theorem automaticDecision_escalated (env : ReviewEnv) (d : Db) (now : Int)
    (r : ModerationReport) :
    (automaticDecision env (overdueReports d now) r).1 = .removeAndSuspend ↔
      Escalated env d now r := by
  have hcount : (overdueReports d now).countP (fun r' => r'.reportedUserId = r.reportedUserId) =
      d.moderationReports.rows.countP
        (fun r' => Overdue now r' ∧ r'.reportedUserId = r.reportedUserId) := by
    rw [overdueReports, (List.perm_insertionSort _ _).countP_eq, List.countP_filter]
    apply List.countP_congr
    intro r' _
    simp [Overdue, and_comm]
  have hrisk : (r.contentExcerpt.bind (detectBlockedTerm env.unicode)).isSome = true ↔
      ∃ text, r.contentExcerpt = some text ∧ (detectBlockedTerm env.unicode text).isSome := by
    cases r.contentExcerpt <;> simp
  unfold automaticDecision
  dsimp only
  rw [hcount]
  split
  · rename_i h
    rw [Bool.or_eq_true, hrisk, decide_eq_true_eq] at h
    exact iff_of_true rfl h
  · rename_i h
    rw [Bool.or_eq_true, hrisk, decide_eq_true_eq] at h
    exact iff_of_false (by decide) h

section
variable {env : ReviewEnv} {reports : List ModerationReport} {times : Uuid → ReviewTimes}

theorem get_reports_applyVerdicts (rest : List ModerationReport) (d : Db) (id : Uuid) :
    (applyVerdicts env reports times rest d).moderationReports.get id =
      (d.moderationReports.get id).map
        (fun r => rest.foldl (fun r a => (verdict env reports times a).marked r) r) :=
  Table.get_foldl (fun a => (verdict env reports times a).marked_id) (fun _ _ => rfl) rest d id

theorem get_users_applyVerdicts (rest : List ModerationReport) (d : Db) (id : Uuid) :
    (applyVerdicts env reports times rest d).users.get id = (d.users.get id).map
      (fun u => rest.foldl (fun u a => (verdict env reports times a).user u) u) :=
  Table.get_foldl (fun a => (verdict env reports times a).user_id) (fun _ _ => rfl) rest d id

theorem foldl_marked_of_notMem {rest : List ModerationReport} {r : ModerationReport}
    (h : ∀ a ∈ rest, a.id ≠ r.id) :
    rest.foldl (fun r a => (verdict env reports times a).marked r) r = r := by
  induction rest with
  | nil => rfl
  | cons a rest ih =>
    have hmarked : (verdict env reports times a).marked r = r :=
      if_neg (fun he => h a List.mem_cons_self he.symm)
    rw [List.foldl_cons, hmarked]
    exact ih (fun a' ha' => h a' (List.mem_cons_of_mem _ ha'))

theorem foldl_marked_of_mem {rest : List ModerationReport} {r : ModerationReport}
    (hnodup : (rest.map ModerationReport.id).Nodup) (hr : r ∈ rest) :
    rest.foldl (fun r a => (verdict env reports times a).marked r) r =
      (verdict env reports times r).resolution.mark r := by
  obtain ⟨before, after, rfl⟩ := List.append_of_mem hr
  rw [List.map_append, List.map_cons] at hnodup
  have hdisjoint := List.nodup_middle.mp hnodup
  rw [List.nodup_cons, List.mem_append, not_or] at hdisjoint
  have hbefore : ∀ a ∈ before, a.id ≠ r.id :=
    fun a ha he => hdisjoint.1.1 (he ▸ List.mem_map_of_mem ha)
  have hafter : ∀ a ∈ after, a.id ≠ r.id :=
    fun a ha he => hdisjoint.1.2 (he ▸ List.mem_map_of_mem ha)
  have hmarked : (verdict env reports times r).marked r =
      (verdict env reports times r).resolution.mark r := if_pos rfl
  rw [List.foldl_append, foldl_marked_of_notMem hbefore, List.foldl_cons, hmarked]
  exact foldl_marked_of_notMem hafter

theorem foldl_user_of_other {rest : List ModerationReport} {u : User}
    (h : ∀ a ∈ rest, a.reportedUserId ≠ u.id) :
    rest.foldl (fun u a => (verdict env reports times a).user u) u = u := by
  induction rest with
  | nil => rfl
  | cons a rest ih =>
    have huser : (verdict env reports times a).user u = u :=
      if_neg (fun he => h a List.mem_cons_self he.symm)
    rw [List.foldl_cons, huser]
    exact ih (fun a' ha' => h a' (List.mem_cons_of_mem _ ha'))

theorem isActive_foldl_user (rest : List ModerationReport) (u : User) :
    (rest.foldl (fun u a => (verdict env reports times a).user u) u).isActive = true ↔
      u.isActive = true ∧ ∀ a ∈ rest, a.reportedUserId = u.id →
        (verdict env reports times a).suspends = false := by
  induction rest generalizing u with
  | nil => simp
  | cons a rest ih =>
    rw [List.foldl_cons, ih, Verdict.user_id, List.forall_mem_cons, ← and_assoc]
    refine and_congr_left (fun _ => ?_)
    by_cases h : u.id = a.reportedUserId
    · have huser : (verdict env reports times a).user u = (verdict env reports times a).sanctioned u :=
        if_pos h
      rw [huser]
      simp [Verdict.sanctioned, h]
    · have huser : (verdict env reports times a).user u = u := if_neg h
      rw [huser]
      simp [Ne.symm h]

end

theorem passedOver_applyVerdicts (env : ReviewEnv) (d : Db) (now : Int)
    (times : Uuid → ReviewTimes) : PassedOver env now d
      (applyVerdicts env (overdueReports d now) times (overdueReports d now) d) := by
  have hsuspends : ∀ r, (verdict env (overdueReports d now) times r).suspends = true ↔
      Escalated env d now r := by
    intro r
    rw [← automaticDecision_escalated]
    change (automaticDecision env (overdueReports d now) r).1.suspends = true ↔ _
    rcases automaticDecision_cases env (overdueReports d now) r with h | h <;>
      simp [h, ResolutionAction.suspends]
  constructor
  · intro r hr hoverdue
    refine ⟨(verdict env (overdueReports d now) times r).resolution.mark r, ?_, rfl, ?_, rfl, ?_, ?_⟩
    · rw [get_reports_applyVerdicts, Table.get_eq_some.mpr ⟨hr, rfl⟩, Option.map_some,
        foldl_marked_of_mem (overdueReports_nodup d now) (mem_overdueReports_iff.mpr ⟨hr, hoverdue⟩)]
    · change (automaticDecision env (overdueReports d now) r).1.nextStatus = _
      rcases automaticDecision_cases env (overdueReports d now) r with h | h <;> rw [h] <;> rfl
    · intro hescalated
      change some (automaticDecision env (overdueReports d now) r).1.text = _
      rw [(automaticDecision_escalated env d now r).mpr hescalated]
      rfl
    · intro hnot
      change some (automaticDecision env (overdueReports d now) r).1.text = _
      rw [(automaticDecision_cases env (overdueReports d now) r).resolve_left
        (fun h => hnot ((automaticDecision_escalated env d now r).mp h))]
      rfl
  · intro r hr hnot
    rw [get_reports_applyVerdicts, Table.get_eq_some.mpr ⟨hr, rfl⟩, Option.map_some,
      foldl_marked_of_notMem]
    intro a ha he
    obtain ⟨ha, hoverdue⟩ := mem_overdueReports_iff.mp ha
    rw [List.inj_on_of_nodup_map d.moderationReports.keys_nodup ha hr he] at hoverdue
    exact hnot hoverdue
  · exact Table.keys_foldl
      (fun a => (verdict env (overdueReports d now) times a).marked_id) (fun _ _ => rfl) _ d
  · intro id hother
    rw [get_users_applyVerdicts]
    rcases hu : d.users.get id with _ | u
    · rfl
    · obtain rfl := Table.key_of_get hu
      rw [Option.map_some, foldl_user_of_other]
      intro a ha
      obtain ⟨ha, hoverdue⟩ := mem_overdueReports_iff.mp ha
      exact hother a ha hoverdue
  · intro u hu
    rw [get_users_applyVerdicts, Table.get_eq_some.mpr ⟨hu, rfl⟩]
    refine ⟨_, rfl, (isActive_foldl_user _ _).trans (and_congr_right (fun _ => ?_))⟩
    constructor
    · intro h r hr hoverdue huser hescalated
      have := h r (mem_overdueReports_iff.mpr ⟨hr, hoverdue⟩) huser
      rw [(hsuspends r).mpr hescalated] at this
      cases this
    · intro h a ha huser
      obtain ⟨ha, hoverdue⟩ := mem_overdueReports_iff.mp ha
      rw [← Bool.not_eq_true, hsuspends]
      exact h a ha hoverdue huser

/-! ## The order of the reviews -/

def untimed (time : Option Int) : Option Int := time.map (fun _ => 0)

def timelessUser (u : User) : User := { u with dmRestrictedUntil := untimed u.dmRestrictedUntil }

def timelessMessage (m : Message) : Message := { m with deletedAt := untimed m.deletedAt }

def timelessRoomMessage (m : RoomMessage) : RoomMessage :=
  { m with deletedAt := untimed m.deletedAt }

def timelessReport (r : ModerationReport) : ModerationReport :=
  { r with reviewedAt := untimed r.reviewedAt }

/-- The database without the times that reviews write. -/
def timeless (d : Db) : Db :=
  { d with
    users := d.users.map timelessUser (fun _ => rfl)
    messages := d.messages.map timelessMessage (fun _ => rfl)
    roomMessages := d.roomMessages.map timelessRoomMessage (fun _ => rfl)
    moderationReports := d.moderationReports.map timelessReport (fun _ => rfl) }

/-- Two verdicts that differ in their times only. -/
structure SameVerdict (v v' : Verdict) : Prop where
  report : v.report = v'.report
  content : v.content = v'.content
  action : v.resolution.action = v'.resolution.action
  notes : v.resolution.notes = v'.resolution.notes
  reviewer : v.resolution.reviewer = v'.resolution.reviewer

section
variable {v v' : Verdict}

theorem timelessUser_user (h : SameVerdict v v') (u : User) :
    timelessUser (v.user u) = timelessUser (v'.user (timelessUser u)) := by
  have hclears : v.clears = v'.clears := by simp [Verdict.clears, h.content]
  have hsuspends : v.suspends = v'.suspends := by simp [Verdict.suspends, h.action]
  have hreport : v.report.reportedUserId = v'.report.reportedUserId := by rw [h.report]
  unfold Verdict.user
  rw [hreport]
  by_cases hid : u.id = v'.report.reportedUserId
  · rw [if_pos hid, if_pos (show (timelessUser u).id = _ from hid)]
    unfold Verdict.sanctioned
    rw [hclears, hsuspends]
    cases v'.suspends <;> simp [timelessUser, untimed, Function.comp_def]
  · rw [if_neg hid, if_neg (show ¬ (timelessUser u).id = _ from hid)]
    simp [timelessUser, untimed, Function.comp_def]

theorem timelessMessage_message (h : SameVerdict v v') (m : Message) :
    timelessMessage (v.message m) = timelessMessage (v'.message (timelessMessage m)) := by
  unfold Verdict.message
  rw [h.content]
  by_cases hid : v'.content = some (.directMessage m.id)
  · rw [if_pos hid, if_pos (show v'.content = some (.directMessage (timelessMessage m).id) from hid)]
    rfl
  · rw [if_neg hid,
      if_neg (show ¬ v'.content = some (.directMessage (timelessMessage m).id) from hid)]
    simp [timelessMessage, untimed, Function.comp_def]

theorem timelessRoomMessage_roomMessage (h : SameVerdict v v') (m : RoomMessage) :
    timelessRoomMessage (v.roomMessage m) =
      timelessRoomMessage (v'.roomMessage (timelessRoomMessage m)) := by
  unfold Verdict.roomMessage
  rw [h.content]
  by_cases hid : v'.content = some (.roomMessage m.id)
  · rw [if_pos hid,
      if_pos (show v'.content = some (.roomMessage (timelessRoomMessage m).id) from hid)]
    rfl
  · rw [if_neg hid,
      if_neg (show ¬ v'.content = some (.roomMessage (timelessRoomMessage m).id) from hid)]
    simp [timelessRoomMessage, untimed, Function.comp_def]

theorem timelessReport_marked (h : SameVerdict v v') (r : ModerationReport) :
    timelessReport (v.marked r) = timelessReport (v'.marked (timelessReport r)) := by
  unfold Verdict.marked
  rw [h.report]
  by_cases hid : r.id = v'.report.id
  · rw [if_pos hid, if_pos (show (timelessReport r).id = v'.report.id from hid)]
    simp [timelessReport, Resolution.mark, untimed, h.action, h.notes, h.reviewer]
  · rw [if_neg hid, if_neg (show ¬ (timelessReport r).id = v'.report.id from hid)]
    simp [timelessReport, untimed, Function.comp_def]

theorem timeless_apply (h : SameVerdict v v') (d : Db) :
    timeless (v.apply d) = timeless (v'.apply (timeless d)) := by
  unfold timeless Verdict.apply
  dsimp only
  congr 1
  · exact Table.map_factor _ _ _ _ (timelessUser_user h)
  · exact Table.map_factor _ _ _ _ (timelessMessage_message h)
  · exact Table.map_factor _ _ _ _ (timelessReport_marked h)
  · exact Table.map_factor _ _ _ _ (timelessRoomMessage_roomMessage h)

theorem timelessUser_comm (v v' : Verdict) (u : User) :
    timelessUser (v'.user (v.user u)) = timelessUser (v.user (v'.user u)) := by
  by_cases h : u.id = v.report.reportedUserId
  · rw [v.user_of_eq h]
    by_cases h' : u.id = v'.report.reportedUserId
    · rw [v'.user_of_eq h', v'.user_of_eq (show (v.sanctioned u).id = _ from h'),
        v.user_of_eq (show (v'.sanctioned u).id = _ from h)]
      unfold Verdict.sanctioned
      cases v.clears <;> cases v'.clears <;> cases v.suspends <;> cases v'.suspends <;>
        simp [timelessUser, untimed]
    · rw [v'.user_of_ne h', v'.user_of_ne (show ¬ (v.sanctioned u).id = _ from h'), v.user_of_eq h]
  · rw [v.user_of_ne h, v.user_of_ne (by rwa [v'.user_id])]

theorem timelessMessage_comm (v v' : Verdict) (m : Message) :
    timelessMessage (v'.message (v.message m)) = timelessMessage (v.message (v'.message m)) := by
  unfold Verdict.message
  by_cases h : v.content = some (.directMessage m.id) <;>
    by_cases h' : v'.content = some (.directMessage m.id) <;>
      simp [h, h', timelessMessage, deletedMessage, untimed]

theorem timelessRoomMessage_comm (v v' : Verdict) (m : RoomMessage) :
    timelessRoomMessage (v'.roomMessage (v.roomMessage m)) =
      timelessRoomMessage (v.roomMessage (v'.roomMessage m)) := by
  unfold Verdict.roomMessage
  by_cases h : v.content = some (.roomMessage m.id) <;>
    by_cases h' : v'.content = some (.roomMessage m.id) <;>
      simp [h, h', timelessRoomMessage, deletedRoomMessage, untimed]

theorem timelessReport_comm (h : v.report.id ≠ v'.report.id) (r : ModerationReport) :
    timelessReport (v'.marked (v.marked r)) = timelessReport (v.marked (v'.marked r)) := by
  unfold Verdict.marked
  by_cases hr : r.id = v.report.id
  · have hr' : r.id ≠ v'.report.id := hr ▸ h
    simp [hr, h, Resolution.mark_id]
  · by_cases hr' : r.id = v'.report.id <;> simp [hr, hr', Resolution.mark_id, Ne.symm h]

theorem timeless_comm (h : v.report.id ≠ v'.report.id) (d : Db) :
    timeless (v'.apply (v.apply d)) = timeless (v.apply (v'.apply d)) := by
  unfold timeless Verdict.apply
  dsimp only
  congr 1
  · exact Table.map_comm _ _ _ _ (timelessUser_comm v v')
  · exact Table.map_comm _ _ _ _ (timelessMessage_comm v v')
  · exact Table.map_comm _ _ _ _ (timelessReport_comm h)
  · exact Table.map_comm _ _ _ _ (timelessRoomMessage_comm v v')

end

theorem automaticDecision_perm (env : ReviewEnv) {reports reports' : List ModerationReport}
    (h : reports.Perm reports') (r : ModerationReport) :
    automaticDecision env reports r = automaticDecision env reports' r := by
  unfold automaticDecision
  rw [h.countP_eq]

theorem timeless_applyVerdicts (env : ReviewEnv) {reports order : List ModerationReport}
    (hnodup : (reports.map ModerationReport.id).Nodup) (h : order.Perm reports)
    (times times' : Uuid → ReviewTimes) (d : Db) :
    timeless (applyVerdicts env order times' order d) =
      timeless (applyVerdicts env reports times reports d) := by
  have hfold : ∀ (l rest : List ModerationReport) (clocks : Uuid → ReviewTimes) (d : Db),
      l.Perm reports → timeless (applyVerdicts env l clocks rest d) =
        rest.foldl (fun d r => timeless
          ((verdict env reports (fun _ => ⟨0, 0, 0⟩) r).apply d)) (timeless d) := by
    intro l rest clocks d hl
    refine (List.foldl_hom timeless (fun d r => ?_)).symm
    have hsame : SameVerdict (verdict env l clocks r) (verdict env reports (fun _ => ⟨0, 0, 0⟩) r) := by
      constructor <;> simp [verdict, automaticDecision_perm env hl]
    exact (timeless_apply hsame d).symm
  rw [hfold order order times' d h, hfold reports reports times d (.refl _)]
  refine h.foldl_eq' (fun a ha b hb d => ?_) _
  have hsame : ∀ r, SameVerdict (verdict env reports (fun _ => ⟨0, 0, 0⟩) r)
      (verdict env reports (fun _ => ⟨0, 0, 0⟩) r) := fun _ => ⟨rfl, rfl, rfl, rfl, rfl⟩
  rw [← timeless_apply (hsame b), ← timeless_apply (hsame a)]
  by_cases hab : a.id = b.id
  · rw [List.inj_on_of_nodup_map hnodup (h.subset ha) (h.subset hb) hab]
  · exact timeless_comm hab d

/-- In every database that is reached from one without reports, the automatic review succeeds,
resolves the overdue reports as it should and changes nothing else, and the order of the reports
matters for the times only. -/
theorem automatic_review_exact (env : ReviewEnv) (start : Db)
    (hstart : start.moderationReports = .empty) (calls : List ModerationCall) (d : Db)
    (hd : d = runModeration env start calls) (now : Int) (times : Uuid → ReviewTimes) :
    ∃ d', (runAutomaticReviewPass env now times).atomically d =
        (.ok (overdueReports d now).length, d') ∧
      PassedOver env now d d' ∧
      ∀ order : List ModerationReport, order.Perm (overdueReports d now) →
        ∀ times', ∃ rows d'', (reviewAll env order times' order).atomically d = (.ok rows, d'') ∧
          timeless d'' = timeless d' := by
  have hall : AllReviewable env d := by
    have hnone : AllReviewable env start := by
      intro r hr
      rw [hstart] at hr
      cases hr
    exact hd ▸ hnone.run calls
  have hready : ∀ order : List ModerationReport, order.Perm (overdueReports d now) →
      ∀ r ∈ order, Reviewable env d r ∧ (d.moderationReports.get r.id).isSome := by
    intro order horder r hr
    have hmem := (mem_overdueReports_iff.mp (horder.subset hr)).1
    exact ⟨hall r hmem, by rw [Table.get_eq_some.mpr ⟨hmem, rfl⟩]; rfl⟩
  obtain ⟨rows, hlength, hrun⟩ :=
    run_reviewAll (overdueReports d now) times (hready _ (.refl _))
  refine ⟨_, ?_, passedOver_applyVerdicts env d now times, fun order horder times' => ?_⟩
  · apply Tx.atomically_ok
    rw [runAutomaticReviewPass, reviewOverdue, Tx.bind_assoc, Tx.run_bind_ok (Tx.run_query _ _),
      Tx.run_bind_ok hrun, ← hlength]
    rfl
  · obtain ⟨rows', -, hrun'⟩ := run_reviewAll order times' (hready order horder)
    exact ⟨rows', _, Tx.atomically_ok hrun',
      timeless_applyVerdicts env (overdueReports_nodup d now) horder times times' d⟩

/-! ## A report of a profile -/

def twoUsers : Db :=
  { Db.empty with
    users := ⟨[reviewUser 1 "alice" "user", reviewUser 2 "bob" "user"], by decide⟩ }

/-- Alice reports the profile of Bob. -/
def afterProfileReport : Db :=
  runModeration asciiReviews twoUsers [.createReport 1
    ⟨2, "user_report", "user_profile", none, "spam", none, none⟩ ⟨5, 0⟩]

/-- A day later the report is resolved, and Bob stays active. -/
theorem automatic_review_exact_bob : ∃ d',
    (runAutomaticReviewPass asciiReviews (Duration.days 1) (fun _ => ⟨1, 2, 3⟩)).atomically
      afterProfileReport = (.ok 1, d') ∧ PassedOver asciiReviews (Duration.days 1)
        afterProfileReport d' := by
  obtain ⟨d', hrun, hpassed, -⟩ := automatic_review_exact asciiReviews twoUsers rfl [.createReport 1
    ⟨2, "user_report", "user_profile", none, "spam", none, none⟩ ⟨5, 0⟩] afterProfileReport rfl
    (Duration.days 1) (fun _ => ⟨1, 2, 3⟩)
  have hone : (overdueReports afterProfileReport (Duration.days 1)).length = 1 := by decide
  exact ⟨d', hone ▸ hrun, hpassed⟩

end SyncServer.Moderation
