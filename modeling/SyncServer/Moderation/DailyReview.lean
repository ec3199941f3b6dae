import SyncServer.Moderation.AutomaticReview

/-! # The daily review

The server looks every few minutes whether it is time for the automatic review, and remembers the
day on which it made it. Whatever is filed and reviewed in between, the review is made once a day,
and no report that was due by the beginning of the hour of the review stays open after it.
-/

namespace SyncServer.Moderation
open Transaction

def dailyAutoReviewHourUtc : Int := 2

/-- `Timelike::hour`. -/
def hour (t : Int) : Int := (t - midnight (dateNaive t)) / Duration.hours 1

/-- The database, and the day of the last review that the process knows of. -/
structure ReviewServer where
  db : Db
  lastRun : Option Int

/-- What the task takes from outside when it looks at the clock. -/
structure Tick where
  now : Int
  connection : Except AppError Unit
  startedAt : Int
  times : Uuid → ReviewTimes

/-- `maybe_run_daily_automatic_review`. -/
def maybeRunDailyAutomaticReview (env : ReviewEnv) (tick : Tick) (s : ReviewServer) :
    Except AppError Bool × ReviewServer :=
  if hour tick.now ≠ dailyAutoReviewHourUtc then (.ok false, s)
  else if s.lastRun = some (dateNaive tick.now) then (.ok false, s)
  else match tick.connection with
    | .error e => (.error e, s)
    | .ok () =>
      match (runAutomaticReviewPass env tick.startedAt tick.times).atomically s.db with
      | (.ok _, d) => (.ok true, ⟨d, some (dateNaive tick.now)⟩)
      | (.error e, d) => (.error e, ⟨d, s.lastRun⟩)

/-- A call, a look at the clock, or a restart of the process. -/
inductive DailyEvent where
  | call (call : ModerationCall)
  | tick (tick : Tick)
  | restart

namespace ReviewServer

def step (env : ReviewEnv) (s : ReviewServer) : DailyEvent → ReviewServer
  | .call call => { s with db := call.serve env s.db }
  | .tick tick => (maybeRunDailyAutomaticReview env tick s).2
  | .restart => { s with lastRun := none }

def run (env : ReviewEnv) (s : ReviewServer) (events : List DailyEvent) : ReviewServer :=
  events.foldl (step env) s

@[simp] theorem run_nil (env : ReviewEnv) (s : ReviewServer) : s.run env [] = s := rfl

@[simp] theorem run_cons (env : ReviewEnv) (s : ReviewServer) (event : DailyEvent)
    (events : List DailyEvent) : s.run env (event :: events) = (s.step env event).run env events := rfl

/-- The day of the review that an event completes. -/
def completed (env : ReviewEnv) (s : ReviewServer) : DailyEvent → Option Int
  | .tick tick =>
    match (maybeRunDailyAutomaticReview env tick s).1 with
    | .ok true => some (dateNaive tick.now)
    | _ => none
  | _ => none

/-- The days of the reviews of a run. -/
def reviewDays (env : ReviewEnv) : ReviewServer → List DailyEvent → List Int
  | _, [] => []
  | s, event :: events => (s.completed env event).toList ++ reviewDays env (s.step env event) events

end ReviewServer

def ModerationCall.filedAt : ModerationCall → Option Int
  | createReport _ _ new => some new.now
  | blockUser _ _ _ _ new _ => some new.now
  | _ => none

/-- The clock does not go back. -/
def Timed : Int → List DailyEvent → Prop
  | _, [] => True
  | t, .call call :: events => (∀ now ∈ call.filedAt, t ≤ now) ∧ Timed ((call.filedAt).getD t) events
  | t, .tick tick :: events => t ≤ tick.now ∧ tick.now ≤ tick.startedAt ∧ Timed tick.startedAt events
  | t, .restart :: events => Timed t events

instance decidableTimed : (t : Int) → (events : List DailyEvent) → Decidable (Timed t events)
  | _, [] => isTrue trivial
  | t, .call call :: events =>
    haveI := decidableTimed (call.filedAt.getD t) events
    inferInstanceAs (Decidable ((∀ now ∈ call.filedAt, t ≤ now) ∧ Timed (call.filedAt.getD t) events))
  | t, .tick tick :: events =>
    haveI := decidableTimed tick.startedAt events
    inferInstanceAs (Decidable (t ≤ tick.now ∧ tick.now ≤ tick.startedAt ∧ Timed tick.startedAt events))
  | t, .restart :: events => decidableTimed t events

/-! ## Open reports -/

def Narrows (d d' : Db) : Prop :=
  ∀ r' ∈ d'.moderationReports.rows, r'.status = reportStatusOpen →
    ∃ r ∈ d.moderationReports.rows, r.status = reportStatusOpen ∧ r.reviewDueAt = r'.reviewDueAt

theorem Narrows.refl (d : Db) : Narrows d d := fun r hr hopen => ⟨r, hr, hopen, rfl⟩

theorem Narrows.trans {d d' d'' : Db} (h : Narrows d d') (h' : Narrows d' d'') : Narrows d d'' := by
  intro r'' hr'' hopen''
  obtain ⟨r', hr', hopen', hdue'⟩ := h' r'' hr'' hopen''
  obtain ⟨r, hr, hopen, hdue⟩ := h r' hr' hopen'
  exact ⟨r, hr, hopen, hdue.trans hdue'⟩

theorem Narrows.of_eq {d d' : Db} (h : d'.moderationReports = d.moderationReports) : Narrows d d' :=
  fun r hr hopen => ⟨r, h ▸ hr, hopen, rfl⟩

def DueAfter (limit : Int) (d : Db) : Prop :=
  ∀ r ∈ d.moderationReports.rows, r.status = reportStatusOpen → limit < r.reviewDueAt

theorem DueAfter.narrows {limit : Int} {d d' : Db} (h : DueAfter limit d) (hd : Narrows d d') :
    DueAfter limit d' := by
  intro r' hr' hopen'
  obtain ⟨r, hr, hopen, hdue⟩ := hd r' hr' hopen'
  exact hdue ▸ h r hr hopen

theorem narrows_marking (id : Uuid) (resolution : Resolution) (d : Db) :
    Narrows d (marking id resolution d) := by
  intro r' hr' hopen
  obtain ⟨r, hr, rfl⟩ := List.mem_map.mp hr'
  by_cases hid : r.id = id
  · simp only [if_pos hid] at hopen
    exact absurd hopen (nextStatus_ne_open _)
  · simp only [if_neg hid] at hopen ⊢
    exact ⟨r, hr, hopen, rfl⟩

theorem narrows_withoutUser (userId : Uuid) (d : Db) :
    Narrows d (Accounts.withoutUser userId d) := by
  intro r' hr' hopen
  obtain ⟨r, hr, rfl⟩ := List.mem_map.mp hr'
  exact ⟨r, (List.mem_filter.mp hr).1, hopen, rfl⟩

section
variable {env : ReviewEnv}

theorem narrows_onlyIf {condition : Bool} {t : Query Unit}
    (h : t.Writes (fun w => ∀ d, Narrows d (w d))) :
    (onlyIf condition t).Writes (fun w => ∀ d, Narrows d (w d)) := by
  unfold onlyIf
  split
  · exact h
  · trivial

theorem narrows_updateUser (id : Uuid) (f : User → User) (hf : ∀ r, (f r).id = r.id) :
    (updateUser id f hf).Writes (fun w => ∀ d, Narrows d (w d)) := by
  refine Query.writes_exec Narrows.refl (fun d _ d' h => ?_)
  cases h
  exact .of_eq rfl

theorem narrows_delete (content : ReportedContent) (deletedAt : Int) :
    (content.delete deletedAt).Writes (fun w => ∀ d, Narrows d (w d)) := by
  cases content with
  | userProfile user => exact narrows_updateUser user _ _
  | directMessage id | roomMessage id =>
    refine Query.writes_exec Narrows.refl (fun d _ d' h => ?_)
    cases h
    exact .of_eq rfl

-- what a review writes is read off its statements, without running it
attribute [local irreducible] Tx.Writes

theorem narrows_resolveReportConn (report : ModerationReport) (reviewer : Option Uuid)
    (action : String) (notes : Option String) (times : ReviewTimes) :
    (resolveReportConn env report reviewer action notes times).Writes
      (fun w => ∀ d, Narrows d (w d)) := by
  refine Tx.writes_bind (Tx.writes_done _ _) (fun action => ?_)
  refine Tx.writes_bind (narrows_onlyIf ?_) (fun _ => ?_)
  · exact Tx.writes_bind (Tx.writes_done _ _) (fun content => narrows_delete content _)
  refine Tx.writes_bind (narrows_onlyIf ?_) (fun _ => ?_)
  · refine Tx.writes_bind (Tx.writes_query Narrows.refl _) (fun found => ?_)
    refine Tx.writes_bind (Tx.writes_okOr _ _ found) (fun user => ?_)
    exact narrows_updateUser _ _ _
  refine Tx.writes_bind (narrows_onlyIf (narrows_updateUser _ _ _)) (fun _ => ?_)
  refine Query.writes_exec Narrows.refl (fun d _ d' h => ?_)
  split at h
  · cases h
  split at h
  · cases h
    exact narrows_marking _ _ d
  · cases h

theorem narrows_resolveReport (reportId reviewer : Uuid) (action : String) (notes : Option String)
    (times : ReviewTimes) : (resolveReport env reportId reviewer action notes times).Writes
      (fun w => ∀ d, Narrows d (w d)) := by
  refine Tx.writes_bind (Tx.writes_query Narrows.refl _) (fun found => ?_)
  refine Tx.writes_bind (Tx.writes_okOr _ _ found) (fun report => ?_)
  split
  · exact Tx.writes_done _ _
  refine Tx.writes_bind (narrows_resolveReportConn report _ _ _ _) (fun updated => ?_)
  refine Tx.writes_bind ?_ (fun views => Tx.writes_okOr _ _ _)
  unfold reportsToAdminViews
  split
  · exact Tx.writes_done _ _
  · exact Tx.writes_query Narrows.refl _

theorem narrows_reviewAll (reports : List ModerationReport) (times : Uuid → ReviewTimes)
    (rest : List ModerationReport) :
    (reviewAll env reports times rest).Writes (fun w => ∀ d, Narrows d (w d)) := by
  induction rest with
  | nil => exact Tx.writes_done _ _
  | cons report rest ih =>
    rw [reviewAll]
    generalize automaticDecision env reports report = decision
    refine Tx.writes_bind (narrows_resolveReportConn report _ _ _ _) (fun updated => ?_)
    exact Tx.writes_bind ih (fun reviewed => Tx.writes_done _ _)

theorem narrows_runAutomaticReviewPass (now : Int) (times : Uuid → ReviewTimes) :
    (runAutomaticReviewPass env now times).Writes (fun w => ∀ d, Narrows d (w d)) := by
  unfold runAutomaticReviewPass reviewOverdue
  refine Tx.writes_bind (Tx.writes_bind (Tx.writes_query Narrows.refl _) (fun reports => ?_))
    (fun reviewed => Tx.writes_done _ _)
  exact narrows_reviewAll reports times reports

theorem narrows_atomically {α : Type} {q : Query α} (h : q.Writes (fun w => ∀ d, Narrows d (w d)))
    (d : Db) : Narrows d (q.atomically d).2 := by
  rcases Tx.atomically_snd_cases q d with ⟨a, ha⟩ | hsame
  · have hrel := Tx.Writes.rel Narrows.refl Narrows.trans h d
    rwa [ha] at hrel
  · rw [hsame]
    exact .refl d

theorem DueAfter.atomically {α : Type} {limit : Int} {d : Db} (h : DueAfter limit d) {q : Query α}
    (hq : ∀ a d', q.run d = (.ok a, d') → DueAfter limit d') :
    DueAfter limit (q.atomically d).2 := by
  rcases Tx.atomically_snd_cases q d with ⟨a, ha⟩ | hsame
  · exact hq a _ ha
  · rwa [hsame]

theorem dueAfter_createReportConn {limit : Int} {d d' : Db} (h : DueAfter limit d)
    {reporterUserId : Uuid} {input : ReportInput} {new : NewReport} {row : ModerationReport}
    (hnew : limit < new.now + Duration.days 1)
    (hrun : (createReportConn env reporterUserId input new).run d = (.ok row, d')) :
    DueAfter limit d' := by
  obtain ⟨source, contentKind, excerpt, -, -, -, rfl, -, t, hins, rfl⟩ :=
    run_createReportConn_filed hrun
  intro r hr hopen
  have hr : r ∈ t.rows := hr
  rw [Table.rows_of_insert hins, List.mem_append, List.mem_singleton] at hr
  rcases hr with hr | rfl
  · exact h r hr hopen
  · exact hnew

theorem dueAfter_serve {limit : Int} {d : Db} (h : DueAfter limit d) (call : ModerationCall)
    (hfiled : ∀ now ∈ call.filedAt, limit < now + Duration.days 1) :
    DueAfter limit (call.serve env d) := by
  cases call with
  | createReport reporterUserId input new =>
    exact h.atomically (fun row d' hrun => dueAfter_createReportConn h (hfiled _ rfl) hrun)
  | blockUser blockerUserId blockedUserId reasonCode reporterNote new blockedAt =>
    refine h.atomically (fun view d' hrun => ?_)
    obtain ⟨-, rfl⟩ | ⟨row, d₁, t, hrow, rfl⟩ := run_blockUser_ok hrun
    · exact h
    · have hrow := dueAfter_createReportConn h (hfiled _ rfl) hrow
      exact fun r hr hopen => hrow r hr hopen
  | unblockUser blockerUserId blockedUserId => exact h
  | resolveReport reportId reviewer action notes times =>
    exact h.narrows (narrows_atomically (narrows_resolveReport reportId reviewer action notes times) d)
  | automaticReview now times =>
    exact h.narrows (narrows_atomically (narrows_runAutomaticReviewPass now times) d)
  | messages direct inRooms => exact h
  | deleteUser userId =>
    have hdelete : DueAfter limit ((Accounts.deleteUser userId).run d).2 := by
      rw [Accounts.run_deleteUser]
      split
      · exact h.narrows (narrows_withoutUser userId d)
      · exact h
    exact hdelete

/-! ## The pass -/

/-- The pass succeeds, and leaves no report open that was due. -/
theorem run_pass {d : Db} (hall : AllReviewable env d) (now : Int) (times : Uuid → ReviewTimes) :
    ∃ n d', (runAutomaticReviewPass env now times).atomically d = (.ok n, d') ∧ DueAfter now d' := by
  have hready : ∀ r ∈ overdueReports d now,
      Reviewable env d r ∧ (d.moderationReports.get r.id).isSome := by
    intro r hr
    have hmem := (mem_overdueReports_iff.mp hr).1
    exact ⟨hall r hmem, by rw [Table.get_eq_some.mpr ⟨hmem, rfl⟩]; rfl⟩
  obtain ⟨rows, -, hrun⟩ := run_reviewAll (overdueReports d now) times hready
  refine ⟨rows.length, applyVerdicts env (overdueReports d now) times (overdueReports d now) d,
    Tx.atomically_ok ?_, ?_⟩
  · rw [runAutomaticReviewPass, reviewOverdue, Tx.bind_assoc, Tx.run_bind_ok (Tx.run_query _ _),
      Tx.run_bind_ok hrun]
    rfl
  · have hpassed := passedOver_applyVerdicts env d now times
    intro r' hr' hopen
    obtain ⟨r, hr, hid⟩ := List.mem_map.mp (hpassed.none_new ▸ List.mem_map_of_mem hr')
    have hget := Table.get_eq_some.mpr ⟨hr', hid.symm⟩
    by_cases hdue : Overdue now r
    · obtain ⟨r'', hr'', -, hstatus, -⟩ := hpassed.resolved r hr hdue
      rw [hget] at hr''
      cases hr''
      exact absurd (hopen.symm.trans hstatus) (by decide)
    · have hsame := hpassed.others r hr hdue
      rw [hget] at hsame
      cases hsame
      exact lt_of_not_ge (fun h => hdue ⟨hopen, h⟩)

end

/-! ## Runs -/

section
variable {env : ReviewEnv} {s : ReviewServer}

/-- The begin of the hour of the review on a day. -/
def reviewTime (day : Int) : Int := midnight day + Duration.hours dailyAutoReviewHourUtc

theorem reviewTime_le {t : Int} (h : hour t = dailyAutoReviewHourUtc) :
    reviewTime (dateNaive t) ≤ t := by
  unfold hour dailyAutoReviewHourUtc Duration.hours at h
  unfold reviewTime dailyAutoReviewHourUtc Duration.hours
  omega

theorem reviewTime_lt_due {day t : Int} (h : day ≤ dateNaive t) :
    reviewTime day < t + Duration.days 1 := by
  have := midnight_le_iff.mpr h
  unfold reviewTime dailyAutoReviewHourUtc Duration.hours Duration.days
  omega

structure DailyInv (env : ReviewEnv) (t : Int) (s : ReviewServer) : Prop where
  reviewable : AllReviewable env s.db
  past : ∀ day ∈ s.lastRun, day ≤ dateNaive t
  cleared : ∀ day ∈ s.lastRun, DueAfter (reviewTime day) s.db

theorem DailyInv.mono {t t' : Int} (h : DailyInv env t s) (ht : t ≤ t') : DailyInv env t' s :=
  ⟨h.reviewable, fun day hday => (h.past day hday).trans (dateNaive_mono ht), h.cleared⟩

/-- A look at the clock in the hour of the review leaves no report open that was due by then. -/
theorem DailyInv.tick {t : Int} (h : DailyInv env t s) {tick : Tick} (ht : t ≤ tick.now)
    (hstarted : tick.now ≤ tick.startedAt) :
    DailyInv env tick.startedAt (maybeRunDailyAutomaticReview env tick s).2 ∧
      (tick.connection = .ok () → hour tick.now = dailyAutoReviewHourUtc →
        (maybeRunDailyAutomaticReview env tick s).1 =
            .ok (decide (s.lastRun ≠ some (dateNaive tick.now))) ∧
          DueAfter (reviewTime (dateNaive tick.now)) (maybeRunDailyAutomaticReview env tick s).2.db) := by
  have hlater := h.mono (ht.trans hstarted)
  unfold maybeRunDailyAutomaticReview
  by_cases hhour : hour tick.now = dailyAutoReviewHourUtc
  · rw [if_neg (not_not.mpr hhour)]
    by_cases hdone : s.lastRun = some (dateNaive tick.now)
    · rw [if_pos hdone]
      refine ⟨hlater, fun _ _ => ⟨by simp [hdone], h.cleared _ hdone⟩⟩
    · rw [if_neg hdone]
      rcases hconn : tick.connection with e | u
      · exact ⟨hlater, fun h => by cases h⟩
      · obtain ⟨n, d, hrun, hdue⟩ := run_pass h.reviewable tick.startedAt tick.times
        have hcleared : DueAfter (reviewTime (dateNaive tick.now)) d := by
          intro r hr hopen
          exact ((reviewTime_le hhour).trans hstarted).trans_lt (hdue r hr hopen)
        have hall : AllReviewable env
            ((runAutomaticReviewPass env tick.startedAt tick.times).atomically s.db).2 :=
          h.reviewable.serve (.automaticReview tick.startedAt tick.times)
        rw [hrun] at hall
        dsimp only
        rw [hrun]
        refine ⟨⟨hall, ?_, ?_⟩, fun _ _ => ⟨by simp [hdone], hcleared⟩⟩
        · rintro day ⟨⟩
          exact dateNaive_mono hstarted
        · rintro day ⟨⟩
          exact hcleared
  · rw [if_pos hhour]
    exact ⟨hlater, fun _ h => absurd h hhour⟩

def timeAfter (t : Int) : DailyEvent → Int
  | .call call => call.filedAt.getD t
  | .tick tick => tick.startedAt
  | .restart => t

theorem DailyInv.step {t : Int} (h : DailyInv env t s) {event : DailyEvent}
    {events : List DailyEvent} (htimed : Timed t (event :: events)) :
    DailyInv env (timeAfter t event) (s.step env event) ∧ Timed (timeAfter t event) events := by
  cases event with
  | call call =>
    obtain ⟨hfiled, hrest⟩ := htimed
    have hlater : t ≤ call.filedAt.getD t := by
      cases hat : call.filedAt with
      | none => exact le_rfl
      | some now => exact hfiled now hat
    refine ⟨⟨h.reviewable.serve call, (h.mono hlater).past, fun day hday => ?_⟩, hrest⟩
    refine dueAfter_serve (h.cleared day hday) call (fun now hnow => ?_)
    exact reviewTime_lt_due ((h.past day hday).trans (dateNaive_mono (hfiled now hnow)))
  | tick tick =>
    obtain ⟨hnow, hstarted, hrest⟩ := htimed
    exact ⟨(h.tick hnow hstarted).1, hrest⟩
  | restart =>
    exact ⟨⟨h.reviewable, by rintro day ⟨⟩, by rintro day ⟨⟩⟩, htimed⟩

theorem DailyInv.run {t : Int} (h : DailyInv env t s) {before after : List DailyEvent}
    (htimed : Timed t (before ++ after)) :
    ∃ t', DailyInv env t' (s.run env before) ∧ Timed t' after := by
  induction before generalizing s t with
  | nil => exact ⟨t, h, htimed⟩
  | cons event before ih =>
    obtain ⟨hstep, hrest⟩ := h.step htimed
    exact ih hstep hrest

theorem maybeRun_cases {t : Int} (h : DailyInv env t s) {tick : Tick} (hnow : t ≤ tick.now) :
    ((maybeRunDailyAutomaticReview env tick s).1 ≠ .ok true ∧
        (maybeRunDailyAutomaticReview env tick s).2.lastRun = s.lastRun) ∨
      ((maybeRunDailyAutomaticReview env tick s).1 = .ok true ∧
        (maybeRunDailyAutomaticReview env tick s).2.lastRun = some (dateNaive tick.now) ∧
        ∀ last ∈ s.lastRun, last < dateNaive tick.now) := by
  unfold maybeRunDailyAutomaticReview
  split
  · exact .inl ⟨by simp, rfl⟩
  split
  · exact .inl ⟨by simp, rfl⟩
  rename_i hother
  split
  · exact .inl ⟨by simp, rfl⟩
  split
  · refine .inr ⟨rfl, rfl, fun last hlast => ?_⟩
    have hpast := (h.past last hlast).trans (dateNaive_mono hnow)
    rw [Option.mem_def] at hlast
    rw [hlast, Option.some.injEq] at hother
    omega
  · exact .inl ⟨by simp, rfl⟩

theorem completed_cases {t : Int} (h : DailyInv env t s) {event : DailyEvent}
    {events : List DailyEvent} (htimed : Timed t (event :: events)) (hrestart : event ≠ .restart) :
    (s.completed env event = none ∧ (s.step env event).lastRun = s.lastRun) ∨
      ∃ day, s.completed env event = some day ∧ (s.step env event).lastRun = some day ∧
        ∀ last ∈ s.lastRun, last < day := by
  cases event with
  | call call => exact .inl ⟨rfl, rfl⟩
  | restart => exact absurd rfl hrestart
  | tick tick =>
    rcases maybeRun_cases h htimed.1 with ⟨hno, hsame⟩ | ⟨hyes, hlast, hlater⟩
    · refine .inl ⟨?_, hsame⟩
      simp [ReviewServer.completed]
    · refine .inr ⟨dateNaive tick.now, ?_, hlast, hlater⟩
      simp [ReviewServer.completed, hyes]

theorem Timed.left {t : Int} {events after : List DailyEvent} (h : Timed t (events ++ after)) :
    Timed t events := by
  induction events generalizing t with
  | nil => trivial
  | cons event events ih =>
    cases event with
    | call call => exact ⟨h.1, ih h.2⟩
    | tick tick => exact ⟨h.1, h.2.1, ih h.2.2⟩
    | restart => exact ih (t := t) h

theorem reviewDays_after {t : Int} {events : List DailyEvent} (h : DailyInv env t s)
    (htimed : Timed t events) (hrestart : ∀ event ∈ events, event ≠ .restart) :
    (s.reviewDays env events).Pairwise (· < ·) ∧
      ∀ last ∈ s.lastRun, ∀ day ∈ s.reviewDays env events, last < day := by
  induction events generalizing s t with
  | nil => exact ⟨.nil, by simp [ReviewServer.reviewDays]⟩
  | cons event events ih =>
    obtain ⟨hstep, hrest⟩ := h.step htimed
    obtain ⟨hdays, hafter⟩ := ih hstep hrest (fun event' h' => hrestart event' (by simp [h']))
    unfold ReviewServer.reviewDays
    rcases completed_cases h htimed (hrestart event (by simp)) with
      ⟨hnone, hsame⟩ | ⟨day, hsome, hlast, hlater⟩
    · rw [hnone]
      exact ⟨hdays, hsame ▸ hafter⟩
    · rw [hsome]
      have hafter := hafter day hlast
      refine ⟨List.pairwise_cons.mpr ⟨hafter, hdays⟩, fun last hl day' hday' => ?_⟩
      rcases List.mem_cons.mp hday' with rfl | hday'
      · exact hlater last hl
      · exact (hlater last hl).trans (hafter day' hday')

/-- Whatever is filed and reviewed, and whenever the process is restarted: a look at the clock in
the hour of the review that gets a connection succeeds, and leaves no report open that was due by
the beginning of that hour. Between two restarts of the process there is at most one review a day. -/
theorem daily_review_clears (env : ReviewEnv) (s : ReviewServer)
    (hstart : s.db.moderationReports = .empty) (hfirst : s.lastRun = none) (t : Int)
    (events : List DailyEvent) (htimed : Timed t events) :
    (∀ before tick after, events = before ++ .tick tick :: after → tick.connection = .ok () →
      hour tick.now = dailyAutoReviewHourUtc →
        ∃ reviewed s', maybeRunDailyAutomaticReview env tick (s.run env before) = (.ok reviewed, s') ∧
          ∀ r ∈ s'.db.moderationReports.rows, r.status = reportStatusOpen →
            reviewTime (dateNaive tick.now) < r.reviewDueAt) ∧
    ∀ before segment after, events = before ++ (segment ++ after) →
      (∀ event ∈ segment, event ≠ .restart) →
        ((s.run env before).reviewDays env segment).Pairwise (· < ·) := by
  have h : DailyInv env t s := by
    refine ⟨fun r hr => ?_, by simp [hfirst], by simp [hfirst]⟩
    rw [hstart] at hr
    cases hr
  constructor
  · rintro before tick after rfl hconn hhour
    obtain ⟨t', hbefore, hnow, hstarted, -⟩ := h.run htimed
    obtain ⟨hanswer, hcleared⟩ := (hbefore.tick hnow hstarted).2 hconn hhour
    exact ⟨_, _, Prod.ext hanswer rfl, hcleared⟩
  · rintro before segment after rfl hrestart
    obtain ⟨t', hbefore, hrest⟩ := h.run htimed
    exact (reviewDays_after hbefore hrest.left hrestart).1

end

/-! ## A report over two nights -/

/-- The server with the two users, before anything is reported. -/
def firstNight : ReviewServer := ⟨twoUsers, none⟩

def lookAt (now : Int) : Tick := ⟨now, .ok (), now, fun _ => ⟨now, now, now⟩⟩

/-- Alice reports the profile of Bob in the evening; the server looks at the clock twice in each of
the two nights after it. -/
def twoNights : List DailyEvent :=
  [.call (.createReport 1 ⟨2, "user_report", "user_profile", none, "spam", none, none⟩
      ⟨5, Duration.hours 20⟩),
    .tick (lookAt (Duration.hours 26)), .tick (lookAt (Duration.hours 26 + Duration.minutes 5)),
    .tick (lookAt (Duration.hours 50)), .tick (lookAt (Duration.hours 50 + Duration.minutes 5))]

/-- The report is due before the second night, and is not open after it. -/
theorem daily_review_clears_bob :
    (firstNight.reviewDays asciiReviews twoNights = [1, 2] ∧
      (firstNight.reviewDays asciiReviews twoNights).Pairwise (· < ·)) ∧
    ∃ reviewed s', maybeRunDailyAutomaticReview asciiReviews (lookAt (Duration.hours 50))
        (firstNight.run asciiReviews (twoNights.take 3)) = (.ok reviewed, s') ∧
      ∀ r ∈ s'.db.moderationReports.rows, r.status = reportStatusOpen →
        reviewTime (dateNaive (Duration.hours 50)) < r.reviewDueAt := by
  obtain ⟨hcleared, honce⟩ := daily_review_clears asciiReviews firstNight rfl rfl 0 twoNights
    (by decide)
  refine ⟨⟨by decide +kernel, honce [] twoNights [] rfl (by simp [twoNights])⟩, ?_⟩
  exact hcleared (twoNights.take 3) (lookAt (Duration.hours 50)) _ rfl rfl (by decide)

end SyncServer.Moderation
