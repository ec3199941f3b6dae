import SyncServer.Moderation.AutomaticReview
import SyncServer.Moderation.Gate

/-! # One complainant

The restriction of new contacts and the escalation of overdue reports count rows. Nothing keeps a
user from filing a report again, and after an unblock a block files one more.
-/

namespace SyncServer.Moderation
open Transaction

/-! ## Repetitions -/

/-- What a user does to complain again: `create_report`, or `unblock_user` and `block_user`. -/
inductive Repetition where
  | report (input : ReportInput) (new : NewReport)
  | round (reasonCode reporterNote : Option String) (new : NewReport) (blockedAt : Int)

namespace Repetition

def new : Repetition → NewReport
  | report _ new => new
  | round _ _ new _ => new

def input (reported : Uuid) : Repetition → ReportInput
  | report input _ => input
  | round reasonCode reporterNote _ _ => blockReport reported reasonCode reporterNote

def Serves (env : ReviewEnv) (reporter reported : Uuid) (d : Db) (rep : Repetition) (d' : Db) :
    Prop :=
  match rep with
  | report input new => input.reportedUserId = reported ∧
      ∃ row, (createReportConn env reporter input new).atomically d = (.ok row, d')
  | round reasonCode reporterNote new blockedAt =>
      ∃ view, (blockUser env reporter reported reasonCode reporterNote new blockedAt).atomically
        ((unblockUser reporter reported).run d).2 = (.ok view, d')

end Repetition

def quotation (env : ReviewEnv) (d : Db) (input : ReportInput) : Option String :=
  (normalizeReportExcerpt input.contentExcerptOverride).or
    (((contentExcerptConn env input.reportedUserId (trim input.contentKind)
      (normalizeOptionalText input.contentId)).run d).1.toOption.getD none)

def filedReport (env : ReviewEnv) (d : Db) (reporter : Uuid) (input : ReportInput)
    (new : NewReport) : ModerationReport :=
  { input.row reporter new (trim input.source) (trim input.contentKind) none with
    contentExcerpt := quotation env d input }

def AlreadyOpen (env : ReviewEnv) (d : Db) (reporter reported : Uuid) (rep : Repetition) : Prop :=
  ∃ r ∈ d.moderationReports.rows, r.reporterUserId = reporter ∧ r.reportedUserId = reported ∧
    r.status = reportStatusOpen ∧ reportedContent env r =
      reportedContent env (filedReport env d reporter (rep.input reported) rep.new)

/-- The database after repetitions of reports that are open. -/
def Repeated (env : ReviewEnv) (reporter reported : Uuid) : Db → List Repetition → Db → Prop
  | d, [], d' => d' = d
  | d, rep :: reps, d' => AlreadyOpen env d reporter reported rep ∧
      ∃ d₁, rep.Serves env reporter reported d d₁ ∧ Repeated env reporter reported d₁ reps d'

/-! ## What a repetition files -/

section
variable {env : ReviewEnv} {reporter reported : Uuid} {d d' : Db}

theorem run_createReportConn_row {input : ReportInput} {new : NewReport} {row : ModerationReport}
    (h : (createReportConn env reporter input new).run d = (.ok row, d')) :
    row = filedReport env d reporter input new := by
  obtain ⟨source, contentKind, excerpt, hsource, hkind, hexcerpt, rfl, -⟩ :=
    run_createReportConn_filed h
  have hsource : source = trim input.source := by
    unfold normalizeReportSource at hsource
    split at hsource <;> cases hsource
    rfl
  have hkind : contentKind = trim input.contentKind := by
    unfold normalizeContentKind at hkind
    split at hkind <;> cases hkind
    rfl
  simp only [filedReport, quotation, ReportInput.row, hsource, ← hkind, hexcerpt,
    Except.toOption, Option.getD_some]

/-- The quotation depends on the users and the messages only. -/
theorem contentExcerptConn_congr (husers : d'.users = d.users) (hmessages : d'.messages = d.messages)
    (hrooms : d'.roomMessages = d.roomMessages) (reported : Uuid) (contentKind : String)
    (contentId : Option String) :
    ((contentExcerptConn env reported contentKind contentId).run d').1 =
      ((contentExcerptConn env reported contentKind contentId).run d).1 := by
  unfold contentExcerptConn Accounts.findById
  split
  · simp only [Tx.run_bind, Tx.run_query, Tx.run_okOr, husers]
    cases d.users.get reported <;> rfl
  split
  · simp only [Tx.run_bind, Tx.run_query, Tx.run_okOr, Tx.run_done]
    cases contentUuid env contentKind contentId with
    | error e => rfl
    | ok messageId =>
      dsimp only
      rw [hmessages]
      cases d.messages.get messageId <;> rfl
  split
  · simp only [Tx.run_bind, Tx.run_query, Tx.run_okOr, Tx.run_done]
    cases contentUuid env contentKind contentId with
    | error e => rfl
    | ok messageId =>
      dsimp only
      rw [hrooms]
      cases d.roomMessages.get messageId <;> rfl
  · rfl

theorem quotation_congr (husers : d'.users = d.users) (hmessages : d'.messages = d.messages)
    (hrooms : d'.roomMessages = d.roomMessages) (input : ReportInput) :
    quotation env d' input = quotation env d input := by
  simp only [quotation, contentExcerptConn_congr husers hmessages hrooms]

theorem filedReport_congr (husers : d'.users = d.users) (hmessages : d'.messages = d.messages)
    (hrooms : d'.roomMessages = d.roomMessages) (input : ReportInput) (new : NewReport) :
    filedReport env d' reporter input new = filedReport env d reporter input new := by
  simp only [filedReport, quotation_congr husers hmessages hrooms]

end

/-- The reports are added, and the users and the messages stay. -/
structure Adds (added : List ModerationReport) (d d' : Db) : Prop where
  rows : d'.moderationReports.rows = d.moderationReports.rows ++ added
  users : d'.users = d.users
  messages : d'.messages = d.messages
  roomMessages : d'.roomMessages = d.roomMessages

section
variable {env : ReviewEnv} {reporter reported : Uuid} {d d' d'' : Db}
  {added added' : List ModerationReport}

theorem Adds.refl (d : Db) : Adds [] d d := ⟨by simp, rfl, rfl, rfl⟩

theorem Adds.trans (h : Adds added d d') (h' : Adds added' d' d'') :
    Adds (added ++ added') d d'' where
  rows := by rw [h'.rows, h.rows, List.append_assoc]
  users := h'.users.trans h.users
  messages := h'.messages.trans h.messages
  roomMessages := h'.roomMessages.trans h.roomMessages

theorem Adds.filedReport (h : Adds added d d') (input : ReportInput) (new : NewReport) :
    filedReport env d' reporter input new = filedReport env d reporter input new :=
  filedReport_congr h.users h.messages h.roomMessages input new

theorem adds_createReportConn {input : ReportInput} {new : NewReport} {row : ModerationReport}
    (h : (createReportConn env reporter input new).run d = (.ok row, d')) :
    Adds [filedReport env d reporter input new] d d' ∧
      (d.users.get input.reportedUserId).isSome = true := by
  obtain rfl := run_createReportConn_row h
  obtain ⟨t, hins, rfl, hreviewable⟩ := run_createReportConn_ok h
  exact ⟨⟨Table.rows_of_insert hins, rfl, rfl, rfl⟩, hreviewable.user⟩

theorem adds_unblockUser (blocker blocked : Uuid) (d : Db) :
    Adds [] d ((unblockUser blocker blocked).run d).2 := by
  rw [unblockUser, Query.run_exec_ok.mpr rfl]
  exact ⟨by simp, rfl, rfl, rfl⟩

theorem adds_blockUser {reasonCode reporterNote : Option String} {new : NewReport} {blockedAt : Int}
    {view : BlockedUserView} (hnone : d.userBlocks.get (reporter, reported) = none)
    (h : (blockUser env reporter reported reasonCode reporterNote new blockedAt).run d =
      (.ok view, d')) :
    Adds [filedReport env d reporter (blockReport reported reasonCode reporterNote) new] d d' ∧
      (d.users.get reported).isSome = true := by
  obtain ⟨hblocked, -⟩ | ⟨row, d₁, t, hfiled, rfl⟩ := run_blockUser_ok h
  · rw [hnone] at hblocked
    cases hblocked
  · obtain ⟨hadds, huser⟩ := adds_createReportConn hfiled
    exact ⟨⟨hadds.rows, hadds.users, hadds.messages, hadds.roomMessages⟩, huser⟩

theorem Repetition.Serves.adds {rep : Repetition} (h : rep.Serves env reporter reported d d') :
    Adds [filedReport env d reporter (rep.input reported) rep.new] d d' ∧
      (d.users.get reported).isSome = true ∧ (rep.input reported).reportedUserId = reported := by
  cases rep with
  | report input new =>
    obtain ⟨hreported, row, h⟩ := h
    obtain ⟨hadds, huser⟩ := adds_createReportConn (Tx.atomically_eq_ok.mp h)
    exact ⟨hadds, hreported ▸ huser, hreported⟩
  | round reasonCode reporterNote new blockedAt =>
    obtain ⟨view, h⟩ := h
    have hunblock := adds_unblockUser reporter reported d
    have hnone : ((unblockUser reporter reported).run d).2.userBlocks.get (reporter, reported) =
        none := by
      rw [unblockUser, Query.run_exec_ok.mpr rfl]
      exact (Table.get_filter_key d.userBlocks (fun k => decide (k ≠ (reporter, reported)))
        (reporter, reported)).trans (by simp)
    obtain ⟨hblock, huser⟩ := adds_blockUser hnone (Tx.atomically_eq_ok.mp h)
    rw [hunblock.filedReport] at hblock
    rw [hunblock.users] at huser
    exact ⟨hunblock.trans hblock, huser, rfl⟩

/-- What repetitions file. -/
def filedReports (env : ReviewEnv) (d : Db) (reporter reported : Uuid) (reps : List Repetition) :
    List ModerationReport :=
  reps.map (fun rep => filedReport env d reporter (rep.input reported) rep.new)

theorem Repeated.adds {reps : List Repetition} (h : Repeated env reporter reported d reps d') :
    Adds (filedReports env d reporter reported reps) d d' ∧
      ∀ rep ∈ reps, (d.users.get reported).isSome = true ∧
        (rep.input reported).reportedUserId = reported := by
  induction reps generalizing d with
  | nil =>
    obtain rfl := h
    exact ⟨.refl _, by simp⟩
  | cons rep reps ih =>
    obtain ⟨-, d₁, hserves, hrest⟩ := h
    obtain ⟨hadds, huser, hreported⟩ := hserves.adds
    obtain ⟨hadds', hall⟩ := ih hrest
    simp only [filedReports, hadds.filedReport] at hadds'
    rw [hadds.users] at hall
    exact ⟨hadds.trans hadds', List.forall_mem_cons.mpr ⟨⟨huser, hreported⟩, hall⟩⟩

end

/-! ## The two thresholds -/

/-- The overdue reports of a user. -/
def dueReports (rows : List ModerationReport) (user : Uuid) (now : Int) : List ModerationReport :=
  rows.filter (fun r => decide (Overdue now r ∧ r.reportedUserId = user))

def highRisk (env : ReviewEnv) (r : ModerationReport) : Bool :=
  (r.contentExcerpt.bind (detectBlockedTerm env.unicode)).isSome

/-- New contacts of a user are restricted as before, and the automatic review decides on the overdue
reports of the user as before; on those that were not there before it decides as on one that
was. -/
structure SameTreatment (env : ReviewEnv) (reported recipient : Uuid) (now pass : Int)
    (d d' : Db) : Prop where
  restricted : ((isNewDmContactRestricted reported recipient now).run d').1 =
    ((isNewDmContactRestricted reported recipient now).run d).1
  decided : ∀ r ∈ dueReports d.moderationReports.rows reported pass,
    automaticDecision env (overdueReports d' pass) r =
      automaticDecision env (overdueReports d pass) r
  taken : ∀ r ∈ dueReports d'.moderationReports.rows reported pass,
    ∃ r₀ ∈ dueReports d.moderationReports.rows reported pass,
      automaticDecision env (overdueReports d pass) r₀ =
        automaticDecision env (overdueReports d' pass) r

/-- Some more recent reports do not carry the user over the threshold of the restriction, or it does
not matter whether they do. -/
def RestrictionStands (d : Db) (reported recipient : Uuid) (now : Int) (more : Nat) : Prop :=
  let count := openReportCount d reported (now - Duration.days newDmRestrictionLookbackDays)
  (d.users.get reported).any (fun u => u.dmRestrictedUntil.any (fun t => decide (now < t))) = true ∨
    priorContact d reported recipient = true ∨ newDmRestrictionOpenReportThreshold ≤ count ∨
      count + more < newDmRestrictionOpenReportThreshold

/-- More overdue reports do not carry the user over the threshold of the escalation, or all that
were there are escalated anyway; what is new is as risky as what was there. -/
def DecisionStands (env : ReviewEnv) (due more : List ModerationReport) : Prop :=
  more = [] ∨ 3 ≤ due.length ∨ due ≠ [] ∧
    (3 ≤ due.length + more.length → ∀ r ∈ due, highRisk env r = true) ∧
    (due.length + more.length < 3 → ∀ r ∈ more, ∃ r₀ ∈ due, highRisk env r₀ = highRisk env r)

section
variable {env : ReviewEnv} {reporter reported : Uuid} {d d' : Db}

def escalates (env : ReviewEnv) (count : Nat) (r : ModerationReport) : Bool :=
  highRisk env r || decide (3 ≤ count)

theorem automaticDecision_eq_iff {d d' : Db} {now : Int} {user : Uuid} {r r' : ModerationReport}
    (hr : r.reportedUserId = user) (hr' : r'.reportedUserId = user) :
    automaticDecision env (overdueReports d now) r =
        automaticDecision env (overdueReports d' now) r' ↔
      escalates env (dueReports d.moderationReports.rows user now).length r =
        escalates env (dueReports d'.moderationReports.rows user now).length r' := by
  have hcount : ∀ d : Db, (overdueReports d now).countP (fun r => r.reportedUserId = user) =
      (dueReports d.moderationReports.rows user now).length := by
    intro d
    rw [overdueReports, (List.perm_insertionSort _ _).countP_eq, List.countP_filter,
      List.countP_eq_length_filter, dueReports]
    congr 2
    funext r
    simp [Overdue, and_comm]
  unfold automaticDecision escalates highRisk
  simp only [hr, hr', hcount]
  generalize ((r.contentExcerpt.bind _).isSome || decide (3 ≤ _)) = risky
  generalize ((r'.contentExcerpt.bind _).isSome || decide (3 ≤ _)) = risky'
  cases risky <;> cases risky' <;> simp

theorem escalates_of_le {count : Nat} (h : 3 ≤ count) (r : ModerationReport) :
    escalates env count r = true := by
  simp [escalates, h]

theorem escalates_of_lt {count : Nat} (h : count < 3) (r : ModerationReport) :
    escalates env count r = highRisk env r := by
  simp [escalates, Nat.not_le.mpr h]

/-- The decisions on the overdue reports of one user. -/
theorem decisionStands_iff (env : ReviewEnv) (due more : List ModerationReport) :
    ((∀ r ∈ due, escalates env (due ++ more).length r = escalates env due.length r) ∧
      ∀ r ∈ due ++ more, ∃ r₀ ∈ due,
        escalates env due.length r₀ = escalates env (due ++ more).length r) ↔
      DecisionStands env due more := by
  rw [List.length_append]
  constructor
  · rintro ⟨hdecided, htaken⟩
    by_cases hmore : more = []
    · exact .inl hmore
    by_cases hdue : 3 ≤ due.length
    · exact .inr (.inl hdue)
    obtain ⟨r, hr⟩ := List.exists_mem_of_ne_nil more hmore
    obtain ⟨r₀, hr₀, -⟩ := htaken r (List.mem_append_right _ hr)
    refine .inr (.inr ⟨List.ne_nil_of_mem hr₀, fun hcount r hr => ?_, fun hcount r hr => ?_⟩)
    · rw [← escalates_of_lt (Nat.not_le.mp hdue), ← hdecided r hr, escalates_of_le hcount]
    · obtain ⟨r₀, hr₀, h⟩ := htaken r (List.mem_append_right _ hr)
      rw [escalates_of_lt (Nat.not_le.mp hdue), escalates_of_lt hcount] at h
      exact ⟨r₀, hr₀, h⟩
  · intro h
    by_cases hmore : more = []
    · subst hmore
      simp only [List.length_nil, Nat.add_zero, List.append_nil]
      exact ⟨fun _ _ => trivial, fun r hr => ⟨r, hr, rfl⟩⟩
    rcases h.resolve_left hmore with hdue | ⟨hne, hrisky, hsame⟩
    · have hall : 3 ≤ due.length + more.length := by omega
      obtain ⟨r₀, hr₀⟩ := List.exists_mem_of_length_pos (show 0 < due.length by omega)
      simp only [escalates_of_le hdue, escalates_of_le hall]
      exact ⟨fun _ _ => trivial, fun _ _ => ⟨r₀, hr₀, trivial⟩⟩
    by_cases hcount : 3 ≤ due.length + more.length
    · have hold : ∀ r ∈ due, escalates env due.length r = true := by
        intro r hr
        simp [escalates, hrisky hcount r hr]
      obtain ⟨r₀, hr₀⟩ := List.exists_mem_of_ne_nil due hne
      simp only [escalates_of_le hcount]
      exact ⟨fun r hr => (hold r hr).symm, fun _ _ => ⟨r₀, hr₀, hold r₀ hr₀⟩⟩
    · have hall : due.length + more.length < 3 := Nat.not_le.mp hcount
      have hdue : due.length < 3 := by omega
      simp only [escalates_of_lt hall, escalates_of_lt hdue]
      refine ⟨fun _ _ => trivial, fun r hr => ?_⟩
      rcases List.mem_append.mp hr with hr | hr
      · exact ⟨r, hr, rfl⟩
      · exact hsame hall r hr

/-! ## Counting -/

variable {reps : List Repetition}

theorem openReportCount_repeated (h : Repeated env reporter reported d reps d') (lookback : Int) :
    openReportCount d' reported lookback = openReportCount d reported lookback +
      reps.countP (fun rep => decide (lookback ≤ rep.new.now)) := by
  obtain ⟨hadds, hall⟩ := h.adds
  unfold openReportCount
  rw [hadds.rows, List.filter_append, List.length_append, filedReports, List.filter_map,
    List.length_map, ← List.countP_eq_length_filter (l := reps)]
  congr 1
  refine List.countP_congr (fun rep hrep => ?_)
  simp [filedReport, ReportInput.row, (hall rep hrep).2, reportStatusOpen]

theorem dueReports_append (rows more : List ModerationReport) (user : Uuid) (now : Int) :
    dueReports (rows ++ more) user now = dueReports rows user now ++ dueReports more user now :=
  List.filter_append ..

/-- The answer is the same if the count does not pass the threshold, or is not asked for. -/
theorem restricted_iff (h : Repeated env reporter reported d reps d') (recipient : Uuid)
    (now : Int) :
    ((isNewDmContactRestricted reported recipient now).run d').1 =
        ((isNewDmContactRestricted reported recipient now).run d).1 ↔
      RestrictionStands d reported recipient now (reps.countP (fun rep =>
        decide (now - Duration.days newDmRestrictionLookbackDays ≤ rep.new.now))) := by
  obtain ⟨hadds, hall⟩ := h.adds
  rcases hu : d.users.get reported with _ | u
  · have hnone : reps = [] := by
      refine List.eq_nil_iff_forall_not_mem.mpr (fun rep hrep => ?_)
      simpa [hu] using (hall rep hrep).1
    subst hnone
    obtain rfl := h
    simp [RestrictionStands, newDmRestrictionOpenReportThreshold]
    omega
  obtain rfl : u.id = reported := Table.key_of_get hu
  have hu' : d'.users.get u.id = some u := by rw [hadds.users, hu]
  have hcontact : priorContact d' u.id recipient = priorContact d u.id recipient := by
    rw [priorContact, priorContact, hadds.messages]
  rw [run_isNewDmContactRestricted hu, run_isNewDmContactRestricted hu']
  simp only [contactsLimited, openReportCount_repeated h, hcontact, RestrictionStands, hu,
    Option.any_some]
  generalize u.dmRestrictedUntil.any _ = explicit
  generalize priorContact d u.id recipient = contact
  cases explicit <;> cases contact <;> simp
  omega

/-- Repeated complaints change nothing exactly if they do not carry the user over one of the
thresholds, or nothing depends on that. -/
theorem sameTreatment_iff (h : Repeated env reporter reported d reps d') (recipient : Uuid)
    (now pass : Int) :
    SameTreatment env reported recipient now pass d d' ↔
      RestrictionStands d reported recipient now (reps.countP (fun rep =>
        decide (now - Duration.days newDmRestrictionLookbackDays ≤ rep.new.now))) ∧
      DecisionStands env (dueReports d.moderationReports.rows reported pass)
        (dueReports (filedReports env d reporter reported reps) reported pass) := by
  have hmine : ∀ {rows : List ModerationReport} {r : ModerationReport},
      r ∈ dueReports rows reported pass → r.reportedUserId = reported := by
    intro rows r hr
    exact (of_decide_eq_true (List.mem_filter.mp hr).2).2
  rw [← restricted_iff h, ← decisionStands_iff, ← dueReports_append, ← h.adds.1.rows]
  constructor
  · rintro ⟨hrestricted, hdecided, htaken⟩
    refine ⟨hrestricted, fun r hr => ?_, fun r hr => ?_⟩
    · exact (automaticDecision_eq_iff (hmine hr) (hmine hr)).mp (hdecided r hr)
    · obtain ⟨r₀, hr₀, h⟩ := htaken r hr
      exact ⟨r₀, hr₀, (automaticDecision_eq_iff (hmine hr₀) (hmine hr)).mp h⟩
  · rintro ⟨hrestricted, hdecided, htaken⟩
    refine ⟨hrestricted, fun r hr => ?_, fun r hr => ?_⟩
    · exact (automaticDecision_eq_iff (hmine hr) (hmine hr)).mpr (hdecided r hr)
    · obtain ⟨r₀, hr₀, h⟩ := htaken r hr
      exact ⟨r₀, hr₀, (automaticDecision_eq_iff (hmine hr₀) (hmine hr)).mpr h⟩

end

/-! ## Alice complains again -/

/-- The report of a profile. -/
def profileReport : ReportInput := ⟨2, "user_report", "user_profile", none, "spam", none, none⟩

/-- Alice reports the profile of Bob once more. -/
def reportedAgain : Db :=
  ((createReportConn asciiReviews 1 profileReport ⟨6, 1⟩).atomically afterProfileReport).2

theorem repeated_reportedAgain : Repeated asciiReviews 1 2 afterProfileReport
    [.report profileReport ⟨6, 1⟩] reportedAgain := by
  refine ⟨by unfold AlreadyOpen; decide +kernel, reportedAgain, ⟨rfl,
    filedReport asciiReviews afterProfileReport 1 profileReport ⟨6, 1⟩, ?_⟩, rfl⟩
  exact Prod.ext (by decide +kernel) rfl

/-- A week later both reports are too old, and they are not enough for an escalation. -/
theorem sameTreatment_week : SameTreatment asciiReviews 2 3 (Duration.days 8) (Duration.days 2)
    afterProfileReport reportedAgain := by
  refine (sameTreatment_iff repeated_reportedAgain 3 (Duration.days 8) (Duration.days 2)).mpr ?_
  unfold RestrictionStands DecisionStands
  decide +kernel

/-- Alice unblocks and blocks Bob. -/
def blockedAgain (d : Db) (new : NewReport) : Db :=
  ((blockUser asciiReviews 1 2 none none new 0).atomically ((unblockUser 1 2).run d).2).2

/-- The second report restricts Bob, and with three he is suspended instead. -/
theorem one_complainant_counts :
    (∃ d', Repeated asciiReviews 1 2 afterProfileReport [.report profileReport ⟨6, 1⟩] d' ∧
      ¬ SameTreatment asciiReviews 2 3 1 1 afterProfileReport d') ∧
    ∃ d', Repeated asciiReviews 1 2 afterProfileReport
        [.round none none ⟨6, 1⟩ 0, .round none none ⟨7, 2⟩ 0] d' ∧
      ¬ SameTreatment asciiReviews 2 3 (Duration.days 8) (Duration.days 2) afterProfileReport
        d' := by
  constructor
  · refine ⟨reportedAgain, repeated_reportedAgain, fun h => ?_⟩
    have hrestricted := h.restricted
    revert hrestricted
    decide +kernel
  · refine ⟨blockedAgain (blockedAgain afterProfileReport ⟨6, 1⟩) ⟨7, 2⟩, ?_, fun h => ?_⟩
    · refine ⟨by unfold AlreadyOpen; decide +kernel, blockedAgain afterProfileReport ⟨6, 1⟩,
        ⟨⟨2, "bob", none, 0⟩, Prod.ext (by decide +kernel) rfl⟩,
        by unfold AlreadyOpen; decide +kernel, _, ⟨⟨2, "bob", none, 0⟩, ?_⟩, rfl⟩
      exact Prod.ext (by decide +kernel) rfl
    · have hdecided := h.decided
      revert hdecided
      decide +kernel

end SyncServer.Moderation
