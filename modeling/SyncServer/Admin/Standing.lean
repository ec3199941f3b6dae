import SyncServer.Accounts.Deletion
import SyncServer.Admin.ReviewMetrics

/-! # The standing of accounts

Administrators approve and reject accounts, suspend and activate them, and give yellow cards. Every
request writes an entry of the audit log after its change; the entries tell how the accounts came to
stand as they do, unless a change was made whose entry could not be written.
-/

namespace SyncServer.Admin
open Transaction Guild Accounts

/-! ## The services -/

def updateAccount (userId : Uuid) (f : User → User) (hf : ∀ u, (f u).id = u.id) : Query Unit := do
  let changed ← Query.exec (fun _ => [.user userId]) (fun s =>
    if s.userExists userId then .ok (1, { s with users := s.users.update userId f hf })
    else .ok (0, s))
  if changed = 0 then throw .notFound else pure ()

def approved (u : User) : User := { u with isApproved := true, isActive := true }

def withActive (active : Bool) (u : User) : User := { u with isActive := active }

def withCard (expires : Option Int) (u : User) : User := { u with yellowCardExpiresAt := expires }

/-- `approve_user`. -/
def approveUser (userId : Uuid) : Query Unit := updateAccount userId approved (fun _ => rfl)

/-- `reject_user`. -/
def rejectUser (userId : Uuid) : Query Unit := deleteUser userId

/-- `set_user_active`. -/
def setUserActive (userId : Uuid) (active : Bool) : Query Unit :=
  updateAccount userId (withActive active) (fun _ => rfl)

/-- `issue_yellow_card`. -/
def issueYellowCard (userId : Uuid) (days now : Int) : Query Unit :=
  updateAccount userId (withCard (some (now + Duration.days days))) (fun _ => rfl)

/-- `clear_yellow_card`. -/
def clearYellowCard (userId : Uuid) : Query Unit :=
  updateAccount userId (withCard none) (fun _ => rfl)

/-! ## The requests -/

/-- A request of an administrator about an account, and the id of its entry in the audit log. -/
structure AdminAct where
  admin : Uuid
  userId : Uuid
  audit : Uuid
deriving DecidableEq, Repr

def changeAndRecord (act : AdminAct) (change : Query Unit) (details : Query Json)
    (action status : String) : Query String := do
  change
  let details ← details
  insertAuditLog ⟨act.audit, some act.admin, action, some (uuidString act.userId), details⟩
  pure status

/-- The clock and the id for a contribution event. -/
structure AwardTimes where
  now : Int
  startedAt : Int
  eventId : Uuid
deriving DecidableEq, Repr

def suspensionScore (env : Env) (act : AdminAct) (times : AwardTimes) : Query Json := do
  let score ← (recordContributionEvent env
    (awardValidatedModerationAction act.admin "validated_moderation_action.user_suspend"
      (some (uuidString act.userId))
      (Json.ofFields [("target_user_id", .string (uuidString act.userId)),
        ("action", .string "suspend")]))
    times.now times.startedAt times.eventId).asStatement
  pure (Json.ofFields [
    ("is_active", .bool false),
    ("score_event_id", Json.ofOption (score.event.map (fun event => .string (uuidString event.id)))),
    ("score_delta_applied", Json.ofInt score.appliedDelta),
    ("contribution_score", Json.ofInt score.contributionScore),
    ("derived_rank", .string score.derivedRank),
    ("score_duplicate", .bool score.duplicate),
    ("score_suppressed_reason", Json.ofOption (score.suppressedReason.map .string))])

inductive AccountRequest where
  | approveUser (act : AdminAct)
  | rejectUser (act : AdminAct)
  | suspendUser (act : AdminAct) (times : AwardTimes)
  | activateUser (act : AdminAct)
  | issueYellowCard (act : AdminAct) (now : Int)
  | clearYellowCard (act : AdminAct)
deriving DecidableEq, Repr

namespace AccountRequest

def act : AccountRequest → AdminAct
  | approveUser act => act
  | rejectUser act => act
  | suspendUser act _ => act
  | activateUser act => act
  | issueYellowCard act _ => act
  | clearYellowCard act => act

/-- The action that the entry names. -/
def action : AccountRequest → String
  | approveUser _ => "user.approve"
  | rejectUser _ => "user.reject"
  | suspendUser _ _ => "user.suspend"
  | activateUser _ => "user.activate"
  | issueYellowCard _ _ => "user.yellow_card"
  | clearYellowCard _ => "user.yellow_card_cleared"

/-- The handlers of the requests. -/
def program (env : Env) : AccountRequest → Query String
  | approveUser act => changeAndRecord act (Admin.approveUser act.userId)
      (pure (Json.ofFields [("is_approved", .bool true)])) "user.approve" "approved"
  | rejectUser act => changeAndRecord act (Admin.rejectUser act.userId)
      (pure (Json.ofFields [("rejected", .bool true)])) "user.reject" "rejected"
  | suspendUser act times => changeAndRecord act (setUserActive act.userId false)
      (suspensionScore env act times) "user.suspend" "suspended"
  | activateUser act => changeAndRecord act (setUserActive act.userId true)
      (pure (Json.ofFields [("is_active", .bool true)])) "user.activate" "active"
  | issueYellowCard act now => changeAndRecord act (Admin.issueYellowCard act.userId 3 now)
      (pure (Json.ofFields [("duration_days", Json.ofInt 3)])) "user.yellow_card"
      "yellow_card_issued"
  | clearYellowCard act => changeAndRecord act (Admin.clearYellowCard act.userId)
      (pure (Json.ofFields [])) "user.yellow_card_cleared" "yellow_card_cleared"

end AccountRequest

/-- The database after requests, each of which is served by itself. -/
def runRequests (env : Env) (requests : List AccountRequest) (s : Db) : Db :=
  requests.foldl (fun s request => ((request.program env).run s).2) s

/-! ## What the entries say -/

/-- What administrators change of an account. -/
structure Standing where
  isActive : Bool
  isApproved : Bool
  carded : Bool
deriving DecidableEq, Repr

def standingOf (u : User) : Standing := ⟨u.isActive, u.isApproved, u.yellowCardExpiresAt.isSome⟩

/-- How an account stands, if it exists. -/
def standing (s : Db) (id : Uuid) : Option Standing := (s.users.get id).map standingOf

/-- What an entry with an action says about its account. -/
def recorded (action : String) (st : Option Standing) : Option Standing :=
  if action = "user.approve" then st.map (fun st => { st with isActive := true, isApproved := true })
  else if action = "user.reject" then none
  else if action = "user.suspend" then st.map (fun st => { st with isActive := false })
  else if action = "user.activate" then st.map (fun st => { st with isActive := true })
  else if action = "user.yellow_card" then st.map (fun st => { st with carded := true })
  else if action = "user.yellow_card_cleared" then st.map (fun st => { st with carded := false })
  else st

/-- The actions and targets of the audit log, the oldest first. -/
def entries (s : Db) : List (String × Option String) :=
  s.adminAuditLogs.rows.map (fun row => (row.action, row.target))

/-- How an account stands after what the entries tell about it. -/
def replay (id : Uuid) (log : List (String × Option String)) (st : Option Standing) :
    Option Standing :=
  log.foldl (fun st entry => if entry.2 = some (uuidString id) then recorded entry.1 st else st) st

/-! ## What a request does -/

section
variable {env : Env} {s s' : Db}

theorem run_updateAccount (userId : Uuid) (f : User → User) (hf : ∀ u, (f u).id = u.id) (s : Db) :
    (updateAccount userId f hf).run s = if s.userExists userId then
      (.ok (), { s with users := s.users.update userId f hf }) else (.error .notFound, s) := by
  unfold updateAccount
  by_cases h : s.userExists userId
  · rw [Tx.run_bind_ok (Query.run_exec_ok.mpr (if_pos h)), if_pos h]
    rfl
  · rw [Tx.run_bind_ok (Query.run_exec_ok.mpr (if_neg h)), if_neg h]
    rfl

def CanRecord (s : Db) (act : AdminAct) (details : Query Json) : Prop :=
  (details.run s).1.isOk = true ∧ s.adminAuditLogs.get act.audit = none ∧ s.userExists act.admin

theorem run_insertAuditLog (row : AdminAuditLog) (s : Db) :
    (s.adminAuditLogs.get row.id = none ∧ row.actorUserId.all (fun id => decide (s.userExists id)) ∧
      ∃ s', (insertAuditLog row).run s = (.ok (), s') ∧ s'.users = s.users ∧
        s'.adminAuditLogs.rows = s.adminAuditLogs.rows ++ [row]) ∨
    (¬ (s.adminAuditLogs.get row.id = none ∧
        row.actorUserId.all (fun id => decide (s.userExists id))) ∧
      ∃ e, (insertAuditLog row).run s = (.error e, s)) := by
  rcases hrow : s.adminAuditLogs.insert row with _ | t
  · have htaken := Table.insert_eq_none.mp hrow
    refine .inr ⟨fun h => ?_, .database .uniqueViolation, Query.run_exec_error (by rw [hrow])⟩
    rw [h.1] at htaken
    cases htaken
  · have hfree := Table.get_eq_none_of_insert hrow
    by_cases hactor : row.actorUserId.all (fun id => decide (s.userExists id))
    · refine .inl ⟨hfree, hactor, { s with adminAuditLogs := t }, Query.run_exec_ok.mpr ?_, rfl,
        Table.rows_of_insert hrow⟩
      simp only [hrow, if_pos hactor]
    · refine .inr ⟨fun h => hactor h.2, .database .foreignKeyViolation, Query.run_exec_error ?_⟩
      simp only [hrow, if_neg hactor]

/-- The entry is written if it can be, and nothing else happens to the accounts. -/
theorem run_changeAndRecord (act : AdminAct) {change : Query Unit} {details : Query Json}
    (action status : String) {s₁ : Db} (hchange : change.run s = (.ok (), s₁))
    (hdetails : details.Keeps (fun s => (s.users, s.adminAuditLogs))) :
    ∃ answer s', (changeAndRecord act change details action status).run s = (answer, s') ∧
      s'.users = s₁.users ∧
      ((CanRecord s₁ act details ∧ answer = .ok status ∧
          entries s' = entries s₁ ++ [(action, some (uuidString act.userId))]) ∨
        (¬ CanRecord s₁ act details ∧ answer.isOk = false ∧ entries s' = entries s₁)) := by
  have hkeep := hdetails.run s₁
  rw [Prod.mk.injEq] at hkeep
  unfold changeAndRecord
  rw [Tx.run_bind_ok hchange, Tx.run_bind]
  rcases hrun : details.run s₁ with ⟨e | json, s₂⟩
  · rw [hrun] at hkeep
    refine ⟨.error e, s₂, rfl, hkeep.1, .inr ⟨fun h => ?_, rfl, ?_⟩⟩
    · have hok := h.1
      rw [hrun] at hok
      cases hok
    · rw [entries, hkeep.2, entries]
  · rw [hrun] at hkeep
    obtain ⟨husers, hlogs⟩ := hkeep
    dsimp only at husers hlogs ⊢
    have hexists : s₂.userExists act.admin = s₁.userExists act.admin := by
      rw [Db.userExists, husers, Db.userExists]
    rw [Tx.run_bind]
    rcases run_insertAuditLog ⟨act.audit, some act.admin, action, some (uuidString act.userId), json⟩
      s₂ with ⟨hfree, hactor, s₃, hins, husers', hrows⟩ | ⟨hnot, e, hins⟩
    · rw [hins]
      refine ⟨.ok status, s₃, rfl, husers'.trans husers, .inl ⟨⟨?_, hlogs ▸ hfree, ?_⟩, rfl, ?_⟩⟩
      · rw [hrun]
        rfl
      · rw [← hexists]
        simpa using hactor
      · rw [entries, hrows, hlogs, List.map_append]
        rfl
    · rw [hins]
      refine ⟨.error e, s₂, rfl, husers, .inr ⟨fun h => hnot ⟨hlogs ▸ h.2.1, ?_⟩, rfl, ?_⟩⟩
      · have hadmin := h.2.2
        rw [← hexists] at hadmin
        simpa using hadmin
      · rw [entries, hlogs, entries]

def AccountRequest.Awarded (env : Env) (s : Db) : AccountRequest → Prop
  | .suspendUser act times => ((suspensionScore env act times).run { s with
      users := s.users.update act.userId (withActive false) (fun _ => rfl) }).1.isOk = true
  | _ => True

def AccountRequest.AdminStays : AccountRequest → Prop
  | .rejectUser act => act.admin ≠ act.userId
  | _ => True

/-- The entry for the request can be written. -/
structure Records (env : Env) (s : Db) (request : AccountRequest) : Prop where
  free : s.adminAuditLogs.get request.act.audit = none
  admin : s.userExists request.act.admin
  stays : request.AdminStays
  awarded : request.Awarded env s

/-- The change of the account, before its entry is written. -/
structure Changed (request : AccountRequest) (s s₁ : Db) : Prop where
  standing : ∀ id, standing s₁ id =
    if id = request.act.userId then recorded request.action (standing s id) else standing s id
  entries : entries s₁ = entries s
  free : s₁.adminAuditLogs.get request.act.audit = none ↔
    s.adminAuditLogs.get request.act.audit = none
  admin : s₁.userExists request.act.admin ↔ s.userExists request.act.admin ∧ request.AdminStays

theorem changed_update {request : AccountRequest} {f : User → User} (hf : ∀ u, (f u).id = u.id)
    (hrecorded : ∀ st : Option User, recorded request.action (st.map standingOf) =
      (st.map f).map standingOf) (hstays : request.AdminStays) (s : Db) :
    Changed request s { s with users := s.users.update request.act.userId f hf } where
  standing id := by
    unfold standing
    by_cases hid : id = request.act.userId
    · subst hid
      rw [if_pos rfl, hrecorded, Table.get_update_self]
    · rw [if_neg hid, Table.get_update_of_ne _ _ _ hid]
  entries := rfl
  free := Iff.rfl
  admin := by
    unfold Db.userExists
    rw [Table.isSome_get_update, and_iff_left hstays]

theorem get_users_withoutUser (userId : Uuid) (s : Db) (id : Uuid) :
    (withoutUser userId s).users.get id = if id = userId then none else s.users.get id := by
  refine (Table.get_filter_key s.users (fun k => decide (k ≠ userId)) id).trans ?_
  by_cases hid : id = userId <;> simp [hid]

theorem changed_reject (act : AdminAct) (s : Db) :
    Changed (.rejectUser act) s (withoutUser act.userId s) where
  standing id := by
    unfold standing
    rw [get_users_withoutUser]
    by_cases hid : id = act.userId
    · simp [hid, AccountRequest.act, AccountRequest.action, recorded]
    · simp [hid, AccountRequest.act]
  entries := by
    simp [entries, withoutUser, Table.map]
  free := by
    simp [withoutUser]
  admin := by
    unfold Db.userExists
    rw [get_users_withoutUser]
    by_cases hid : act.admin = act.userId
    · simp [hid, AccountRequest.act, AccountRequest.AdminStays]
    · simp [hid, AccountRequest.act, AccountRequest.AdminStays]

theorem run_program_missing (request : AccountRequest) (h : ¬ s.userExists request.act.userId) :
    (request.program env).run s = (.error .notFound, s) := by
  have hupdate : ∀ (f : User → User) (hf : ∀ u, (f u).id = u.id),
      (updateAccount request.act.userId f hf).run s = (.error .notFound, s) := by
    intro f hf
    rw [run_updateAccount, if_neg h]
  cases request with
  | rejectUser act =>
    have hdelete : (deleteUser act.userId).run s = (.error .notFound, s) := by
      rw [run_deleteUser]
      exact if_neg h
    exact Tx.run_bind_error hdelete _
  | approveUser act | suspendUser act times | activateUser act | issueYellowCard act now
    | clearYellowCard act => exact Tx.run_bind_error (hupdate _ _) _

theorem keeps_suspensionScore (env : Env) (act : AdminAct) (times : AwardTimes) :
    (suspensionScore env act times).Keeps (fun s => (s.users, s.adminAuditLogs)) := by
  refine Tx.keeps_bind (Tx.Keeps.asStatement ?_) (fun score => Tx.keeps_pure _ _)
  exact keeps_recordContributionEvent (fun _ _ => rfl) (fun _ _ => rfl) env _ _ _ _

/-- A request changes its account, and writes its entry if it can. -/
structure Served (env : Env) (s : Db) (request : AccountRequest) (answer : Except AppError String)
    (s' : Db) : Prop where
  standing : ∀ id, standing s' id =
    if id = request.act.userId then recorded request.action (standing s id) else standing s id
  entries : (Records env s request ∧ answer.isOk = true ∧
      entries s' = entries s ++ [(request.action, some (uuidString request.act.userId))]) ∨
    (¬ Records env s request ∧ answer.isOk = false ∧ entries s' = entries s)

theorem served_of_changed (request : AccountRequest) {change : Query Unit} {details : Query Json}
    {s₁ : Db} (hchange : change.run s = (.ok (), s₁)) (hchanged : Changed request s s₁)
    (hdetails : details.Keeps (fun s => (s.users, s.adminAuditLogs)))
    (hawarded : request.Awarded env s ↔ (details.run s₁).1.isOk = true) (status : String) :
    ∃ answer s', (changeAndRecord request.act change details request.action status).run s =
      (answer, s') ∧ Served env s request answer s' := by
  obtain ⟨answer, s', hrun, husers, hentries⟩ :=
    run_changeAndRecord request.act request.action status hchange hdetails
  have hrecords : Records env s request ↔ CanRecord s₁ request.act details := by
    constructor
    · exact fun h => ⟨hawarded.mp h.awarded, hchanged.free.mpr h.free,
        hchanged.admin.mpr ⟨h.admin, h.stays⟩⟩
    · rintro ⟨hok, hfree, hadmin⟩
      obtain ⟨hadmin, hstays⟩ := hchanged.admin.mp hadmin
      exact ⟨hchanged.free.mp hfree, hadmin, hstays, hawarded.mpr hok⟩
  refine ⟨answer, s', hrun, fun id => ?_, ?_⟩
  · rw [← hchanged.standing, standing, husers, standing]
  · rcases hentries with ⟨hcan, rfl, hlog⟩ | ⟨hnot, hanswer, hlog⟩
    · exact .inl ⟨hrecords.mpr hcan, rfl, by rw [hlog, hchanged.entries]⟩
    · exact .inr ⟨fun h => hnot (hrecords.mp h), hanswer, by rw [hlog, hchanged.entries]⟩

theorem served_update (request : AccountRequest) (h : s.userExists request.act.userId)
    {f : User → User} {hf : ∀ u, (f u).id = u.id}
    (hrecorded : ∀ st : Option User, recorded request.action (st.map standingOf) =
      (st.map f).map standingOf) (hstays : request.AdminStays) {details : Query Json}
    (hdetails : details.Keeps (fun s => (s.users, s.adminAuditLogs)))
    (hawarded : request.Awarded env s ↔ (details.run
      { s with users := s.users.update request.act.userId f hf }).1.isOk = true) (status : String) :
    ∃ answer s', (changeAndRecord request.act (updateAccount request.act.userId f hf) details
      request.action status).run s = (answer, s') ∧ Served env s request answer s' := by
  have hupdate := run_updateAccount request.act.userId f hf s
  rw [if_pos h] at hupdate
  exact served_of_changed request hupdate (changed_update hf hrecorded hstays s) hdetails hawarded
    status

/-- A request for an account that exists. -/
theorem run_program (request : AccountRequest) (h : s.userExists request.act.userId) :
    ∃ answer s', (request.program env).run s = (answer, s') ∧ Served env s request answer s' := by
  have hpure : ∀ (json : Json) (s : Db), True ↔ ((pure json : Query Json).run s).1.isOk = true :=
    fun json s => iff_of_true trivial rfl
  cases request with
  | approveUser act =>
    exact served_update (.approveUser act) h (fun o => by cases o <;> rfl) trivial
      (Tx.keeps_pure _ _) (hpure _ _) "approved"
  | rejectUser act =>
    have hdelete : (deleteUser act.userId).run s = (.ok (), withoutUser act.userId s) := by
      rw [run_deleteUser]
      exact if_pos h
    exact served_of_changed (.rejectUser act) hdelete (changed_reject act s) (Tx.keeps_pure _ _)
      (hpure _ _) "rejected"
  | suspendUser act times =>
    exact served_update (.suspendUser act times) h (fun o => by cases o <;> rfl) trivial
      (keeps_suspensionScore env act times) Iff.rfl "suspended"
  | activateUser act =>
    exact served_update (.activateUser act) h (fun o => by cases o <;> rfl) trivial
      (Tx.keeps_pure _ _) (hpure _ _) "active"
  | issueYellowCard act now =>
    exact served_update (.issueYellowCard act now) h (fun o => by cases o <;> rfl) trivial
      (Tx.keeps_pure _ _) (hpure _ _) "yellow_card_issued"
  | clearYellowCard act =>
    exact served_update (.clearYellowCard act) h (fun o => by cases o <;> rfl) trivial
      (Tx.keeps_pure _ _) (hpure _ _) "yellow_card_cleared"

/-! ## Runs -/

theorem runRequests_cons (request : AccountRequest) (requests : List AccountRequest) (s : Db) :
    runRequests env (request :: requests) s =
      runRequests env requests ((request.program env).run s).2 := rfl

/-- The entry of every request of a run can be written, if its account exists. -/
def AllRecorded (env : Env) : List AccountRequest → Db → Prop
  | [], _ => True
  | request :: requests, s => (s.userExists request.act.userId → Records env s request) ∧
      AllRecorded env requests ((request.program env).run s).2

theorem replay_append (id : Uuid) (log log' : List (String × Option String))
    (st : Option Standing) : replay id (log ++ log') st = replay id log' (replay id log st) :=
  List.foldl_append

theorem replay_step {request : AccountRequest} (hid : request.act.userId < 2 ^ 128)
    (hrecords : s.userExists request.act.userId → Records env s request) :
    ∃ log, entries ((request.program env).run s).2 = entries s ++ log ∧
      ∀ id, id < 2 ^ 128 →
        standing ((request.program env).run s).2 id = replay id log (standing s id) := by
  by_cases h : s.userExists request.act.userId
  · obtain ⟨answer, s', hrun, hserved⟩ : ∃ answer s', (request.program env).run s = (answer, s') ∧
        Served env s request answer s' := run_program request h
    rw [hrun]
    rcases hserved.entries with ⟨-, -, hlog⟩ | ⟨hnot, -⟩
    · refine ⟨_, hlog, fun id hbound => ?_⟩
      rw [hserved.standing]
      by_cases heq : id = request.act.userId
      · subst heq
        simp [replay]
      · have htext : uuidString request.act.userId ≠ uuidString id :=
          fun he => heq (uuidString_inj hid hbound he).symm
        simp [replay, heq, htext]
    · exact absurd (hrecords h) hnot
  · rw [run_program_missing request h]
    exact ⟨[], by simp, fun _ _ => rfl⟩

/-- A request for an account that exists changes it, succeeds exactly if its entry can be written,
and writes none otherwise. After a run of requests of which each could write its entry, every
account stands as the entries of the run tell. -/
theorem audit_log_replays_accounts (env : Env) (s : Db) :
    (∀ request : AccountRequest, s.userExists request.act.userId →
      ∃ answer s', (request.program env).run s = (answer, s') ∧
        standing s' request.act.userId =
          recorded request.action (standing s request.act.userId) ∧
        (answer.isOk = true ↔ Records env s request) ∧
        (¬ Records env s request → entries s' = entries s)) ∧
    ∀ requests : List AccountRequest, (∀ request ∈ requests, request.act.userId < 2 ^ 128) →
      AllRecorded env requests s →
      ∃ log, entries (runRequests env requests s) = entries s ++ log ∧ ∀ id, id < 2 ^ 128 →
        standing (runRequests env requests s) id = replay id log (standing s id) := by
  constructor
  · intro request h
    obtain ⟨answer, s', hrun, hserved⟩ : ∃ answer s', (request.program env).run s = (answer, s') ∧
        Served env s request answer s' := run_program request h
    refine ⟨answer, s', hrun, by rw [hserved.standing, if_pos rfl], ?_, ?_⟩
    · rcases hserved.entries with ⟨hrecords, hok, -⟩ | ⟨hnot, hok, -⟩
      · exact iff_of_true hok hrecords
      · exact iff_of_false (by simp [hok]) hnot
    · intro hnot
      rcases hserved.entries with ⟨hrecords, -⟩ | ⟨-, -, hlog⟩
      · exact absurd hrecords hnot
      · exact hlog
  · intro requests hids hrecords
    induction requests generalizing s with
    | nil => exact ⟨[], by simp [runRequests], fun _ _ => rfl⟩
    | cons request requests ih =>
      obtain ⟨log, hlog, hstanding⟩ := replay_step (hids request (by simp)) hrecords.1
      obtain ⟨log', hlog', hstanding'⟩ := ih ((request.program env).run s).2
        (fun r hr => hids r (by simp [hr])) hrecords.2
      rw [runRequests_cons]
      refine ⟨log ++ log', by rw [hlog', hlog, List.append_assoc], fun id hid => ?_⟩
      rw [replay_append, hstanding' id hid, hstanding id hid]

end

/-! ## Samples -/

/-- The administrator suspends Alice, gives her a yellow card, and activates her again. -/
def suspendedAndBack : List AccountRequest :=
  [.suspendUser ⟨2, 1, 10⟩ ⟨0, 0, 20⟩, .issueYellowCard ⟨2, 1, 11⟩ 0, .activateUser ⟨2, 1, 12⟩]

/-- Their entries tell how Alice stands. -/
theorem audit_log_replays_accounts_alice :
    ∃ log, entries (runRequests asciiEnv suspendedAndBack accountAndAdmin) =
        entries accountAndAdmin ++ log ∧
      standing (runRequests asciiEnv suspendedAndBack accountAndAdmin) 1 =
        replay 1 log (some ⟨true, true, false⟩) := by
  obtain ⟨log, hlog, hstanding⟩ := (audit_log_replays_accounts asciiEnv accountAndAdmin).2
    suspendedAndBack (by decide) ⟨fun _ => ⟨rfl, rfl, trivial, rfl⟩,
      fun _ => ⟨by decide +kernel, by decide +kernel, trivial, trivial⟩,
      fun _ => ⟨by decide +kernel, by decide +kernel, trivial, trivial⟩, trivial⟩
  exact ⟨log, hlog, hstanding 1 (by decide)⟩

end SyncServer.Admin
