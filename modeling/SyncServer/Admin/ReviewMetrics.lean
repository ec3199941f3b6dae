import SyncServer.Base.Tally
import SyncServer.Guild.Freeze
import SyncServer.Guild.Pruning

/-! # The metrics of the reviews

The users that are challenged or frozen are counted in the rows of the guild, and the transitions
between the states in the audit log. The two agree: the number of users in a state changes by the
transitions that are logged, and by what administrators freeze and unfreeze.
-/

namespace SyncServer.Admin
open Transaction Guild

def detail (row : AdminAuditLog) (field : String) : String :=
  ((row.details.get field).bind Json.asStr).getD ""

/-- The transitions that have been counted so far. -/
structure TransitionCounts where
  challenged : Int
  frozen : Int
  recovery : Int
deriving DecidableEq, Repr

def TransitionCounts.count (counts : TransitionCounts) (row : AdminAuditLog) : TransitionCounts :=
  let newState := detail row "new_state"
  let previousState := detail row "previous_state"
  if newState = "challenged" then { counts with challenged := counts.challenged + 1 }
  else if newState = "frozen" then { counts with frozen := counts.frozen + 1 }
  else if newState = "clear" ∧ (previousState = "challenged" ∨ previousState = "frozen") then
    { counts with recovery := counts.recovery + 1 }
  else counts

structure AdminTrustReviewMetrics where
  currentChallengedUsers : Int
  currentFrozenUsers : Int
  challengedTransitions : Int
  frozenTransitions : Int
  recoveryTransitions : Int
  likelyFalsePositiveRecoveries : Int
deriving DecidableEq, Repr

def inState (st : ReviewState) (r : UserGuildStats) : Bool := r.automationReviewState = st

def usersIn (st : ReviewState) (s : Db) : Nat := s.userGuildStats.tally (inState st)

def isReviewEntry (row : AdminAuditLog) : Bool := row.action = "guild.review_state.changed"

/-- `guild_review_metrics`. -/
def guildReviewMetrics : Query AdminTrustReviewMetrics := do
  let currentChallengedUsers ← Tx.query (usersIn .challenged)
  let currentFrozenUsers ← Tx.query (usersIn .frozen)
  let rows ← Tx.query (fun s => (s.adminAuditLogs.rows.filter isReviewEntry).reverse)
  let counts := rows.foldl TransitionCounts.count ⟨0, 0, 0⟩
  pure {
    currentChallengedUsers := currentChallengedUsers
    currentFrozenUsers := currentFrozenUsers
    challengedTransitions := counts.challenged
    frozenTransitions := counts.frozen
    recoveryTransitions := counts.recovery
    likelyFalsePositiveRecoveries := counts.recovery }

/-! ## What is counted -/

/-- The entry is for a change to `st`. -/
def leadsTo (st : ReviewState) (row : AdminAuditLog) : Bool := detail row "new_state" = st.text

/-- The entry is for a change from `st` to the clear state. -/
def recoversFrom (st : ReviewState) (row : AdminAuditLog) : Bool :=
  leadsTo .clear row && detail row "previous_state" = st.text

def transitionsTo (st : ReviewState) (s : Db) : Nat :=
  s.adminAuditLogs.tally (fun row => isReviewEntry row && leadsTo st row)

def recoveriesFrom (st : ReviewState) (s : Db) : Nat :=
  s.adminAuditLogs.tally (fun row => isReviewEntry row && recoversFrom st row)

theorem foldl_count (rows : List AdminAuditLog) (counts : TransitionCounts) :
    rows.foldl TransitionCounts.count counts =
      ⟨counts.challenged + rows.countP (leadsTo .challenged),
        counts.frozen + rows.countP (leadsTo .frozen),
        counts.recovery + rows.countP (recoversFrom .challenged) +
          rows.countP (recoversFrom .frozen)⟩ := by
  induction rows generalizing counts with
  | nil => simp
  | cons row rows ih =>
    rw [List.foldl_cons, ih]
    by_cases h₁ : detail row "new_state" = "challenged"
    · simp [TransitionCounts.count, leadsTo, recoversFrom, ReviewState.text, h₁]
      omega
    by_cases h₂ : detail row "new_state" = "frozen"
    · simp [TransitionCounts.count, leadsTo, recoversFrom, ReviewState.text, h₂]
      omega
    by_cases h₃ : detail row "new_state" = "clear"
    · by_cases h₄ : detail row "previous_state" = "challenged"
      · simp [TransitionCounts.count, leadsTo, recoversFrom, ReviewState.text, h₃, h₄]
        omega
      by_cases h₅ : detail row "previous_state" = "frozen"
      · simp [TransitionCounts.count, leadsTo, recoversFrom, ReviewState.text, h₃, h₅]
        omega
      · simp [TransitionCounts.count, leadsTo, recoversFrom, ReviewState.text, h₃, h₄, h₅]
    · simp [TransitionCounts.count, leadsTo, recoversFrom, ReviewState.text, h₁, h₂, h₃]

theorem run_guildReviewMetrics (s : Db) :
    guildReviewMetrics.run s = (.ok {
      currentChallengedUsers := usersIn .challenged s
      currentFrozenUsers := usersIn .frozen s
      challengedTransitions := transitionsTo .challenged s
      frozenTransitions := transitionsTo .frozen s
      recoveryTransitions := recoveriesFrom .challenged s + recoveriesFrom .frozen s
      likelyFalsePositiveRecoveries := recoveriesFrom .challenged s + recoveriesFrom .frozen s }, s) := by
  have hcount : ∀ p : AdminAuditLog → Bool,
      (s.adminAuditLogs.rows.filter isReviewEntry).reverse.countP p =
        s.adminAuditLogs.tally (fun row => isReviewEntry row && p row) := by
    intro p
    rw [List.countP_reverse, List.countP_filter, Table.tally]
    apply List.countP_congr
    intro row _
    rw [Bool.and_comm]
  rw [guildReviewMetrics, Tx.run_bind_ok (Tx.run_query _ _), Tx.run_bind_ok (Tx.run_query _ _),
    Tx.run_bind_ok (Tx.run_query _ _), Tx.run_pure]
  simp only [foldl_count, hcount, Int.zero_add]
  rfl

/-! ## What the operations log -/

/-- The entries that are written for a change of the state. -/
inductive Logged : ReviewState → ReviewState → List AdminAuditLog → Prop
  | same (st : ReviewState) : Logged st st []
  | changed {before after : ReviewState} (row : AdminAuditLog) (hne : before ≠ after)
    (action : isReviewEntry row = true) (previous : detail row "previous_state" = before.text)
    (new : detail row "new_state" = after.text) : Logged before after [row]

variable {env : Env} {s s' : Db} {u : Uuid}

theorem rows_insertAuditLog {row : AdminAuditLog} {x : Unit}
    (h : (insertAuditLog row).run s = (.ok x, s')) :
    s'.adminAuditLogs.rows = s.adminAuditLogs.rows ++ [row] ∧
      s' = { s with adminAuditLogs := s'.adminAuditLogs } := by
  have hins := Query.run_exec_ok.mp h
  rcases ht : s.adminAuditLogs.insert row with _ | t
  · simp [ht] at hins
  · simp only [ht] at hins
    split at hins <;> cases hins
    exact ⟨Table.rows_of_insert ht, rfl⟩

theorem logged_auditReviewState {before after : UserGuildStats} {audit : Uuid} {x : Unit}
    (h : (auditReviewState before after audit).run s = (.ok x, s')) :
    ∃ l, s'.adminAuditLogs.rows = s.adminAuditLogs.rows ++ l ∧
      Logged before.automationReviewState after.automationReviewState l := by
  unfold auditReviewState at h
  by_cases hsame : before.automationReviewState = after.automationReviewState
  · rw [if_pos hsame] at h
    cases h
    exact ⟨[], by simp, hsame ▸ .same _⟩
  · rw [if_neg hsame] at h
    refine ⟨_, (rows_insertAuditLog h).1, .changed _ hsame (by simp [isReviewEntry]) ?_ ?_⟩ <;>
      simp [detail, Json.ofFields, Json.get_insertField, Json.asStr]

theorem logged_recordActivity {policy : Policy} {r r' : UserGuildStats} {today now : Int}
    {audit : Uuid} (hr : statsOf s u = some r)
    (h : (recordActivity policy r today now audit).run s = (.ok r', s')) :
    ∃ l, s'.adminAuditLogs.rows = s.adminAuditLogs.rows ++ l ∧
      Logged r.automationReviewState (assessHumanActivity r today now).automationReviewState l := by
  have hu : r.userId = u := Table.key_of_get hr
  unfold recordActivity at h
  obtain ⟨⟨r₁, a⟩, s₁, hupdate, hadvance⟩ := Tx.run_bind_eq_ok h
  obtain ⟨ha, r₀, -, hr₁, -⟩ := run_updateHumanActivityState_ok hu hupdate
  unfold updateHumanActivityState at hupdate
  obtain ⟨r₂, s₂, hstats, hrest⟩ := Tx.run_bind_eq_ok hupdate
  obtain ⟨x, s₃, haudit, hpure⟩ := Tx.run_bind_eq_ok hrest
  cases hpure
  obtain ⟨l, hrows, hlogged⟩ := logged_auditReviewState haudit
  have hkeep := (keeps_updateStats (π := Db.adminAuditLogs) (fun _ _ => rfl) _ _ _).of_run hstats
  have hkeep' : s'.adminAuditLogs = s₁.adminAuditLogs := by
    dsimp only at hadvance
    split at hadvance
    · unfold advanceActiveDayIfNeeded at hadvance
      split at hadvance
      · cases hadvance
        rfl
      · exact (keeps_updateStats (π := Db.adminAuditLogs) (fun _ _ => rfl) _ _ _).of_run hadvance
    · cases hadvance
      rfl
  refine ⟨l, by rw [hkeep', hrows, hkeep], ?_⟩
  rw [hr₁] at hlogged
  exact hlogged

theorem state_currentStats (p : Policy) (u : Uuid) (s : Db) :
    (currentStats p u (statsOf s u)).automationReviewState = stateOf s u := by
  unfold stateOf
  cases statsOf s u <;> rfl

theorem state_activity (p : Policy) (r : UserGuildStats) (today now : Int) :
    (activity p r today now).automationReviewState =
      (assessHumanActivity r today now).automationReviewState := by
  unfold activity
  dsimp only
  split <;> rfl

theorem logged_humanOperation {α : Type} {today now : Int} {audit : Uuid}
    {rest : Policy → UserGuildStats → Query α} (hrest : ∀ p r, (rest p r).Keeps guildRows)
    (hquiet : ∀ p r, (rest p r).Keeps Db.adminAuditLogs) {a : α}
    (h : (humanOperation env u today now audit rest).run s = (.ok a, s')) :
    ∃ l, s'.adminAuditLogs.rows = s.adminAuditLogs.rows ++ l ∧
      Logged (stateOf s u) (stateOf s' u) l := by
  have hstate : stateOf s' u = _ := stateOf_some (run_humanOperation_ok hrest h).2.self
  rw [state_activity] at hstate
  unfold humanOperation at h
  obtain ⟨⟨p, r⟩, s₁, hload, h₁⟩ := Tx.run_bind_eq_ok h
  obtain ⟨r₂, s₂, hact, h₂⟩ := Tx.run_bind_eq_ok h₁
  have hlogs := (keeps_loadStats (π := Db.adminAuditLogs) (fun _ _ => rfl) env u).of_run hload
  have hlogs' := (hquiet _ _).of_run h₂
  rcases run_loadStats_cases env u s with ⟨e, s₀, he, -⟩ | ⟨s₀, hrun, hget, -⟩
  · rw [he] at hload
    cases hload
  rw [hrun] at hload
  cases hload
  obtain ⟨l, hrows, hlogged⟩ := logged_recordActivity hget hact
  refine ⟨l, by rw [hlogs', hrows, hlogs], ?_⟩
  rw [hstate, ← state_currentStats (policyOf env s)]
  exact hlogged

/-- An operation whose inner operation, if it has one, writes no entry. -/
def QuietOp : GuildOp → Prop
  | .human (.runAttachmentActionWithGuild _ _ operation _ _) =>
    operation.program.Keeps Db.adminAuditLogs
  | _ => True

/-- A human operation does nothing, or logs what it does to the state. -/
theorem logged_human {op : HumanOp} (hquiet : QuietOp (.human op)) (s : Db) :
    ∃ l, ((GuildOp.human op).apply env s).adminAuditLogs.rows = s.adminAuditLogs.rows ++ l ∧
      Logged (stateOf s op.user) (stateOf ((GuildOp.human op).apply env s) op.user) l := by
  rcases hrun : (op.transaction env).run s with ⟨e | key, s'⟩
  · have hs : (GuildOp.human op).apply env s = s := by
      simp [GuildOp.apply, Tx.atomically, hrun]
    rw [hs]
    exact ⟨[], by simp, .same _⟩
  rw [show (GuildOp.human op).apply env s = s' by simp [GuildOp.apply, Tx.atomically, hrun]]
  cases op with
  | recordHumanActivity u t now audit =>
    obtain ⟨a, s₁, hrun, hend⟩ := Tx.run_bind_eq_ok hrun
    cases hend
    exact logged_humanOperation (fun _ _ => Tx.keeps_pure _ _) (fun _ _ => Tx.keeps_pure _ _) hrun
  | sendMessageWithGuild m now audit =>
    obtain ⟨a, s₁, hrun, hend⟩ := Tx.run_bind_eq_ok hrun
    cases hend
    exact logged_humanOperation
      (fun p r => keeps_sendMessageChecked (fun _ _ => rfl) (fun _ _ => rfl) env p r m now)
      (fun p r => keeps_sendMessageChecked (fun _ _ => rfl) (fun _ _ => rfl) env p r m now) hrun
  | runAttachmentActionWithGuild u mimeType operation now audit =>
    obtain ⟨a, s₁, hrun, hend⟩ := Tx.run_bind_eq_ok hrun
    cases hend
    exact logged_humanOperation
      (fun p r => keeps_attachmentActionChecked (fun _ _ => rfl) operation.keeps env p r u mimeType now)
      (fun p r => keeps_attachmentActionChecked (fun _ _ => rfl) hquiet env p r u mimeType now) hrun
  | resolveContactWithGuild u now audit =>
    obtain ⟨a, s₁, hrun, hend⟩ := Tx.run_bind_eq_ok hrun
    cases hend
    exact logged_humanOperation (fun p r => keeps_resolveContactChecked (fun _ _ => rfl) env p r u now)
      (fun p r => keeps_resolveContactChecked (fun _ _ => rfl) env p r u now) hrun

/-! ## What the operations do to the counts -/

def usersLogged (s : Db) : ReviewState → Int
  | .clear => 0
  | .challenged =>
    transitionsTo .challenged s - transitionsTo .frozen s - recoveriesFrom .challenged s
  | .frozen => transitionsTo .frozen s - recoveriesFrom .frozen s

/-- By how many the users in `st` change when a user goes from one state to another. -/
def moved (st before after : ReviewState) : Int :=
  (if after = st then 1 else 0) - (if before = st then 1 else 0)

/-- The change of the users in `st` that an administrator makes. -/
def adminMove (st : ReviewState) (s : Db) : GuildOp → Int
  | .freezeGuildProgression _ target _ _ =>
    ((statsOf s target).map (fun r => moved st r.automationReviewState .frozen)).getD 0
  | .unfreezeGuildProgression _ target _ _ =>
    ((statsOf s target).map (fun r => moved st r.automationReviewState .clear)).getD 0
  | _ => 0

/-- The changes of the users in `st` that administrators make in a run. -/
def adminMoves (env : Env) (st : ReviewState) : List GuildOp → Db → Int
  | [], _ => 0
  | op :: ops, s => adminMove st s op + adminMoves env st ops (op.apply env s)

theorem any_inState {st : ReviewState} (hst : st ≠ .clear) (s : Db) (u : Uuid) :
    (statsOf s u).any (inState st) = decide (stateOf s u = st) := by
  unfold stateOf inState
  cases statsOf s u with
  | none => simp [Ne.symm hst]
  | some r => simp

theorem usersIn_of_moved {st : ReviewState} (hst : st ≠ .clear)
    (hother : ∀ v, v ≠ u → stateOf s' v = stateOf s v) :
    (usersIn st s' : Int) = usersIn st s + moved st (stateOf s u) (stateOf s' u) := by
  have hagree : ∀ v, v ≠ u →
      (s'.userGuildStats.get v).any (inState st) = (s.userGuildStats.get v).any (inState st) := by
    intro v hv
    change (statsOf s' v).any _ = (statsOf s v).any _
    rw [any_inState hst, any_inState hst, hother v hv]
  have htally := Table.tally_of_agree u hagree
  change usersIn st s' + ((statsOf s u).any (inState st)).toNat =
    usersIn st s + ((statsOf s' u).any (inState st)).toNat at htally
  rw [any_inState hst, any_inState hst] at htally
  unfold moved
  by_cases h : stateOf s u = st <;> by_cases h' : stateOf s' u = st <;> simp [h, h'] at htally ⊢ <;>
    omega

theorem usersLogged_of_rows {l : List AdminAuditLog}
    (hrows : s'.adminAuditLogs.rows = s.adminAuditLogs.rows ++ l)
    (hl : ∀ row ∈ l, isReviewEntry row = false) : usersLogged s' = usersLogged s := by
  have hnone : ∀ p : AdminAuditLog → Bool, l.countP (fun row => isReviewEntry row && p row) = 0 := by
    intro p
    rw [List.countP_eq_zero]
    intro row hrow
    simp [hl row hrow]
  funext st
  cases st <;>
    simp [usersLogged, transitionsTo, recoveriesFrom, Table.tally, hrows, List.countP_append, hnone]

/-- Activity never takes a user from the clear state to the frozen one, nor from the frozen one to
the challenged one. -/
theorem state_activity_ne {p : Policy} {r : UserGuildStats} (h : ReviewConsistent r)
    (today now : Int) :
    (r.automationReviewState = .clear →
        (activity p r today now).automationReviewState ≠ .frozen) ∧
      (r.automationReviewState = .frozen →
        (activity p r today now).automationReviewState ≠ .challenged) := by
  obtain ⟨-, hcases⟩ := activity_cases p r today now
  constructor
  · intro hclear
    have hzero : r.suspiciousActivityStreak = 0 := by
      rcases h with ⟨-, h⟩ | ⟨hch, -⟩ | ⟨hfr, -⟩ <;> simp_all
    rcases hcases with ⟨hf, -⟩ | ⟨hf, -⟩ | ⟨-, -, hs, hst, -⟩ | ⟨-, -, -, hs, hst, -⟩ |
      ⟨-, -, -, hs, hst, -⟩
    · rw [hclear] at hf
      cases hf
    · rw [hclear] at hf
      cases hf
    all_goals
      rw [hst, hs, hzero]
      decide
  · intro hfrozen
    rcases hcases with ⟨-, -, -, hst, -⟩ | ⟨-, -, -, hst, -⟩ | ⟨hnf, -⟩ | ⟨hnf, -⟩ | ⟨hnf, -⟩
    · simp [hst]
    · simp [hst]
    all_goals exact absurd hfrozen hnf

/-- The rows of reachable databases satisfy the constraints. -/
theorem reachable_valid (hs : Reachable env s) (u : Uuid) : ∀ r ∈ statsOf s u, r.Valid := by
  refine hs.rows (fun p u o o' hstep h => ?_) u
  have hcurrent : (currentStats p u o).Valid := by
    cases o with
    | none => exact synced_valid p (freshStats_valid p u)
    | some r => exact synced_valid p (h r rfl)
  cases hstep with
  | same => exact h
  | ensured =>
    rintro r ⟨⟩
    cases o with
    | none => exact freshStats_valid p u
    | some r => exact h r rfl
  | synced =>
    rintro r ⟨⟩
    exact hcurrent
  | active _ today now hv =>
    rintro r ⟨⟩
    exact hv
  | scored _ score hscore =>
    rintro r ⟨⟩
    obtain ⟨hdays, -, hone, hten, -, hstreak⟩ := hcurrent
    exact ⟨hdays, hscore, hone, hten, p.rank_valid score, hstreak⟩
  | frozen r =>
    rintro r' ⟨⟩
    exact h r rfl
  | cleared r =>
    rintro r' ⟨⟩
    obtain ⟨hdays, hscore, hone, hten, hrank, -⟩ := h r rfl
    exact ⟨hdays, hscore, hone, hten, hrank, le_rfl⟩

/-- The counts after an operation: the number of users in `st` changes by what is logged, and by
what an administrator does. -/
def Balances (env : Env) (s : Db) (op : GuildOp) (st : ReviewState) : Prop :=
  (usersIn st (op.apply env s) : Int) - usersIn st s =
    usersLogged (op.apply env s) st - usersLogged s st + adminMove st s op

theorem balances_human {op : HumanOp} (hs : Reachable env s) (hquiet : QuietOp (.human op))
    {st : ReviewState} (hst : st ≠ .clear) : Balances env s (.human op) st := by
  have hother : ∀ v, v ≠ op.user → stateOf ((GuildOp.human op).apply env s) v = stateOf s v := by
    intro v hv
    rcases op.apply_cases env s with ⟨-, h⟩ | ⟨-, -, h⟩
    · rw [h]
    · rw [stateOf, h.other v hv, stateOf]
  have hmoved := usersIn_of_moved hst hother
  have hne : ∀ before after, stateOf s op.user = before →
      stateOf ((GuildOp.human op).apply env s) op.user = after →
      ¬ (before = .clear ∧ after = .frozen) ∧ ¬ (before = .frozen ∧ after = .challenged) := by
    rintro before after rfl rfl
    rcases op.apply_cases env s with ⟨-, h⟩ | ⟨-, -, h⟩
    · rw [h]
      cases stateOf s op.user <;> simp
    · have hcons := currentStats_consistent (p := policyOf env s) (u := op.user)
        (hs.consistent op.user)
      obtain ⟨hclear, hfrozen⟩ := state_activity_ne (p := policyOf env s) hcons op.today op.now
      rw [state_currentStats] at hclear hfrozen
      rw [stateOf_some h.self]
      exact ⟨fun h => hclear h.1 h.2, fun h => hfrozen h.1 h.2⟩
  have hlog : ∃ l, ((GuildOp.human op).apply env s).adminAuditLogs.rows =
      s.adminAuditLogs.rows ++ l ∧ Logged (stateOf s op.user)
        (stateOf ((GuildOp.human op).apply env s) op.user) l := logged_human hquiet s
  obtain ⟨l, hrows, hlogged⟩ := hlog
  unfold Balances
  rw [hmoved]
  change _ = _ + 0
  generalize stateOf s op.user = before at hne hlogged
  generalize stateOf ((GuildOp.human op).apply env s) op.user = after at hne hlogged
  cases hlogged with
  | same =>
    rw [usersLogged_of_rows hrows (by simp)]
    simp [moved]
  | changed row hdiff action previous new =>
    obtain ⟨h₁, h₂⟩ := hne before after rfl rfl
    cases before <;> cases after <;> cases st <;>
      simp_all [usersLogged, transitionsTo, recoveriesFrom, Table.tally, List.countP_append,
        leadsTo, recoversFrom, moved, ReviewState.text]

theorem balances_of_same {op : GuildOp} {st : ReviewState} (hst : st ≠ .clear)
    (hstates : ∀ v, stateOf (op.apply env s) v = stateOf s v)
    (hlogs : (op.apply env s).adminAuditLogs = s.adminAuditLogs) (hmove : adminMove st s op = 0) :
    Balances env s op st := by
  have husers : usersIn st (op.apply env s) = usersIn st s := by
    apply Table.tally_congr
    intro v
    change (statsOf (op.apply env s) v).any _ = (statsOf s v).any _
    rw [any_inState hst, any_inState hst, hstates v]
  have hlogged : usersLogged (op.apply env s) = usersLogged s :=
    usersLogged_of_rows (l := []) (by simp [hlogs]) (by simp)
  simp [Balances, husers, hlogged, hmove]

theorem state_of_opStep {p : Policy} {op : GuildOp} {o o' : Option UserGuildStats}
    (h : OpStep env s p u op o o') (hhuman : ∀ op', op ≠ .human op')
    (hfreeze : ∀ admin t reason audit, op ≠ .freezeGuildProgression admin t reason audit)
    (hunfreeze : ∀ admin t reason audit, op ≠ .unfreezeGuildProgression admin t reason audit) :
    (o'.map UserGuildStats.automationReviewState).getD .clear =
      (o.map UserGuildStats.automationReviewState).getD .clear := by
  cases h with
  | same => rfl
  | ensured | shown | looked | scored => cases o <;> rfl
  | active op' => exact absurd rfl (hhuman op')
  | frozen admin reason audit => exact absurd rfl (hfreeze admin u reason audit)
  | cleared admin reason audit => exact absurd rfl (hunfreeze admin u reason audit)

/-- An administrator's update of a row, and the entry for it. -/
theorem balances_admin {op : GuildOp} {st : ReviewState} (hst : st ≠ .clear)
    {f : UserGuildStats → UserGuildStats} {hf : ∀ r, (f r).userId = r.userId} {row : AdminAuditLog}
    {target : ReviewState} (htarget : ∀ r, (f r).automationReviewState = target)
    (hvalid : ∀ r ∈ statsOf s u, (f r).Valid) (haction : isReviewEntry row = false)
    (happly : op.apply env s = ((do executeUpdateStats u f hf; insertAuditLog row : Query Unit).run s).2)
    (hmove : adminMove st s op =
      ((statsOf s u).map (fun r => moved st r.automationReviewState target)).getD 0) :
    Balances env s op st := by
  obtain ⟨s₁, hrun, hrow, hother, hlogs⟩ : ∃ s₁, (executeUpdateStats u f hf).run s = (.ok (), s₁) ∧
      statsOf s₁ u = (statsOf s u).map f ∧ (∀ v, v ≠ u → statsOf s₁ v = statsOf s v) ∧
      s₁.adminAuditLogs = s.adminAuditLogs := by
    rcases run_executeUpdateStats_cases u f hf s with ⟨e, he⟩ | ⟨s₁, hrun, hrow, -, hframe⟩
    · have hexec := congrArg Prod.fst he
      rcases hr : statsOf s u with _ | r
      · simp [executeUpdateStats, Query.exec, Tx.outcome, hr, Except.mapError, Except.map] at hexec
      · simp [executeUpdateStats, Query.exec, Tx.outcome, hr, hvalid r hr, Except.mapError,
          Except.map] at hexec
    · exact ⟨s₁, hrun, hrow, fun v hv => hframe.other hv,
        (keeps_executeUpdateStats (π := Db.adminAuditLogs) (fun _ _ => rfl) u f hf).of_run hrun⟩
  -- the entry touches no row of the guild, and is not one for a transition
  obtain ⟨l, hl, hrows, hstats⟩ : ∃ l, (∀ row ∈ l, isReviewEntry row = false) ∧
      (op.apply env s).adminAuditLogs.rows = s.adminAuditLogs.rows ++ l ∧
      (op.apply env s).userGuildStats = s₁.userGuildStats := by
    rw [happly, Tx.run_bind_ok hrun, ← hlogs]
    rcases hins : (insertAuditLog row).run s₁ with ⟨e | x, s₂⟩
    · rcases run_insertAuditLog_cases row s₁ with ⟨e', he⟩ | ⟨t, ht⟩
      · rw [he] at hins
        cases hins
        exact ⟨[], by simp, by simp, rfl⟩
      · rw [ht] at hins
        cases hins
    · exact ⟨[row], by simpa using haction, (rows_insertAuditLog hins).1,
        (keeps_insertAuditLog (π := Db.userGuildStats) (fun _ _ => rfl) row).of_run hins⟩
  have hstate : ∀ v, stateOf (op.apply env s) v = stateOf s₁ v := by
    intro v
    rw [stateOf, stateOf, statsOf, hstats]
  unfold Balances
  rw [usersLogged_of_rows hrows hl, hmove, usersIn_of_moved (s := s) hst (fun v hv => by
    rw [hstate, stateOf, hother v hv, stateOf]), hstate, stateOf, stateOf, hrow]
  cases statsOf s u with
  | none => simp [moved]
  | some r => simp [htarget]

theorem quiet_getGuildSnapshot (env : Env) (u : Uuid) (today : Int) :
    (getGuildSnapshot env u today).Keeps Db.adminAuditLogs := by
  refine Tx.keeps_bind (Tx.keeps_query _ _) (fun p => ?_)
  refine Tx.keeps_bind (keeps_ensureUserGuildStats (fun _ _ => rfl) p u) (fun r => ?_)
  refine Tx.keeps_bind (keeps_syncDerivedState (fun _ _ => rfl) p r) (fun r => ?_)
  refine Tx.keeps_bind (keeps_dailyActionCount _ _ _ _) (fun _ => ?_)
  refine Tx.keeps_bind (keeps_dailyActionCount _ _ _ _) (fun _ => ?_)
  exact Tx.keeps_bind (keeps_dailyActionCount _ _ _ _) (fun _ => Tx.keeps_pure _ _)

section
variable {τ : Type} {π : Db → τ}

theorem keeps_voteDelta (hstats : ∀ s t, π { s with userGuildStats := t } = π s) (p : Policy)
    (q : ContributionRequest) (eventType : String) (now : Int) :
    (voteDelta p q eventType now).Keeps π := by
  unfold voteDelta
  split
  · split
    · exact Tx.keeps_pure _ _
    · refine Tx.keeps_bind ?_ (fun reciprocal => ?_)
      · unfold isReciprocalVote
        split
        · exact Tx.keeps_pure _ _
        · exact Tx.keeps_bind (Tx.keeps_okOr _ _ _) (fun _ => Tx.keeps_query _ _)
      split
      · exact Tx.keeps_pure _ _
      · refine Tx.keeps_bind (Tx.keeps_query _ _) (fun clustered => ?_)
        split
        · exact Tx.keeps_pure _ _
        · refine Tx.keeps_bind (keeps_granterIsMeaningful hstats p _) (fun _ => ?_)
          split <;> exact Tx.keeps_pure _ _
  · exact Tx.keeps_pure _ _

theorem keeps_cappedDelta (π : Db → τ) (q : ContributionRequest) (eventType : String) (now : Int)
    (vote : Int × Option String) : (cappedDelta q eventType now vote).Keeps π := by
  unfold cappedDelta
  split
  · exact Tx.keeps_pure _ _
  · split
    · refine Tx.keeps_bind (Tx.keeps_query _ _) (fun points => ?_)
      dsimp only
      split
      · exact Tx.keeps_pure _ _
      · split <;> exact Tx.keeps_pure _ _
    · exact Tx.keeps_pure _ _

/-- A contribution event writes to the rows of the guild and to the ledger. -/
theorem keeps_recordContributionEvent (hstats : ∀ s t, π { s with userGuildStats := t } = π s)
    (hevents : ∀ s t, π { s with guildScoreEvents := t } = π s) (env : Env)
    (q : ContributionRequest) (now startedAt : Int) (id : Uuid) :
    (recordContributionEvent env q now startedAt id).Keeps π := by
  unfold recordContributionEvent
  dsimp only
  split
  · exact Tx.keeps_throw _ _
  refine Tx.keeps_bind (keeps_loadStats hstats env q.userId) (fun loaded => ?_)
  obtain ⟨p, r⟩ := loaded
  refine Tx.keeps_bind ?_ (fun duplicate => ?_)
  · unfold findDuplicate
    split
    · exact Tx.keeps_query _ _
    · exact Tx.keeps_pure _ _
  dsimp only
  split
  · exact Tx.keeps_pure _ _
  refine Tx.keeps_bind (keeps_voteDelta hstats p q _ now) (fun vote => ?_)
  refine Tx.keeps_bind (keeps_cappedDelta π q _ now vote) (fun capped => ?_)
  obtain ⟨delta, why⟩ := capped
  refine Tx.keeps_bind (Query.keeps_exec (fun s a s' h => ?_)) (fun event => ?_)
  · split at h
    · cases h
    · split at h <;> cases h
      exact hevents _ _
  exact Tx.keeps_bind (keeps_executeUpdateStats hstats _ _ _) (fun _ => Tx.keeps_pure _ _)

end

theorem quiet_pruneGuildHistory (env : Env) (now : Int) :
    (pruneGuildHistory env now).Keeps Db.adminAuditLogs := by
  refine Tx.keeps_bind (Tx.keeps_query _ _) (fun p => ?_)
  refine Tx.keeps_bind (Tx.keeps_okOr _ _ _) (fun day => ?_)
  refine Tx.keeps_bind (Tx.keeps_okOr _ _ _) (fun time => ?_)
  refine Tx.keeps_bind (Query.keeps_exec (fun s a s' h => ?_)) (fun _ => ?_)
  · cases h
    rfl
  refine Tx.keeps_bind (Query.keeps_exec (fun s a s' h => ?_)) (fun _ => Tx.keeps_pure _ _)
  cases h
  rfl

/-- Every operation on a reachable database balances. -/
theorem balances (hs : Reachable env s) {op : GuildOp} (hquiet : QuietOp op) {st : ReviewState}
    (hst : st ≠ .clear) : Balances env s op st := by
  have hsame : (∀ op', op ≠ .human op') →
      (∀ admin t reason audit, op ≠ .freezeGuildProgression admin t reason audit) →
      (∀ admin t reason audit, op ≠ .unfreezeGuildProgression admin t reason audit) →
      ∀ v, stateOf (op.apply env s) v = stateOf s v :=
    fun h₁ h₂ h₃ v => state_of_opStep (op.opStep env s v) h₁ h₂ h₃
  cases op with
  | human op => exact balances_human hs hquiet hst
  | getGuildSnapshot u t =>
    refine balances_of_same hst (hsame (by simp) (by simp) (by simp)) ?_ rfl
    exact (quiet_getGuildSnapshot env u (dateNaive t)).run s
  | recordContributionEvent q now startedAt id =>
    refine balances_of_same hst (hsame (by simp) (by simp) (by simp)) ?_ rfl
    have hkeep := (keeps_recordContributionEvent (π := Db.adminAuditLogs) (fun _ _ => rfl)
      (fun _ _ => rfl) env q now startedAt id).atomically s
    rw [GuildOp.apply]
    exact hkeep
  | freezeGuildProgression admin target reason audit =>
    have hvalid : ∀ r ∈ statsOf s target, (frozenStats r).Valid := reachable_valid hs target
    cases admin with
    | none =>
      exact balances_admin (u := target) (f := frozenStats) hst (fun _ => rfl) hvalid
        (by simp [isReviewEntry]) rfl rfl
    | some id =>
      exact balances_admin (u := target) (f := frozenStats) hst (fun _ => rfl) hvalid
        (by simp [isReviewEntry]) rfl rfl
  | unfreezeGuildProgression admin target reason audit =>
    have hvalid : ∀ r ∈ statsOf s target, (clearedStats r).Valid := by
      intro r hr
      obtain ⟨hdays, hscore, hone, hten, hrank, -⟩ := reachable_valid hs target r hr
      exact ⟨hdays, hscore, hone, hten, hrank, le_rfl⟩
    exact balances_admin (u := target) (f := clearedStats) hst (fun _ => rfl) hvalid
      (by simp [isReviewEntry]) rfl rfl
  | saveGuildPolicy policy =>
    refine balances_of_same hst (hsame (by simp) (by simp) (by simp)) ?_ rfl
    exact (keeps_saveGuildPolicy (fun _ _ => rfl) env policy).run s
  | pruneGuildHistory now =>
    refine balances_of_same hst (hsame (by simp) (by simp) (by simp)) ?_ rfl
    exact (quiet_pruneGuildHistory env now).run s

theorem balances_run (hs : Reachable env s) {ops : List GuildOp} (hquiet : ∀ op ∈ ops, QuietOp op)
    {st : ReviewState} (hst : st ≠ .clear) :
    (usersIn st (runOps env ops s) : Int) - usersIn st s =
      usersLogged (runOps env ops s) st - usersLogged s st + adminMoves env st ops s := by
  induction ops generalizing s with
  | nil => simp [runOps, adminMoves]
  | cons op ops ih =>
    have hstep := balances hs (hquiet op (by simp)) hst
    have hrest := ih (hs.op op) (fun op' h => hquiet op' (by simp [h]))
    unfold Balances at hstep
    rw [runOps_cons, adminMoves]
    omega

/-- The metrics before and after a run of operations. The users under review increase by the
challenges that are counted and decrease by the recoveries, and the frozen users by the freezes and
the recoveries from them; what is left is what administrators froze and unfroze, which is not
counted. -/
theorem review_metrics_balance {ops : List GuildOp} (hs : Reachable env s)
    (hquiet : ∀ op ∈ ops, QuietOp op) {m m' : AdminTrustReviewMetrics}
    (hbefore : (guildReviewMetrics.run s).1 = .ok m)
    (hafter : (guildReviewMetrics.run (runOps env ops s)).1 = .ok m') :
    (m'.currentChallengedUsers + m'.currentFrozenUsers) -
        (m.currentChallengedUsers + m.currentFrozenUsers) =
      (m'.challengedTransitions - m.challengedTransitions) -
        (m'.recoveryTransitions - m.recoveryTransitions) +
        (adminMoves env .challenged ops s + adminMoves env .frozen ops s) ∧
    m'.currentFrozenUsers - m.currentFrozenUsers =
      (m'.frozenTransitions - m.frozenTransitions) -
        (recoveriesFrom .frozen (runOps env ops s) - recoveriesFrom .frozen s) +
        adminMoves env .frozen ops s := by
  have hchallenged := balances_run hs hquiet (show ReviewState.challenged ≠ .clear by simp)
  have hfrozen := balances_run hs hquiet (show ReviewState.frozen ≠ .clear by simp)
  rw [run_guildReviewMetrics] at hbefore hafter
  cases hbefore
  cases hafter
  simp only [usersLogged] at hchallenged hfrozen ⊢
  omega

/-- Three attempts around midnight freeze the account, and an administrator unfreezes it. -/
def frozenAndUnfrozen : List GuildOp :=
  [.human (activityAt 86340 1), .human (activityAt 86460 3), .human (activityAt 86520 4),
    .human (activityAt 86580 5), .unfreezeGuildProgression 2 1 "appeal" 6]

/-- One challenge and one freeze are counted, no recovery, and nobody is under review. -/
theorem review_metrics_balance_unfrozen :
    (0 + 0) - (0 + 0) = (1 - 0) - (0 - 0) + (adminMoves asciiEnv .challenged frozenAndUnfrozen
        accountAndAdmin + adminMoves asciiEnv .frozen frozenAndUnfrozen accountAndAdmin) ∧
      (0 : Int) - 0 = (1 - 0) - (recoveriesFrom .frozen (runOps asciiEnv frozenAndUnfrozen
        accountAndAdmin) - recoveriesFrom .frozen accountAndAdmin) +
        adminMoves asciiEnv .frozen frozenAndUnfrozen accountAndAdmin := by
  have hquiet : ∀ op ∈ frozenAndUnfrozen, QuietOp op := by
    intro op hop
    simp only [frozenAndUnfrozen, List.mem_cons, List.not_mem_nil, or_false] at hop
    rcases hop with rfl | rfl | rfl | rfl | rfl <;> trivial
  have hbefore : (guildReviewMetrics.run accountAndAdmin).1 = .ok ⟨0, 0, 0, 0, 0, 0⟩ := rfl
  have hafter : (guildReviewMetrics.run (runOps asciiEnv frozenAndUnfrozen accountAndAdmin)).1 =
      .ok ⟨0, 0, 1, 1, 0, 0⟩ := by
    decide +kernel
  exact review_metrics_balance (.start (fun _ => rfl)) hquiet hbefore hafter

end SyncServer.Admin
