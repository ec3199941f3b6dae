import SyncServer.Guild.Contributions

/-! # Runs of guild operations

The operations one after another, the steps that a row takes in such a run, and
the invariants of the rows of reachable databases.
-/

namespace SyncServer.Guild
open Transaction

def outsideGuild (s : Db) : Db :=
  { s with
    dailyActionCounters := .empty
    guildScoreEvents := .empty }

/-- An operation for `run_attachment_action_with_guild`, which leaves the guild alone. -/
structure AttachmentOperation where
  Value : Type
  program : Query Value
  keeps : program.Keeps guildRows
  keepsCounters : program.Keeps Db.dailyActionCounters
  keepsEvents : program.Keeps Db.guildScoreEvents
  blind : program.Local outsideGuild

def SendMessageWithTrustResult.counted : SendMessageWithTrustResult → Option ActionKey
  | sent _ => some .outboundMessage
  | limited .. => none

def AttachmentActionWithTrustResult.counted {T : Type} :
    AttachmentActionWithTrustResult T → Option ActionKey
  | completed _ => some .attachmentSend
  | _ => none

def ResolveContactWithTrustResult.counted : ResolveContactWithTrustResult → Option ActionKey
  | allowed => some .friendAdd
  | limited .. => none

/-- The operations that count as human activity of a user. -/
inductive HumanOp where
  | recordHumanActivity (user : Uuid) (todayAt now : Int) (audit : Uuid)
  | sendMessageWithGuild (message : NewMessage) (now : Int) (audit : Uuid)
  | runAttachmentActionWithGuild (user : Uuid) (mimeType : String)
      (operation : AttachmentOperation) (now : Int) (audit : Uuid)
  | resolveContactWithGuild (user : Uuid) (now : Int) (audit : Uuid)

namespace HumanOp

def user : HumanOp → Uuid
  | recordHumanActivity u _ _ _ => u
  | sendMessageWithGuild m _ _ => m.senderId
  | runAttachmentActionWithGuild u _ _ _ _ => u
  | resolveContactWithGuild u _ _ => u

/-- The first clock reading of the operation. -/
def todayAt : HumanOp → Int
  | recordHumanActivity _ t _ _ => t
  | sendMessageWithGuild _ now _ => now
  | runAttachmentActionWithGuild _ _ _ now _ => now
  | resolveContactWithGuild _ now _ => now

/-- The last clock reading of the operation. -/
def now : HumanOp → Int
  | recordHumanActivity _ _ now _ => now
  | sendMessageWithGuild _ now _ => now
  | runAttachmentActionWithGuild _ _ _ now _ => now
  | resolveContactWithGuild _ now _ => now

/-- The UTC day of the operation. -/
def today (op : HumanOp) : Int := dateNaive op.todayAt

/-- The transaction of the operation; its result is the action that it counted. -/
def transaction (env : Env) : HumanOp → Query (Option ActionKey)
  | recordHumanActivity u t now audit => do
    Guild.recordHumanActivity env u (dateNaive t) now audit
    pure none
  | sendMessageWithGuild m now audit => do
    let result ← Guild.sendMessageWithGuild env m now audit
    pure result.counted
  | runAttachmentActionWithGuild u mimeType operation now audit => do
    let result ← Guild.runAttachmentActionWithGuild env u mimeType operation.program now audit
    pure result.counted
  | resolveContactWithGuild u now audit => do
    let result ← Guild.resolveContactWithGuild env u now audit
    pure result.counted

/-- The operation runs to its end and is committed. -/
def Commits (env : Env) (op : HumanOp) (s : Db) : Prop :=
  ((op.transaction env).run s).1.isOk = true

instance (env : Env) (op : HumanOp) (s : Db) : Decidable (op.Commits env s) :=
  inferInstanceAs (Decidable (_ = true))

end HumanOp

/-- The operations of the guild service. -/
inductive GuildOp where
  | human (op : HumanOp)
  | getGuildSnapshot (user : Uuid) (todayAt : Int)
  | recordContributionEvent (request : ContributionRequest) (now startedAt : Int) (eventId : Uuid)
  | freezeGuildProgression (admin : Option Uuid) (target : Uuid) (reason : String) (audit : Uuid)
  | unfreezeGuildProgression (admin target : Uuid) (reason : String) (audit : Uuid)
  | saveGuildPolicy (policy : GuildPolicyConfig)
  | pruneGuildHistory (now : Int)

/-- The database after an operation. Only human activity and contribution events are
transactions; the other operations keep what their statements did before an error. -/
def GuildOp.apply (env : Env) : GuildOp → Db → Db
  | human op, s => ((op.transaction env).atomically s).2
  | getGuildSnapshot u t, s => ((Guild.getGuildSnapshot env u (dateNaive t)).run s).2
  | recordContributionEvent q now startedAt id, s =>
    ((Guild.recordContributionEvent env q now startedAt id).atomically s).2
  | freezeGuildProgression admin target reason audit, s =>
    ((Guild.freezeGuildProgression admin target reason audit).run s).2
  | unfreezeGuildProgression admin target reason audit, s =>
    ((Guild.unfreezeGuildProgression admin target reason audit).run s).2
  | saveGuildPolicy policy, s => ((Guild.saveGuildPolicy env policy).run s).2
  | pruneGuildHistory now, s => ((Guild.pruneGuildHistory env now).run s).2

/-- Operations one after another. -/
def runOps (env : Env) (ops : List GuildOp) (s : Db) : Db :=
  ops.foldl (fun s op => op.apply env s) s

@[simp] theorem runOps_nil (env : Env) (s : Db) : runOps env [] s = s := rfl

@[simp] theorem runOps_cons (env : Env) (op : GuildOp) (ops : List GuildOp) (s : Db) :
    runOps env (op :: ops) s = runOps env ops (op.apply env s) := rfl

@[simp] theorem runOps_append (env : Env) (ops ops' : List GuildOp) (s : Db) :
    runOps env (ops ++ ops') s = runOps env ops' (runOps env ops s) := by
  simp [runOps]

/-- Every operation of a run is made in a database that satisfies `C` with it. -/
def Stepwise (env : Env) (C : GuildOp → Db → Prop) : List GuildOp → Db → Prop
  | [], _ => True
  | op :: ops, s => C op s ∧ Stepwise env C ops (op.apply env s)

theorem stepwise_append {env : Env} {s : Db} {C : GuildOp → Db → Prop} {ops ops' : List GuildOp} :
    Stepwise env C (ops ++ ops') s ↔
      Stepwise env C ops s ∧ Stepwise env C ops' (runOps env ops s) := by
  induction ops generalizing s with
  | nil => simp [Stepwise]
  | cons op ops ih => simp only [List.cons_append, Stepwise, ih, runOps_cons, and_assoc]

/-! ## The steps of a row -/

/-- What each operation, made in `s` under policy `p`, can do to the row of `u`. -/
inductive OpStep (env : Env) (s : Db) (p : Policy) (u : Uuid) :
    GuildOp → Option UserGuildStats → Option UserGuildStats → Prop where
  | same (op : GuildOp) (o : Option UserGuildStats) : OpStep env s p u op o o
  | ensured (t : Int) (o : Option UserGuildStats) :
      OpStep env s p u (.getGuildSnapshot u t) o (some (o.getD (freshStats p u)))
  | shown (t : Int) (o : Option UserGuildStats) :
      OpStep env s p u (.getGuildSnapshot u t) o (some (currentStats p u o))
  | active (op : HumanOp) (o : Option UserGuildStats) (user : op.user = u) (hc : op.Commits env s)
      (h : (activity p (currentStats p u o) op.today op.now).Valid) :
      OpStep env s p u (.human op) o (some (activity p (currentStats p u o) op.today op.now))
  | looked (q : ContributionRequest) (now startedAt : Int) (id : Uuid) (o : Option UserGuildStats) :
      OpStep env s p u (.recordContributionEvent q now startedAt id) o (some (currentStats p u o))
  | scored (q : ContributionRequest) (now startedAt : Int) (id : Uuid) (o : Option UserGuildStats)
      (score : Int) (h : 0 ≤ score) :
      OpStep env s p u (.recordContributionEvent q now startedAt id) o
        (some { currentStats p u o with
          contributionScore := score
          derivedRank := (p.rankPolicyForScore score).rank })
  | frozen (admin : Option Uuid) (reason : String) (audit : Uuid) (r : UserGuildStats) :
      OpStep env s p u (.freezeGuildProgression admin u reason audit) (some r)
        (some (frozenStats r))
  | cleared (admin : Uuid) (reason : String) (audit : Uuid) (r : UserGuildStats) :
      OpStep env s p u (.unfreezeGuildProgression admin u reason audit) (some r)
        (some (clearedStats r))

/-- What an operation under policy `p` can do to the row of `u`. -/
inductive RowStep (p : Policy) (u : Uuid) :
    Option UserGuildStats → Option UserGuildStats → Prop where
  | same (o : Option UserGuildStats) : RowStep p u o o
  | ensured (o : Option UserGuildStats) : RowStep p u o (some (o.getD (freshStats p u)))
  | synced (o : Option UserGuildStats) : RowStep p u o (some (currentStats p u o))
  | active (o : Option UserGuildStats) (today now : Int)
      (h : (activity p (currentStats p u o) today now).Valid) :
      RowStep p u o (some (activity p (currentStats p u o) today now))
  | scored (o : Option UserGuildStats) (score : Int) (h : 0 ≤ score) :
      RowStep p u o (some { currentStats p u o with
        contributionScore := score
        derivedRank := (p.rankPolicyForScore score).rank })
  | frozen (r : UserGuildStats) : RowStep p u (some r) (some (frozenStats r))
  | cleared (r : UserGuildStats) : RowStep p u (some r) (some (clearedStats r))

variable {env : Env} {s s' : Db}

/-- What a human operation does: nothing, or exactly its activity update. -/
theorem HumanOp.apply_cases (env : Env) (op : HumanOp) (s : Db) :
    (¬ op.Commits env s ∧ (GuildOp.human op).apply env s = s) ∨
      (op.Commits env s ∧
        (activity (policyOf env s) (currentStats (policyOf env s) op.user (statsOf s op.user))
          op.today op.now).Valid ∧
        RowUpdate op.user
          (activity (policyOf env s) (currentStats (policyOf env s) op.user (statsOf s op.user))
            op.today op.now)
          s ((GuildOp.human op).apply env s)) := by
  rcases hrun : (op.transaction env).run s with ⟨e | key, s'⟩
  · refine .inl ⟨?_, ?_⟩
    · simp [HumanOp.Commits, hrun, Except.isOk, Except.toBool]
    · simp [GuildOp.apply, Tx.atomically, hrun]
  refine .inr ⟨by simp [HumanOp.Commits, hrun, Except.isOk, Except.toBool], ?_⟩
  rw [show (GuildOp.human op).apply env s = s' by simp [GuildOp.apply, Tx.atomically, hrun]]
  cases op with
  | recordHumanActivity u t now audit =>
    obtain ⟨a, s₁, hrun, hend⟩ := Tx.run_bind_eq_ok hrun
    cases hend
    exact run_humanOperation_ok (fun _ _ => Tx.keeps_pure _ _) hrun
  | sendMessageWithGuild m now audit =>
    obtain ⟨a, s₁, hrun, hend⟩ := Tx.run_bind_eq_ok hrun
    cases hend
    exact run_humanOperation_ok (fun p r =>
      keeps_sendMessageChecked (fun _ _ => rfl) (fun _ _ => rfl) env p r m now) hrun
  | runAttachmentActionWithGuild u mimeType operation now audit =>
    obtain ⟨a, s₁, hrun, hend⟩ := Tx.run_bind_eq_ok hrun
    cases hend
    exact run_humanOperation_ok
      (fun p r => keeps_attachmentActionChecked (fun _ _ => rfl) operation.keeps env p r u mimeType now)
      hrun
  | resolveContactWithGuild u now audit =>
    obtain ⟨a, s₁, hrun, hend⟩ := Tx.run_bind_eq_ok hrun
    cases hend
    exact run_humanOperation_ok (fun p r =>
      keeps_resolveContactChecked (fun _ _ => rfl) env p r u now) hrun

theorem run_getGuildSnapshot_cases (env : Env) (u : Uuid) (today : Int) (s : Db) :
    (∃ e s', (getGuildSnapshot env u today).run s = (.error e, s') ∧ StatsFrame u s s' ∧
        (statsOf s' u = statsOf s u ∨
          statsOf s' u = some ((statsOf s u).getD (freshStats (policyOf env s) u)))) ∨
      ∃ s' c₁ c₂ c₃, (getGuildSnapshot env u today).run s =
          (.ok (buildSnapshot env.unicode (policyOf env s)
            (currentStats (policyOf env s) u (statsOf s u)) c₁ c₂ c₃
            (clientLevel ((statsOf s u).getD (freshStats (policyOf env s) u)))
            ((statsOf s u).getD (freshStats (policyOf env s) u)).derivedRank), s') ∧
        statsOf s' u = some (currentStats (policyOf env s) u (statsOf s u)) ∧
        StatsFrame u s s' := by
  unfold getGuildSnapshot loadGuildPolicyConn
  rw [Tx.run_bind_ok (Tx.run_query _ _)]
  rcases run_ensureUserGuildStats_cases (policyOf env s) u s with
    ⟨e, he⟩ | ⟨r, s₁, hrun, rfl, hget, hframe⟩
  · exact .inl ⟨e, s, Tx.run_bind_error he _, .refl u s, .inl rfl⟩
  rw [Tx.run_bind_ok hrun]
  dsimp only
  rcases run_syncDerivedState_cases (policyOf env s) hget with ⟨e, he⟩ | ⟨s₂, hrun₂, hget₂, hframe₂⟩
  · exact .inl ⟨e, s₁, Tx.run_bind_error he _, hframe, .inr hget⟩
  · rw [Tx.run_bind_ok hrun₂]
    exact .inr ⟨s₂, _, _, _, rfl, hget₂, hframe.trans hframe₂⟩

theorem run_executeUpdateStats_row (u v : Uuid) (f : UserGuildStats → UserGuildStats)
    (hf : ∀ r, (f r).userId = r.userId) (s : Db) :
    let s' := ((executeUpdateStats u f hf).run s).2
    s'.adminSettings = s.adminSettings ∧
      (statsOf s' v = statsOf s v ∨
        v = u ∧ ∃ r, statsOf s v = some r ∧ statsOf s' v = some (f r)) := by
  rcases run_executeUpdateStats_cases u f hf s with ⟨e, he⟩ | ⟨s', hrun, hrow, -, hframe⟩
  · rw [he]
    exact ⟨rfl, .inl rfl⟩
  · rw [hrun]
    refine ⟨hframe.adminSettings, ?_⟩
    by_cases hv : v = u
    · subst hv
      rcases h : statsOf s v with _ | r
      · exact .inl (by rw [hrow, h]; rfl)
      · exact .inr ⟨rfl, r, rfl, by rw [hrow, h]; rfl⟩
    · exact .inl (hframe.other hv)

theorem run_update_audit (u v : Uuid) (f : UserGuildStats → UserGuildStats)
    (hf : ∀ r, (f r).userId = r.userId) {log : Query Unit} (hlog : log.Keeps guildRows) (s : Db) :
    let s' := ((do executeUpdateStats u f hf; log : Query Unit).run s).2
    s'.adminSettings = s.adminSettings ∧
      (statsOf s' v = statsOf s v ∨
        v = u ∧ ∃ r, statsOf s v = some r ∧ statsOf s' v = some (f r)) := by
  have hrow := run_executeUpdateStats_row u v f hf s
  rcases hrun : (executeUpdateStats u f hf).run s with ⟨e | x, s₁⟩
  · rw [Tx.run_bind_error hrun]
    simpa [hrun] using hrow
  · rw [Tx.run_bind_ok hrun]
    have hkeep := hlog.run s₁
    simp only [guildRows, Prod.mk.injEq] at hkeep
    simp only [statsOf, hkeep.1, hkeep.2]
    simpa [hrun] using hrow

theorem keeps_pruneGuildHistory (env : Env) (now : Int) :
    (pruneGuildHistory env now).Keeps guildRows := by
  refine Tx.keeps_bind (Tx.keeps_query _ _) (fun p => ?_)
  refine Tx.keeps_bind (Tx.keeps_okOr _ _ _) (fun day => ?_)
  refine Tx.keeps_bind (Tx.keeps_okOr _ _ _) (fun time => ?_)
  refine Tx.keeps_bind (Query.keeps_exec (fun s a s' h => ?_)) (fun _ => ?_)
  · cases h
    rfl
  refine Tx.keeps_bind (Query.keeps_exec (fun s a s' h => ?_)) (fun _ => Tx.keeps_pure _ _)
  cases h
  rfl

theorem keeps_saveGuildPolicy {τ : Type} {π : Db → τ}
    (hπ : ∀ s t, π { s with adminSettings := t } = π s) (env : Env) (policy : GuildPolicyConfig) :
    (saveGuildPolicy env policy).Keeps π := by
  unfold saveGuildPolicy
  split
  · exact Tx.keeps_throw _ _
  · refine Tx.keeps_bind (Query.keeps_exec (fun s a s' h => ?_)) (fun _ => Tx.keeps_pure _ _)
    split at h
    · cases h
    · split at h <;> cases h <;> exact hπ s _

/-- Every operation is one of the steps of each row. -/
theorem GuildOp.opStep (env : Env) (op : GuildOp) (s : Db) (v : Uuid) :
    OpStep env s (policyOf env s) v op (statsOf s v) (statsOf (op.apply env s) v) := by
  cases op with
  | human op =>
    rcases op.apply_cases env s with ⟨-, h⟩ | ⟨hc, hv, h⟩
    · rw [h]
      exact .same _ _
    · by_cases hu : v = op.user
      · subst hu
        rw [h.self]
        exact .active op _ rfl hc hv
      · rw [h.other v hu]
        exact .same _ _
  | getGuildSnapshot u t =>
    rw [apply]
    rcases run_getGuildSnapshot_cases env u (dateNaive t) s with
      ⟨e, s', hrun, hframe, hrow⟩ | ⟨s', c₁, c₂, c₃, hrun, hrow, hframe⟩
    all_goals
      rw [hrun]
      by_cases hu : v = u
      swap
      · rw [hframe.other hu]
        exact .same _ _
      subst hu
    · rcases hrow with hrow | hrow <;> rw [hrow]
      · exact .same _ _
      · exact .ensured t _
    · rw [hrow]
      exact .shown t _
  | recordContributionEvent q now startedAt id =>
    rw [apply]
    rcases Tx.atomically_snd_cases (Guild.recordContributionEvent env q now startedAt id) s with
      ⟨o, hrun⟩ | hs
    swap
    · rw [hs]
      exact .same _ _
    have heff := run_recordContributionEvent_ok hrun
    by_cases hu : v = q.userId
    · subst hu
      rcases heff.effect with ⟨-, -, -, hrow, -⟩ | ⟨-, -, hscore, hrow, -⟩ <;> rw [hrow]
      · exact .looked _ _ _ _ _
      · exact .scored _ _ _ _ _ _ (by rw [hscore]; exact le_max_right _ _)
    · rcases heff.other v hu with hrow | hrow <;> rw [hrow]
      · exact .same _ _
      · exact .looked _ _ _ _ _
  | freezeGuildProgression admin target reason audit =>
    have hlog : ∀ log : Query Unit, log.Keeps guildRows →
        OpStep env s (policyOf env s) v (.freezeGuildProgression admin target reason audit)
          (statsOf s v) (statsOf ((do
            executeUpdateStats target frozenStats
            log : Query Unit).run s).2 v) := by
      intro log hlog
      rcases (run_update_audit target v frozenStats (fun _ => rfl) hlog s).2 with
        h | ⟨rfl, r, hr, h⟩
      · rw [h]
        exact .same _ _
      · rw [h, hr]
        exact .frozen admin reason audit r
    cases admin with
    | none => exact hlog _ (keeps_insertAuditLog (fun _ _ => rfl) _)
    | some a => exact hlog _ (keeps_insertAuditLog (fun _ _ => rfl) _)
  | unfreezeGuildProgression admin target reason audit =>
    rw [apply, Guild.unfreezeGuildProgression]
    rcases (run_update_audit target v clearedStats (fun _ => rfl)
      (keeps_insertAuditLog (fun _ _ => rfl) _) s).2 with h | ⟨rfl, r, hr, h⟩
    · rw [h]
      exact .same _ _
    · rw [h, hr]
      exact .cleared admin reason audit r
  | saveGuildPolicy policy =>
    have h := (keeps_saveGuildPolicy (π := Db.userGuildStats) (fun _ _ => rfl) env policy).run s
    rw [apply, statsOf, statsOf, h]
    exact .same _ _
  | pruneGuildHistory now =>
    have h := (keeps_pruneGuildHistory env now).run s
    simp only [guildRows, Prod.mk.injEq] at h
    rw [apply, statsOf, statsOf, h.1]
    exact .same _ _

theorem OpStep.rowStep {p : Policy} {u : Uuid} {op : GuildOp} {o o' : Option UserGuildStats}
    (h : OpStep env s p u op o o') : RowStep p u o o' := by
  cases h with
  | same => exact .same o
  | ensured t => exact .ensured o
  | shown t => exact .synced o
  | active op _ user hc h => exact .active o _ _ h
  | looked => exact .synced o
  | scored _ _ _ _ _ score h => exact .scored o score h
  | frozen _ _ _ r => exact .frozen r
  | cleared _ _ _ r => exact .cleared r

theorem GuildOp.rowStep (env : Env) (op : GuildOp) (s : Db) (v : Uuid) :
    RowStep (policyOf env s) v (statsOf s v) (statsOf (op.apply env s) v) :=
  (op.opStep env s v).rowStep

/-! ## Reachable databases -/

/-- The databases that guild operations reach from one without rows. What happens in the
rest of the server leaves a row alone, or deletes it with its user. -/
inductive Reachable (env : Env) : Db → Prop where
  | start {s : Db} (h : ∀ u, statsOf s u = none) : Reachable env s
  | op {s : Db} (h : Reachable env s) (op : GuildOp) : Reachable env (op.apply env s)
  | elsewhere {s s' : Db} (h : Reachable env s)
      (hrows : ∀ u, statsOf s' u = statsOf s u ∨ statsOf s' u = none) : Reachable env s'

theorem Reachable.rows {I : UserGuildStats → Prop}
    (hstep : ∀ p u o o', RowStep p u o o' → (∀ r ∈ o, I r) → ∀ r ∈ o', I r)
    (h : Reachable env s) (u : Uuid) : ∀ r ∈ statsOf s u, I r := by
  induction h with
  | start h => simp [h u]
  | op _ op ih => exact hstep _ u _ _ (op.rowStep env _ u) ih
  | elsewhere _ hrows ih =>
    rcases hrows u with h | h <;> rw [h]
    · exact ih
    · simp

theorem Reachable.runOps (h : Reachable env s) (ops : List GuildOp) :
    Reachable env (runOps env ops s) := by
  induction ops generalizing s with
  | nil => exact h
  | cons op ops ih => exact ih (h.op op)

def ReviewConsistent (r : UserGuildStats) : Prop :=
  (r.automationReviewState = .clear ∧ r.suspiciousActivityStreak = 0) ∨
    (r.automationReviewState = .challenged ∧ 0 < r.suspiciousActivityStreak ∧
      r.suspiciousActivityStreak < suspiciousActivityFreezeThreshold) ∨
    (r.automationReviewState = .frozen ∧ 0 ≤ r.suspiciousActivityStreak ∧
      r.suspiciousActivityStreak ≤ suspiciousActivityFreezeThreshold)

theorem activity_score (p : Policy) (r : UserGuildStats) (today now : Int) :
    (activity p r today now).contributionScore = r.contributionScore := by
  unfold activity
  dsimp only
  split <;> rfl

/-- What the activity update does with the streak, the state and the active days. -/
theorem activity_cases (p : Policy) (r : UserGuildStats) (today now : Int) :
    let r' := activity p r today now
    r'.lastHumanActivityAt = some now ∧
    ((r.automationReviewState = .frozen ∧ canRecoverFromFrozen r today now = true ∧
        r'.suspiciousActivityStreak = 0 ∧ r'.automationReviewState = .clear ∧
        r'.lastActiveDay = some today ∧ r'.activeDays = i32 (r.activeDays + 1)) ∨
      (r.automationReviewState = .frozen ∧ canRecoverFromFrozen r today now = false ∧
        r'.suspiciousActivityStreak = r.suspiciousActivityStreak ∧
        r'.automationReviewState = .frozen ∧ r'.lastActiveDay = r.lastActiveDay ∧
        r'.activeDays = r.activeDays) ∨
      (r.automationReviewState ≠ .frozen ∧ suspiciousNewDayAttempt r today now = true ∧
        r'.suspiciousActivityStreak = saturatingAdd r.suspiciousActivityStreak 1 ∧
        r'.automationReviewState = stateForStreak r'.suspiciousActivityStreak ∧
        r'.lastActiveDay = r.lastActiveDay ∧ r'.activeDays = r.activeDays) ∨
      (r.automationReviewState ≠ .frozen ∧ suspiciousNewDayAttempt r today now = false ∧
        r.lastActiveDay ≠ some today ∧
        r'.suspiciousActivityStreak = max (saturatingSub r.suspiciousActivityStreak 1) 0 ∧
        r'.automationReviewState = stateForStreak r'.suspiciousActivityStreak ∧
        r'.lastActiveDay = some today ∧ r'.activeDays = i32 (r.activeDays + 1)) ∨
      (r.automationReviewState ≠ .frozen ∧ suspiciousNewDayAttempt r today now = false ∧
        r.lastActiveDay = some today ∧
        r'.suspiciousActivityStreak = r.suspiciousActivityStreak ∧
        r'.automationReviewState = stateForStreak r'.suspiciousActivityStreak ∧
        r'.lastActiveDay = some today ∧ r'.activeDays = r.activeDays)) := by
  unfold activity assessHumanActivity
  by_cases hf : r.automationReviewState = .frozen
  · by_cases hrec : canRecoverFromFrozen r today now = true
    · simp [hf, hrec]
    · simp [hf, hrec]
  · by_cases hsus : suspiciousNewDayAttempt r today now = true
    · simp [hf, hsus]
    · by_cases hday : r.lastActiveDay = some today
      · simp [hf, hsus, hday]
      · simp [hf, hsus, hday]

theorem stateForStreak_consistent {r : UserGuildStats} (h₀ : 0 ≤ r.suspiciousActivityStreak)
    (h₃ : r.suspiciousActivityStreak ≤ suspiciousActivityFreezeThreshold)
    (hstate : r.automationReviewState = stateForStreak r.suspiciousActivityStreak) :
    ReviewConsistent r := by
  unfold stateForStreak at hstate
  unfold ReviewConsistent
  split at hstate
  · exact .inr (.inr ⟨hstate, h₀, h₃⟩)
  · split at hstate
    · exact .inr (.inl ⟨hstate, by omega, by omega⟩)
    · exact .inl ⟨hstate, by omega⟩

theorem ReviewConsistent.range {r : UserGuildStats} (h : ReviewConsistent r) :
    0 ≤ r.suspiciousActivityStreak ∧
      r.suspiciousActivityStreak ≤ suspiciousActivityFreezeThreshold := by
  unfold ReviewConsistent suspiciousActivityFreezeThreshold at *
  omega

theorem ReviewConsistent.lt_of_not_frozen {r : UserGuildStats} (h : ReviewConsistent r)
    (hf : r.automationReviewState ≠ .frozen) :
    r.suspiciousActivityStreak < suspiciousActivityFreezeThreshold := by
  rcases h with ⟨-, h⟩ | ⟨-, -, h⟩ | ⟨h, -⟩
  · rw [h]
    decide
  · exact h
  · exact absurd h hf

theorem saturatingAdd_one {a : Int} (h₀ : 0 ≤ a) (h₁ : a < suspiciousActivityFreezeThreshold) :
    saturatingAdd a 1 = a + 1 := by
  unfold saturatingAdd i32Min i32Max suspiciousActivityFreezeThreshold at *
  omega

theorem saturatingSub_one {a : Int} (h₀ : 0 ≤ a) (h₁ : a < suspiciousActivityFreezeThreshold) :
    saturatingSub a 1 = a - 1 := by
  unfold saturatingSub i32Min i32Max suspiciousActivityFreezeThreshold at *
  omega

theorem activity_consistent {p : Policy} {r : UserGuildStats} (h : ReviewConsistent r)
    (today now : Int) : ReviewConsistent (activity p r today now) := by
  obtain ⟨h₀, h₃⟩ := h.range
  obtain ⟨-, hc⟩ := activity_cases p r today now
  rcases hc with ⟨-, -, hs, hst, -⟩ | ⟨-, -, hs, hst, -⟩ | ⟨hf, -, hs, hst, -⟩ |
    ⟨hf, -, -, hs, hst, -⟩ | ⟨hf, -, -, hs, hst, -⟩
  · exact .inl ⟨hst, hs⟩
  · exact .inr (.inr ⟨hst, hs ▸ h₀, hs ▸ h₃⟩)
  · have hlt := h.lt_of_not_frozen hf
    rw [saturatingAdd_one h₀ hlt] at hs
    exact stateForStreak_consistent (by omega) (by omega) hst
  · have hlt := h.lt_of_not_frozen hf
    rw [saturatingSub_one h₀ hlt] at hs
    exact stateForStreak_consistent (by omega) (by omega) hst
  · exact stateForStreak_consistent (by omega) (by omega) hst

theorem currentStats_consistent {p : Policy} {u : Uuid} {o : Option UserGuildStats}
    (h : ∀ r ∈ o, ReviewConsistent r) : ReviewConsistent (currentStats p u o) := by
  cases o with
  | none => exact .inl ⟨rfl, rfl⟩
  | some r => exact h r rfl

theorem RowStep.consistent {p : Policy} {u : Uuid} {o o' : Option UserGuildStats}
    (hstep : RowStep p u o o') (h : ∀ r ∈ o, ReviewConsistent r) :
    ∀ r ∈ o', ReviewConsistent r := by
  cases hstep with
  | same => exact h
  | ensured =>
    rintro r ⟨⟩
    cases o with
    | none => exact .inl ⟨rfl, rfl⟩
    | some r => exact h r rfl
  | synced =>
    rintro r ⟨⟩
    exact currentStats_consistent h
  | active _ today now hv =>
    rintro r ⟨⟩
    exact activity_consistent (currentStats_consistent h) today now
  | scored _ score hs =>
    rintro r ⟨⟩
    exact currentStats_consistent h
  | frozen r =>
    rintro r' ⟨⟩
    exact .inr (.inr ⟨rfl, (h r rfl).range⟩)
  | cleared r =>
    rintro r' ⟨⟩
    exact .inl ⟨rfl, rfl⟩

theorem Reachable.consistent (h : Reachable env s) (u : Uuid) :
    ∀ r ∈ statsOf s u, ReviewConsistent r :=
  h.rows (fun _ _ _ _ hstep ih => hstep.consistent ih) u

end SyncServer.Guild
