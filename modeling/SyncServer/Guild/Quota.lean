import SyncServer.Guild.Freeze
import SyncServer.Guild.Gate
import SyncServer.Transaction.Guard

/-! # Daily quotas under concurrency

The human operations of one user on one day, interleaved with each other and with
the deletions of old history. The row of the user is the guard: the activity update
locks it before any count is read. So every operation that counts an action saw all
that were counted before it, and the day counts once.
-/

namespace SyncServer.Guild
open Transaction ReadCommitted

/-! ## The locked part of an operation -/

namespace HumanOp

/-- The id of the audit entry of the operation. -/
def audit : HumanOp → Uuid
  | recordHumanActivity _ _ _ audit => audit
  | sendMessageWithGuild _ _ audit => audit
  | runAttachmentActionWithGuild _ _ _ _ audit => audit
  | resolveContactWithGuild _ _ audit => audit

/-- What the operation does after its activity update. -/
def checked (env : Env) (policy : Policy) (stats : UserGuildStats) :
    HumanOp → Query (Option ActionKey)
  | recordHumanActivity .. => pure none
  | sendMessageWithGuild m now _ => do
    let result ← sendMessageChecked env policy stats m now
    pure result.counted
  | runAttachmentActionWithGuild u mimeType operation now _ => do
    let result ← attachmentActionChecked env policy stats u mimeType operation.program now
    pure result.counted
  | resolveContactWithGuild u now _ => do
    let result ← resolveContactChecked env policy stats u now
    pure result.counted

/-- The operation from its activity update on, with the policy and the row that it read. -/
def body (env : Env) (op : HumanOp) (b : Policy × UserGuildStats) : Query (Option ActionKey) := do
  let stats ← recordActivity b.1 b.2 op.today op.now op.audit
  op.checked env b.1 stats

theorem transaction_eq (env : Env) (op : HumanOp) :
    op.transaction env = loadStats env op.user >>= op.body env := by
  cases op with
  | recordHumanActivity u t now audit =>
    simp only [transaction, Guild.recordHumanActivity, humanOperation, Tx.bind_assoc]
    rfl
  | sendMessageWithGuild m now audit =>
    simp only [transaction, Guild.sendMessageWithGuild, humanOperation, Tx.bind_assoc]
    rfl
  | runAttachmentActionWithGuild u mimeType operation now audit =>
    simp only [transaction, Guild.runAttachmentActionWithGuild, humanOperation, Tx.bind_assoc]
    rfl
  | resolveContactWithGuild u now audit =>
    simp only [transaction, Guild.resolveContactWithGuild, humanOperation, Tx.bind_assoc]
    rfl

end HumanOp

/-- From `d` to `d'` the counters of the day moved by the counted action, which was below
its limit. -/
structure Counted (p : Policy) (r : UserGuildStats) (u : Uuid) (day : Int) (d d' : Db)
    (action : Option ActionKey) : Prop where
  bucket : ∀ key, bucket d' u key day = bucket d u key day + if action = some key then 1 else 0
  below : ∀ key, action = some key →
    limitReached (limitEnforced p key) (dailyLimit p r key) (Guild.bucket d u key day) = false

variable {env : Env} {p : Policy} {r : UserGuildStats} {d d' : Db}

theorem Counted.idle {u : Uuid} {day : Int} : Counted p r u day d d none where
  bucket key := by simp
  below key hkey := by cases hkey

theorem Counted.one {u : Uuid} {day : Int} {key : ActionKey} {d₁ : Db}
    (hkeep : d₁.dailyActionCounters = d.dailyActionCounters)
    (hbelow : limitReached (limitEnforced p key) (dailyLimit p r key) (Guild.bucket d u key day) =
      false)
    (hincrement : (incrementDailyCounter u key day).run d₁ = (.ok (), d')) :
    Counted p r u day d d' (some key) where
  bucket key' := by rw [bucket_of_increment hincrement, bucket_of_counters hkeep]
  below key' hkey := by
    cases hkey
    exact hbelow

theorem counted_sendMessageChecked {m : NewMessage} {now : Int} {res : SendMessageWithTrustResult}
    (h : (sendMessageChecked env p r m now).run d = (.ok res, d')) :
    Counted p r m.senderId (dateNaive now) d d' res.counted := by
  rcases run_sendMessageChecked_ok h with
    ⟨rfl, rfl⟩ | ⟨hbelow, saved, d₁, rfl, hinsert, hincrement⟩
  · exact .idle
  · exact .one ((keeps_insertMessageConn (fun _ _ => rfl) m).of_run hinsert) hbelow hincrement

theorem counted_attachmentActionChecked {u : Uuid} {mimeType : String}
    {operation : AttachmentOperation} {now : Int}
    {res : AttachmentActionWithTrustResult operation.Value}
    (h : (attachmentActionChecked env p r u mimeType operation.program now).run d =
      (.ok res, d')) : Counted p r u (dateNaive now) d d' res.counted := by
  rcases run_attachmentActionChecked_ok h with
    ⟨rfl, rfl | rfl⟩ | ⟨hbelow, value, d₁, rfl, hvalue, hincrement⟩
  · exact .idle
  · exact .idle
  · exact .one (operation.keepsCounters.of_run hvalue) hbelow hincrement

theorem counted_resolveContactChecked {u : Uuid} {now : Int} {res : ResolveContactWithTrustResult}
    (h : (resolveContactChecked env p r u now).run d = (.ok res, d')) :
    Counted p r u (dateNaive now) d d' res.counted := by
  rcases run_resolveContactChecked_ok h with ⟨rfl, rfl⟩ | ⟨-, hbelow, rfl, hincrement⟩
  · exact .idle
  · exact .one rfl hbelow hincrement

theorem run_checked_ok {op : HumanOp} (hday : dateNaive op.now = op.today)
    {action : Option ActionKey} (h : (op.checked env p r).run d = (.ok action, d')) :
    Counted p r op.user op.today d d' action := by
  rw [← hday]
  cases op with
  | recordHumanActivity u t now audit =>
    cases h
    exact .idle
  | sendMessageWithGuild m now audit =>
    obtain ⟨res, d₁, h₁, h⟩ := Tx.run_bind_eq_ok h
    cases h
    exact counted_sendMessageChecked h₁
  | runAttachmentActionWithGuild u mimeType operation now audit =>
    obtain ⟨res, d₁, h₁, h⟩ := Tx.run_bind_eq_ok h
    cases h
    exact counted_attachmentActionChecked h₁
  | resolveContactWithGuild u now audit =>
    obtain ⟨res, d₁, h₁, h⟩ := Tx.run_bind_eq_ok h
    cases h
    exact counted_resolveContactChecked h₁

/-! ## The activity update of a stale row -/

/-- The active days of a user and the last of them. -/
def progressOf (s : Db) (u : Uuid) : Int × Option Int :=
  ((statsOf s u).map (fun r => (r.activeDays, r.lastActiveDay))).getD (0, none)

/-- The activity update counts the day by the row that it locks, whatever row it was given. -/
theorem run_recordActivity_stale {u : Uuid} {today now : Int} {audit : Uuid} {r r' : UserGuildStats}
    (hu : r.userId = u) (h : (recordActivity p r today now audit).run d = (.ok r', d')) :
    StatsFrame u d d' ∧ statsOf d' u = some r' ∧ r'.Valid ∧
      (progressOf d' u = progressOf d u ∨
        ((progressOf d u).2 ≠ some today ∧
          progressOf d' u = (i32 ((progressOf d u).1 + 1), some today))) := by
  unfold recordActivity at h
  replace h := Tx.run_bind_eq_ok h
  obtain ⟨⟨r₁, a⟩, d₁, h₁, h⟩ := h
  obtain ⟨rfl, r₀, hr₀, hr₁, hv₁, hget₁, hframe₁⟩ := run_updateHumanActivityState_ok hu h₁
  have hp₁ : progressOf d₁ u = progressOf d u := by
    rw [progressOf, progressOf, hget₁, hr₀, hr₁]
    rfl
  dsimp only at h
  split at h
  swap
  · cases h
    exact ⟨hframe₁, hget₁, hv₁, .inl hp₁⟩
  unfold advanceActiveDayIfNeeded at h
  split at h
  · cases h
    exact ⟨hframe₁, hget₁, hv₁, .inl hp₁⟩
  rename_i hne
  rw [show r₁.userId = u from Table.key_of_get hget₁] at h
  obtain ⟨r₂, hr₂, hr', hv, hget, hframe⟩ := run_updateStats_ok h
  cases hget₁.symm.trans hr₂
  have hr₁p : progressOf d u = (r₁.activeDays, r₁.lastActiveDay) := by
    rw [← hp₁, progressOf, hget₁]
    rfl
  refine ⟨hframe₁.trans hframe, hget, hv, .inr ⟨?_, ?_⟩⟩
  · rw [hr₁p]
    exact hne
  · rw [hr₁p, progressOf, hget, hr']
    rfl

/-! ## The guard -/

/-- What an operation may have written before its activity update: a row for the user, and
the derived columns. -/
structure EarlyWrite (u : Uuid) (day : Int) (w : Db → Db) : Prop where
  part : ∀ d d', quotaPart day d = quotaPart day d' → quotaPart day (w d) = quotaPart day (w d')
  frame : ∀ d, StatsFrame u d (w d)
  progress : ∀ d, progressOf (w d) u = progressOf d u

theorem earlyWrite_id (u : Uuid) (day : Int) : EarlyWrite u day id :=
  ⟨fun _ _ h => h, fun d => .refl u d, fun _ => rfl⟩

theorem policyOf_congr (env : Env) {day : Int} {d d' : Db} (h : quotaPart day d = quotaPart day d') :
    policyOf env d = policyOf env d' := by
  obtain ⟨c, e, rfl⟩ := eq_of_outsideGuild (congrArg Prod.fst h)
  rfl

/-- The row of the user guards the part of the day; the policy `p` is in force throughout. -/
def quotaGuard (env : Env) (p : Policy) (u : Uuid) (day : Int) : Guard Db RowLock
    (Db × Table (Uuid × ActionKey × Int) DailyActionCounter DailyActionCounter.key) where
  row := .userGuildStats u
  part := quotaPart day
  fixed d := policyOf env d = p
  early := EarlyWrite u day
  fixed_part _ _ h hp := (policyOf_congr env h).symm.trans hp
  early_id := earlyWrite_id u day
  early_comp _ w' h h' := ⟨fun d d' hd => h.part _ _ (h'.part d d' hd),
    fun d => (h'.frame d).trans (h.frame (w' d)),
    fun d => (h.progress (w' d)).trans (h'.progress d)⟩
  early_part _ h := h.part
  early_fixed _ h d hp := ((h.frame d).policyOf env).trans hp

def Handover (p : Policy) (u : Uuid) (b : Policy × UserGuildStats) : Prop :=
  b.1 = p ∧ b.2.userId = u

variable {u : Uuid} {day : Int}

theorem does_early_exec {α : Type} {I : Db → Prop} {P : α → Prop} {l : Db → List RowLock}
    {f : Db → Except DbError (α × Db)} (hblind : (Query.exec l f).Local outsideGuild)
    (hkeeps : (Query.exec l f).Keeps Db.dailyActionCounters)
    (hrun : ∀ d, StatsFrame u d ((Query.exec l f).run d).2 ∧
      progressOf ((Query.exec l f).run d).2 u = progressOf d u)
    (hP : ∀ d a d', f d = .ok (a, d') → P a) :
    (Query.exec l f).Does I (EarlyWrite u day) P := by
  refine Tx.does_exec ⟨(local_of_blind hblind hkeeps day).2.1, fun d => (hrun d).1,
    fun d => (hrun d).2⟩ (fun d _ a ha => ?_) l
  rcases hf : f d with e | ⟨a', d'⟩
  · simp [Tx.outcome, hf, Except.mapError, Except.map] at ha
  · simp only [Tx.outcome, hf, Except.mapError, Except.map, Except.ok.injEq] at ha
    exact ha ▸ hP d a' d' hf

theorem progressOf_of_none {s : Db} (h : statsOf s u = none) : progressOf s u = (0, none) := by
  rw [progressOf, h]
  rfl

theorem progressOf_of_some {s : Db} {r : UserGuildStats} (h : statsOf s u = some r) :
    progressOf s u = (r.activeDays, r.lastActiveDay) := by
  rw [progressOf, h]
  rfl

theorem does_insertStats (I : Db → Prop) :
    (insertStats (freshStats p u)).Does I (EarlyWrite u day) (fun _ => True) := by
  refine does_early_exec (blind_insertStats _) (keeps_insertStats (fun _ _ => rfl) _) (fun d => ?_)
    (fun _ _ _ _ => trivial)
  change StatsFrame u d ((insertStats (freshStats p u)).run d).2 ∧
    progressOf ((insertStats (freshStats p u)).run d).2 u = _
  rcases run_insertStats_cases (freshStats p u) d with ⟨e, he⟩ | ⟨d', hrun, hget, hframe⟩
  · rw [he]
    exact ⟨.refl u d, rfl⟩
  · rw [hrun]
    refine ⟨hframe, ?_⟩
    change statsOf d' u = some ((statsOf d u).getD _) at hget
    change progressOf d' u = _
    rw [progressOf_of_some hget]
    rcases h : statsOf d u with _ | r
    · rw [progressOf_of_none h]
      rfl
    · rw [progressOf_of_some h]
      rfl

theorem does_updateStats (I : Db → Prop) {f : UserGuildStats → UserGuildStats}
    {hf : ∀ r, (f r).userId = r.userId} (hdays : ∀ r, (f r).activeDays = r.activeDays)
    (hlast : ∀ r, (f r).lastActiveDay = r.lastActiveDay) :
    (updateStats u f hf).Does I (EarlyWrite u day) (fun r => r.userId = u) := by
  refine does_early_exec (blind_updateStats u f hf) (keeps_updateStats (fun _ _ => rfl) u f hf)
    (fun d => ?_) (fun d r d' h => ?_)
  · change StatsFrame u d ((updateStats u f hf).run d).2 ∧
      progressOf ((updateStats u f hf).run d).2 u = _
    rcases run_updateStats_cases u f hf d with ⟨e, he⟩ | ⟨r, d', hr, -, hrun, hget, hframe⟩
    · rw [he]
      exact ⟨.refl u d, rfl⟩
    · rw [hrun]
      refine ⟨hframe, ?_⟩
      change progressOf d' u = _
      rw [progressOf_of_some hget, progressOf_of_some hr, hdays, hlast]
  · split at h
    · cases h
    · rename_i r₀ hr₀
      split at h <;> cases h
      rw [hf]
      exact Table.key_of_get hr₀

theorem does_loadStats (env : Env) (p : Policy) (u : Uuid) (day : Int) :
    (loadStats env u).Does (fun d => policyOf env d = p) (EarlyWrite u day) (Handover p u) := by
  unfold loadStats loadGuildPolicyConn
  refine Tx.does_bind (Tx.does_query (earlyWrite_id u day) (P := fun q => q = p)
    (fun _ hd => hd)) ?_
  rintro q rfl
  refine Tx.does_bind (P := fun r => r.userId = u) ?_ (fun r hr => ?_)
  · unfold ensureUserGuildStats
    refine Tx.does_bind (does_insertStats _) (fun _ _ => ?_)
    refine Tx.does_bind (P := fun o => ∀ r ∈ o, r.userId = u)
      (Tx.does_query (earlyWrite_id u day) (fun d _ => ?_)) (fun o ho => ?_)
    · intro r hr
      exact Table.key_of_get (t := d.userGuildStats) hr
    exact Tx.does_okOr _ ho
  · refine Tx.does_bind (P := fun r => r.userId = u) ?_ (fun r hr => ⟨rfl, hr⟩)
    dsimp only [syncDerivedState]
    split
    · exact hr
    · rw [hr]
      exact does_updateStats _ (fun _ => rfl) (fun _ => rfl)

/-! ## The bodies -/

theorem blind_recordActivity (p : Policy) (r : UserGuildStats) (today now : Int) (audit : Uuid) :
    (recordActivity p r today now audit).Local outsideGuild := by
  refine Tx.local_bind ?_ (fun x => ?_)
  · refine Tx.local_bind (blind_updateStats _ _ _) (fun r' => ?_)
    refine Tx.local_bind ?_ (fun _ => trivial)
    unfold auditReviewState
    split
    · trivial
    · exact blind_insertAuditLog _
  · dsimp only
    split
    · unfold advanceActiveDayIfNeeded
      split
      · trivial
      · exact blind_updateStats _ _ _
    · trivial

theorem local_sendMessageChecked (m : NewMessage) (now : Int) :
    (sendMessageChecked env p r m now).Local (quotaPart (dateNaive now)) := by
  refine Tx.local_bind (local_dailyActionCount _ _ _) (fun _ => ?_)
  refine Tx.local_bind (local_dailyActionCount _ _ _) (fun _ => ?_)
  refine Tx.local_bind (local_dailyActionCount _ _ _) (fun _ => ?_)
  dsimp only
  split
  · trivial
  · refine Tx.local_bind (local_of_blind (blind_insertMessageConn m)
      (keeps_insertMessageConn (fun _ _ => rfl) m) _) (fun _ => ?_)
    exact Tx.local_bind (local_incrementDailyCounter _ _ _) (fun _ => trivial)

theorem local_attachmentActionChecked (mimeType : String) (operation : AttachmentOperation)
    (now : Int) : (attachmentActionChecked env p r u mimeType operation.program now).Local
      (quotaPart (dateNaive now)) := by
  refine Tx.local_bind (local_dailyActionCount _ _ _) (fun _ => ?_)
  refine Tx.local_bind (local_dailyActionCount _ _ _) (fun _ => ?_)
  refine Tx.local_bind (local_dailyActionCount _ _ _) (fun _ => ?_)
  dsimp only
  split
  · trivial
  split
  · trivial
  · refine Tx.local_bind (local_of_blind operation.blind operation.keepsCounters _) (fun _ => ?_)
    exact Tx.local_bind (local_incrementDailyCounter _ _ _) (fun _ => trivial)

theorem local_resolveContactChecked (now : Int) :
    (resolveContactChecked env p r u now).Local (quotaPart (dateNaive now)) := by
  refine Tx.local_bind (local_of_blind (blind_query (fun _ _ _ => rfl)) (Tx.keeps_query _ _) _)
    (fun _ => ?_)
  refine Tx.local_bind (Tx.local_okOr _ _ _) (fun _ => ?_)
  split
  · trivial
  refine Tx.local_bind (local_dailyActionCount _ _ _) (fun _ => ?_)
  refine Tx.local_bind (local_dailyActionCount _ _ _) (fun _ => ?_)
  refine Tx.local_bind (local_dailyActionCount _ _ _) (fun _ => ?_)
  dsimp only
  split
  · trivial
  · exact Tx.local_bind (local_incrementDailyCounter _ _ _) (fun _ => trivial)

theorem local_checked {op : HumanOp} (hday : dateNaive op.now = day) :
    (op.checked env p r).Local (quotaPart day) := by
  subst hday
  cases op with
  | recordHumanActivity u t now audit => trivial
  | sendMessageWithGuild m now audit =>
    exact Tx.local_bind (local_sendMessageChecked m now) (fun _ => trivial)
  | runAttachmentActionWithGuild u mimeType operation now audit =>
    exact Tx.local_bind (local_attachmentActionChecked mimeType operation now) (fun _ => trivial)
  | resolveContactWithGuild u now audit =>
    exact Tx.local_bind (local_resolveContactChecked now) (fun _ => trivial)

theorem keeps_checked (op : HumanOp) : (op.checked env p r).Keeps guildRows := by
  cases op with
  | recordHumanActivity u t now audit => trivial
  | sendMessageWithGuild m now audit =>
    exact Tx.keeps_bind (keeps_sendMessageChecked (fun _ _ => rfl) (fun _ _ => rfl) env p r m now) (fun _ => trivial)
  | runAttachmentActionWithGuild u mimeType operation now audit =>
    exact Tx.keeps_bind (keeps_attachmentActionChecked (fun _ _ => rfl) operation.keeps env p r u mimeType now)
      (fun _ => trivial)
  | resolveContactWithGuild u now audit =>
    exact Tx.keeps_bind (keeps_resolveContactChecked (fun _ _ => rfl) env p r u now) (fun _ => trivial)

theorem startsLocked_updateStats (u : Uuid) (f : UserGuildStats → UserGuildStats)
    (hf : ∀ r, (f r).userId = r.userId) : (updateStats u f hf).StartsLocked (.userGuildStats u) := by
  refine Tx.startsLocked_exec (fun d => ?_)
  rcases h : d.userGuildStats.get u with _ | r
  · exact .inr ⟨_, by simp only [Tx.outcome, h]; rfl⟩
  · exact .inl (by simp)

theorem body_human (env : Env) {op : HumanOp} (hday : dateNaive op.now = day) :
    Body (quotaGuard env p u day) (Handover p u) (op.body env) where
  locks b hb := by
    refine Tx.startsLocked_bind (Tx.startsLocked_bind (Tx.startsLocked_bind ?_))
    rw [hb.2]
    exact startsLocked_updateStats u _ _
  reads b := Tx.local_bind
    (local_of_blind (blind_recordActivity _ _ _ _ _)
      (keeps_recordActivity (fun _ _ => rfl) (fun _ _ => rfl) _ _ _ _ _) day)
    (fun _ => local_checked hday)
  keeps b := by
    have hkeep : (op.body env b).Keeps Db.adminSettings := Tx.keeps_bind
      (keeps_recordActivity (fun _ _ => rfl) (fun _ _ => rfl) _ _ _ _ _)
      (fun _ => (keeps_checked op).map Prod.snd)
    refine Tx.writes_mono (fun w hw d hd => ?_) hkeep
    change policyOf env (w d) = p
    rw [policyOf, hw d]
    exact hd

/-! ## Deletions of old history -/

/-- The first deletion of `prune_guild_history`. -/
def pruneCounters (policy : Policy) (now : Int) : Query (Option ActionKey) := do
  let day ← Tx.okOr .panicked (dateSubDays (dateNaive now) policy.dailyCounterRetentionDays)
  let _ ← deleteCountersBefore day
  pure none

/-- The second deletion of `prune_guild_history`. -/
def pruneEvents (policy : Policy) (now : Int) : Query (Option ActionKey) := do
  let time ← Tx.okOr .panicked (timeSub now (Duration.days policy.scoreEventRetentionDays))
  let _ ← deleteEventsBefore time
  pure none

theorem run_pruneGuildHistory_ok {now : Int} {res : GuildHistoryPruneResult}
    (h : (pruneGuildHistory env now).run d = (.ok res, d')) :
    ∃ d₁, (pruneCounters (policyOf env d) now).run d = (.ok none, d₁) ∧
      (pruneEvents (policyOf env d) now).run d₁ = (.ok none, d') := by
  unfold pruneGuildHistory loadGuildPolicyConn at h
  rw [Tx.run_bind_ok (Tx.run_query _ _)] at h
  replace h := Tx.run_bind_eq_ok h
  obtain ⟨day, d₁, hday, h⟩ := h
  replace h := Tx.run_bind_eq_ok h
  obtain ⟨time, d₂, htime, h⟩ := h
  replace h := Tx.run_bind_eq_ok h
  obtain ⟨n, d₃, hcounters, h⟩ := h
  obtain ⟨m, d₄, hevents, h⟩ := Tx.run_bind_eq_ok h
  cases h
  obtain ⟨hday, rfl⟩ := Tx.run_okOr_ok.mp hday
  obtain ⟨htime, rfl⟩ := Tx.run_okOr_ok.mp htime
  refine ⟨d₃, ?_, ?_⟩
  · unfold pruneCounters
    rw [hday, Tx.run_bind_ok (Tx.run_okOr _ _ _), Tx.run_bind_ok hcounters]
    rfl
  · unfold pruneEvents
    rw [htime, Tx.run_bind_ok (Tx.run_okOr _ _ _), Tx.run_bind_ok hevents]
    rfl

theorem harmless_pruneCounters (policy : Policy) (now : Int) :
    Harmless (quotaGuard env p u (dateNaive now)) (fun a => a = none)
      (pruneCounters policy now) := by
  unfold pruneCounters
  refine Tx.does_bind (Tx.does_okOr (P := fun day => day < dateNaive now) _ (fun day hday => ?_))
    (fun day hday => Tx.does_bind (P := fun _ => True) ?_ (fun _ _ => rfl))
  · have hpos := policy.accepted.counter_retention_pos
    have := dateSubDays_eq_some hday
    omega
  · refine Tx.does_exec (fun d => ?_) (fun _ _ _ _ => trivial) _
    have hfilter : (d.dailyActionCounters.filter (fun r => !decide (r.dayBucket < day))).filter
        (fun r => decide (dateNaive now ≤ r.dayBucket)) =
        d.dailyActionCounters.filter (fun r => decide (dateNaive now ≤ r.dayBucket)) := by
      rw [Table.filter_filter]
      congr 1
      funext r
      by_cases hr : dateNaive now ≤ r.dayBucket
      · have : ¬ r.dayBucket < day := by omega
        simp [hr, this]
      · simp [hr]
    exact Prod.ext rfl hfilter

theorem harmless_pruneEvents (policy : Policy) (now : Int) :
    Harmless (quotaGuard env p u day) (fun a => a = none) (pruneEvents policy now) := by
  unfold pruneEvents
  refine Tx.does_bind (Tx.does_okOr (P := fun _ => True) _ (fun _ _ => trivial))
    (fun time _ => Tx.does_bind (P := fun _ => True) ?_ (fun _ _ => rfl))
  exact Tx.does_exec (fun d => rfl) (fun _ _ _ _ => trivial) _

/-! ## Interleavings -/

/-- The transactions of a user's day. -/
inductive QuotaCall where
  | human (op : HumanOp)
  | pruneCounters (policy : Policy) (now : Int)
  | pruneEvents (policy : Policy) (now : Int)

namespace QuotaCall

def transaction (env : Env) : QuotaCall → Query (Option ActionKey)
  | human op => op.transaction env
  | pruneCounters policy now => Guild.pruneCounters policy now
  | pruneEvents policy now => Guild.pruneEvents policy now

/-- The call is made on the given day, by the user or by the pruning task. -/
def On (u : Uuid) (day : Int) : QuotaCall → Prop
  | human op => op.user = u ∧ op.today = day ∧ dateNaive op.now = day
  | pruneCounters _ now => dateNaive now = day
  | pruneEvents _ now => dateNaive now = day

def isHuman : QuotaCall → Prop
  | human _ => True
  | _ => False

def body (env : Env) : QuotaCall → Policy × UserGuildStats → Query (Option ActionKey)
  | human op => op.body env
  | _ => fun _ => pure none

/-- What a call does after its activity update. -/
def checked (env : Env) (policy : Policy) (stats : UserGuildStats) :
    QuotaCall → Query (Option ActionKey)
  | human op => op.checked env policy stats
  | _ => pure none

end QuotaCall

/-- How the counters of the day and the progress of the user have moved since `d₀`, when the
committed calls have reported the given actions. -/
structure DayMoved (u : Uuid) (day : Int) (d₀ d : Db) (actions : List (Option ActionKey)) :
    Prop where
  bucket : ∀ key, bucket d u key day = Guild.bucket d₀ u key day + (actions.count (some key) : Nat)
  progress : progressOf d u = progressOf d₀ u ∨
    (0 ≤ i32 ((progressOf d₀ u).1 + 1) ∧
      progressOf d u = (i32 ((progressOf d₀ u).1 + 1), some day))

theorem StatsFrame.bucket (h : StatsFrame u d d') (v : Uuid) (key : ActionKey) (day : Int) :
    bucket d' v key day = bucket d v key day := by
  obtain ⟨t, a, rfl, -⟩ := h
  rfl

/-- What the body of an operation does when it runs on its own after early writes: its checks
are made on the counters of `d`, and it ends with the row that they were made for. -/
structure BodyEffect (env : Env) (p : Policy) (u : Uuid) (day : Int) (op : HumanOp) (d d' : Db)
    (action : Option ActionKey) (d₁ : Db) (r : UserGuildStats) : Prop where
  row : statsOf d₁ u = some r
  row' : statsOf d' u = some r
  run : (op.checked env p r).run d₁ = (.ok action, d')
  counted : Counted p r u day d₁ d' action
  bucket : ∀ key, bucket d₁ u key day = Guild.bucket d u key day
  progress : progressOf d' u = progressOf d u ∨
    ((progressOf d u).2 ≠ some day ∧ 0 ≤ i32 ((progressOf d u).1 + 1) ∧
      progressOf d' u = (i32 ((progressOf d u).1 + 1), some day))

theorem run_body_ok {op : HumanOp} (hop : (QuotaCall.human op).On u day)
    {b : Policy × UserGuildStats} (hb : Handover p u b) {w : Db → Db} (hw : EarlyWrite u day w)
    {action : Option ActionKey} (h : (op.body env b).run (w d) = (.ok action, d')) :
    ∃ d₁ r, BodyEffect env p u day op d d' action d₁ r := by
  obtain ⟨hu, htoday, hnow⟩ := hop
  obtain ⟨q, r₀⟩ := b
  obtain ⟨rfl, hr₀⟩ := hb
  unfold HumanOp.body at h
  replace h := Tx.run_bind_eq_ok h
  obtain ⟨r, d₁, hact, h⟩ := h
  obtain ⟨hframe, hrow, hv, hprog⟩ := run_recordActivity_stale hr₀ hact
  have hcounted := run_checked_ok (hnow.trans htoday.symm) h
  rw [hu, htoday] at hcounted
  have hrow' : statsOf d' u = some r := by
    have hkeep := (keeps_checked op).of_run h
    simp only [guildRows, Prod.mk.injEq] at hkeep
    rw [statsOf, hkeep.1]
    exact hrow
  have hprog' : progressOf d' u = progressOf d₁ u := by
    rw [progressOf_of_some hrow', progressOf_of_some hrow]
  refine ⟨d₁, r, hrow, hrow', h, hcounted, fun key => ?_, ?_⟩
  · exact (hframe.bucket u key day).trans ((hw.frame d).bucket u key day)
  · rw [hw.progress d, htoday] at hprog
    rw [hprog']
    refine hprog.imp_right (fun h => ⟨h.1, ?_, h.2⟩)
    have hnew := h.2
    rw [progressOf_of_some hrow] at hnew
    rw [← (Prod.mk.inj hnew).1]
    exact hv.1

theorem DayMoved.body {d₀ d₁ : Db} {op : HumanOp} {actions : List (Option ActionKey)}
    {action : Option ActionKey} (hm : DayMoved u day d₀ d actions)
    (h : BodyEffect env p u day op d d' action d₁ r) :
    DayMoved u day d₀ d' (actions ++ [action]) where
  bucket key := by
    rw [h.counted.bucket, h.bucket, hm.bucket, List.count_append, List.count_singleton]
    simp only [beq_iff_eq]
    split <;> simp [Int.add_assoc]
  progress := by
    rcases h.progress with hp | ⟨hlast, hnonneg, hp⟩
    · rw [hp]
      exact hm.progress
    · rcases hm.progress with hm | ⟨-, hm⟩
      · rw [hm] at hnonneg hp
        exact .inr ⟨hnonneg, hp⟩
      · rw [hm] at hlast
        exact absurd rfl hlast

theorem DayMoved.idle {d₀ : Db} {actions : List (Option ActionKey)}
    (hm : DayMoved u day d₀ d actions) (h : quotaPart day d' = quotaPart day d) :
    DayMoved u day d₀ d' (actions ++ [none]) where
  bucket key := by
    rw [bucket_congr h, hm.bucket, List.count_append]
    simp
  progress := by
    have hp : progressOf d' u = progressOf d u := by
      obtain ⟨c, e, rfl⟩ := eq_of_outsideGuild (congrArg Prod.fst h)
      rfl
    rw [hp]
    exact hm.progress

section
variable {ι : Type} [DecidableEq ι]

/-- The number of committed calls that counted the action. -/
def committedActions (s : Sys ι Db RowLock AppError (Option ActionKey)) (key : ActionKey) : Int :=
  ((results s.status s.log).count (some key) : Nat)

theorem guarded_human (env : Env) (p : Policy) {call : QuotaCall} (hcall : call.On u day)
    (h : call.isHuman) :
    Guarded (quotaGuard env p u day) (Handover p u) (call.transaction env) (loadStats env u)
      (call.body env) := by
  cases call with
  | human op =>
    obtain ⟨hu, htoday, hnow⟩ := hcall
    refine ⟨body_human env hnow, ?_, does_loadStats env p u day⟩
    rw [← hu]
    exact op.transaction_eq env
  | pruneCounters policy now => cases h
  | pruneEvents policy now => cases h

theorem harmless_prune (env : Env) (p : Policy) {call : QuotaCall} (hcall : call.On u day)
    (h : ¬ call.isHuman) :
    Harmless (quotaGuard env p u day) (fun a => a = none) (call.transaction env) := by
  cases call with
  | human op => exact absurd trivial h
  | pruneCounters policy now =>
    obtain rfl : dateNaive now = day := hcall
    exact harmless_pruneCounters policy now
  | pruneEvents policy now => exact harmless_pruneEvents policy now

theorem quota_invariant (env : Env) {calls : ι → QuotaCall} (hcalls : ∀ i, (calls i).On u day)
    {db : Db} {es : List (ι × Action)} {s : Sys ι Db RowLock AppError (Option ActionKey)}
    (hrun : run (start (fun i => (calls i).transaction env) db) es = some s) :
    GuardInv (quotaGuard env (policyOf env db) u day) (Handover (policyOf env db) u)
        (fun a => a = none) (fun i => (calls i).body env) (fun i => (calls i).isHuman) s ∧
      LogCommitted s.status s.log ∧ DayMoved u day db s.db (results s.status s.log) := by
  have hg : ∀ i, (calls i).isHuman → Guarded (quotaGuard env (policyOf env db) u day)
      (Handover (policyOf env db) u) ((calls i).transaction env) (loadStats env u)
      ((calls i).body env) := fun i hi => guarded_human env _ (hcalls i) hi
  refine guarded_run (I := DayMoved u day db) hg
    (fun i hi => harmless_prune env _ (hcalls i) hi) ?_ ?_ rfl ⟨fun key => by simp, .inl rfl⟩ hrun
  · intro i b w d d' r as hi hb hw _ hbody hm
    rcases hc : calls i with op | ⟨policy, now⟩ | ⟨policy, now⟩
    · rw [hc] at hbody
      obtain ⟨d₁, r₁, heffect⟩ := run_body_ok (hc ▸ hcalls i) hb hw hbody
      exact hm.body heffect
    · rw [hc] at hi
      cases hi
    · rw [hc] at hi
      cases hi
  · rintro d d' r as rfl hpart hm
    exact hm.idle hpart

/-- In every interleaving of a user's day every counted action is in the bucket, the active
days grow by at most one, and a call that counts an action has checked a bucket with all that
were counted before it, below the limit that it enforced. -/
theorem daily_quotas (env : Env) (u : Uuid) (day : Int) (calls : ι → QuotaCall)
    (hcalls : ∀ i, (calls i).On u day) (db : Db) (hdb : ∀ r ∈ statsOf db u, r.Valid)
    (es : List (ι × Action)) (s : Sys ι Db RowLock AppError (Option ActionKey))
    (hrun : run (start (fun i => (calls i).transaction env) db) es = some s) :
    (∀ key, bucket s.db u key day = bucket db u key day + committedActions s key) ∧
      (progressOf s.db u).1 ≤ (progressOf db u).1 + 1 ∧
      ∀ i s' key, step s (i, .commit) = some s' → s'.status i = .committed (some key) →
        ∃ d r, statsOf d u = some r ∧ statsOf s'.db u = some r ∧
          ((calls i).checked env (policyOf env db) r).run d = (.ok (some key), s'.db) ∧
          bucket d u key day = bucket db u key day + committedActions s key ∧
          bucket s'.db u key day = bucket d u key day + 1 ∧
          (limitEnforced (policyOf env db) key = true →
            ∀ l, dailyLimit (policyOf env db) r key = some l → bucket d u key day < l) := by
  obtain ⟨hinv, hl, hm⟩ := quota_invariant env hcalls hrun
  refine ⟨hm.bucket, ?_, fun i s' key hs hkey => ?_⟩
  · have hnonneg : 0 ≤ (progressOf db u).1 := by
      rcases h : statsOf db u with _ | r
      · rw [progressOf_of_none h]
      · rw [progressOf_of_some h]
        exact (hdb r h).1
    rcases hm.progress with hp | ⟨-, hp⟩ <;> rw [hp]
    · omega
    · exact i32_le_of_nonneg (by omega)
  · obtain ⟨c, res, hst, hstatus, -, hcase⟩ := hinv.commit_cases
      (fun i hi => (guarded_human env _ (hcalls i) hi).toBody) hs
    rw [hstatus, Function.update_self] at hkey
    cases hkey
    rcases hcase with ⟨hi, b, w, hb, hw, hbody⟩ | ⟨-, hidle, -⟩
    swap
    · cases hidle
    rcases hc : calls i with op | ⟨policy, now⟩ | ⟨policy, now⟩
    · rw [hc] at hbody
      obtain ⟨d, r, h⟩ := run_body_ok (hc ▸ hcalls i) hb hw hbody
      refine ⟨d, r, h.row, h.row', h.run, (h.bucket key).trans (hm.bucket key), ?_, ?_⟩
      · rw [h.counted.bucket key, if_pos rfl]
      · intro henf l hlim
        have hbelow := h.counted.below key rfl
        simp only [limitReached, henf, hlim, Bool.true_and, Option.any_some,
          decide_eq_false_iff_not] at hbelow
        omega
    · rw [hc] at hi
      cases hi
    · rw [hc] at hi
      cases hi

end

/-! ## Two messages at once -/

def twoMessages (i : Bool) : QuotaCall :=
  .human (.sendMessageWithGuild ⟨if i then 11 else 12, 1, 2, "hello", Duration.seconds 5⟩
    (Duration.seconds 5) (if i then 21 else 22))

def overtaken : List (Bool × Action) :=
  List.replicate 3 (false, .stmt) ++ List.replicate 10 (true, .stmt) ++ [(true, .commit)] ++
    List.replicate 6 (false, .stmt) ++ [(false, .commit)]

def visitedBeforeMessages : Db := (GuildOp.getGuildSnapshot 1 0).apply asciiEnv accountAndAdmin

def afterMessages : Option (Sys Bool Db RowLock AppError (Option ActionKey)) :=
  run (start (fun i => (twoMessages i).transaction asciiEnv) visitedBeforeMessages) overtaken

theorem daily_quotas_two_messages :
    bucket (afterMessages.get (by decide)).db 1 .outboundMessage 0 = 0 + 2 :=
  (daily_quotas asciiEnv 1 0 twoMessages
    (fun i => by cases i <;> exact ⟨rfl, by decide, by decide⟩) visitedBeforeMessages (by decide)
    overtaken _ (Option.some_get _).symm).1 .outboundMessage

end SyncServer.Guild
