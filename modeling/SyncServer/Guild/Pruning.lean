import Mathlib.Algebra.BigOperators.Group.List.Basic
import SyncServer.Guild.DayPart
import SyncServer.Guild.Votes
import SyncServer.Transaction.Lockstep

/-! # Deletions of old history

A run of contribution events with deletions in between is compared with the same run without them.
The two go alike as long as no call needs an event that has been deleted.
-/

namespace SyncServer.Guild
open Transaction

/-- The full ledger of `t` has the events of `s` and those that `s` has forgotten; but for the
daily counters the databases are the same. -/
structure Forgets (forgotten : List GuildScoreEvent) (s t : Db) : Prop where
  outside : outsideGuild s = outsideGuild t
  events : t.guildScoreEvents.rows.Perm (s.guildScoreEvents.rows ++ forgotten)

def isDuplicate (q : ContributionRequest) (reference : String) (e : GuildScoreEvent) : Bool :=
  decide (e.userId = q.userId ∧ e.eventType = trim q.eventType ∧ e.referenceId = some reference)

/-- The call gets the answers that it would get with the forgotten events: a duplicate or a reverse
vote is not among them, or another one is still there; none of them counts for today; and none has
the id of the new event. -/
structure Remembers (forgotten : List GuildScoreEvent) (q : ContributionRequest) (now : Int)
    (eventId : Uuid) (s : Db) : Prop where
  duplicate : ∀ reference, q.normalizedReferenceId = some reference →
    forgotten.any (isDuplicate q reference) = true →
    s.guildScoreEvents.rows.any (isDuplicate q reference) = true
  reverse : 0 < q.requestedDelta → q.options.requiresMeaningfulGranter = true →
    ∀ granter start, q.granterUserId = some granter → granter ≠ q.userId →
      reverseWindow now = some start →
      forgotten.any (isReverse q.userId granter (trim q.eventType) start) = true →
      s.guildScoreEvents.rows.any (isReverse q.userId granter (trim q.eventType) start) = true
  today : 0 < q.requestedDelta →
    q.options.requiresMeaningfulGranter = true ∨ q.options.dailyPositiveCap.isSome = true →
    pointsToday q.userId (trim q.eventType) now forgotten = []
  fresh : ∀ f ∈ forgotten, f.id ≠ eventId

variable {env : Env} {policy : Policy} {forgotten : List GuildScoreEvent} {s t : Db}
  {q : ContributionRequest} {now startedAt : Int} {eventId : Uuid}

/-! ## What does not look at events -/

theorem alike_of_blind {α : Type} {p : Query α} (hblind : p.Local outsideGuild)
    (hkeeps : p.Keeps Db.guildScoreEvents) (h : Forgets forgotten s t) :
    Alike (Forgets forgotten) (p.run s) (p.run t) := by
  refine Tx.alike_mono (hkeeps.alike (hblind.alike h.outside)) ?_
  rintro s' t' ⟨hout, hs, ht⟩
  exact ⟨hout, by rw [hs, ht]; exact h.events⟩

theorem blind_syncDerivedState (r : UserGuildStats) :
    (syncDerivedState policy r).Local outsideGuild := by
  dsimp only [syncDerivedState]
  split
  · trivial
  · exact blind_updateStats _ _ _

theorem blind_ensureUserGuildStats (u : Uuid) :
    (ensureUserGuildStats policy u).Local outsideGuild := by
  refine Tx.local_bind (blind_insertStats _) (fun _ => ?_)
  exact Tx.local_bind (blind_query (fun _ _ _ => rfl)) (fun found => Tx.local_okOr _ _ found)

theorem blind_loadStats (u : Uuid) : (loadStats env u).Local outsideGuild := by
  refine Tx.local_bind (blind_query (fun _ _ _ => rfl)) (fun p => ?_)
  refine Tx.local_bind (blind_ensureUserGuildStats u) (fun r => ?_)
  exact Tx.local_bind (blind_syncDerivedState r) (fun _ => trivial)

theorem blind_granterIsMeaningful (granter : Option Uuid) :
    (granterIsMeaningful policy granter).Local outsideGuild := by
  cases granter with
  | none => trivial
  | some g =>
    refine Tx.local_bind (blind_query (fun _ _ _ => rfl)) (fun role => ?_)
    cases role with
    | none => trivial
    | some role =>
      dsimp only
      split
      · trivial
      · refine Tx.local_bind (blind_ensureUserGuildStats g) (fun r => ?_)
        exact Tx.local_bind (blind_syncDerivedState r) (fun _ => trivial)

theorem keeps_granterIsMeaningful {τ : Type} {π : Db → τ}
    (hstats : ∀ s t, π { s with userGuildStats := t } = π s) (p : Policy) (granter : Option Uuid) :
    (granterIsMeaningful p granter).Keeps π := by
  cases granter with
  | none => trivial
  | some g =>
    refine Tx.keeps_bind (Tx.keeps_query _ _) (fun role => ?_)
    cases role with
    | none => trivial
    | some role =>
      dsimp only
      split
      · trivial
      · refine Tx.keeps_bind (keeps_ensureUserGuildStats hstats p g) (fun r => ?_)
        exact Tx.keeps_bind (keeps_syncDerivedState hstats p r) (fun _ => trivial)

theorem blind_executeUpdateStats (u : Uuid) (f : UserGuildStats → UserGuildStats)
    (hf : ∀ r, (f r).userId = r.userId) : (executeUpdateStats u f hf).Local outsideGuild := by
  refine blind_exec (fun d c e => ?_)
  dsimp only
  split
  · rfl
  · split <;> rfl

/-! ## What looks at events -/

theorem Forgets.any_eq (h : Forgets forgotten s t) {p : GuildScoreEvent → Bool}
    (hp : forgotten.any p = true → s.guildScoreEvents.rows.any p = true) :
    s.guildScoreEvents.rows.any p = t.guildScoreEvents.rows.any p := by
  rw [Bool.eq_iff_iff, List.any_eq_true, List.any_eq_true]
  constructor
  · rintro ⟨e, he, hpe⟩
    exact ⟨e, h.events.mem_iff.mpr (List.mem_append_left _ he), hpe⟩
  · rintro ⟨e, he, hpe⟩
    rcases List.mem_append.mp (h.events.mem_iff.mp he) with he | he
    · exact ⟨e, he, hpe⟩
    · exact List.any_eq_true.mp (hp (List.any_eq_true.mpr ⟨e, he, hpe⟩))

theorem Forgets.pointsToday (h : Forgets forgotten s t) {user : Uuid} {eventType : String}
    (hnone : pointsToday user eventType now forgotten = []) :
    (Guild.pointsToday user eventType now t.guildScoreEvents.rows).Perm
      (Guild.pointsToday user eventType now s.guildScoreEvents.rows) := by
  have hperm := h.events.filter (fun e => decide (e.userId = user ∧ e.eventType = eventType ∧
    midnight (dateNaive now) ≤ e.createdAt ∧ 0 < e.delta))
  rw [List.filter_append] at hperm
  rwa [Guild.pointsToday, ← List.append_nil (Guild.pointsToday user eventType now _), ← hnone]

theorem Remembers.congr (h : Remembers forgotten q now eventId s)
    (hevents : t.guildScoreEvents = s.guildScoreEvents) : Remembers forgotten q now eventId t where
  duplicate := by
    rw [hevents]
    exact h.duplicate
  reverse := by
    rw [hevents]
    exact h.reverse
  today := h.today
  fresh := h.fresh

theorem alike_findDuplicate (h : Forgets forgotten s t) (hq : Remembers forgotten q now eventId s) :
    Alike (Forgets forgotten) ((findDuplicate q (trim q.eventType)).run s)
      ((findDuplicate q (trim q.eventType)).run t) := by
  unfold findDuplicate
  split
  · rename_i reference href
    exact Tx.alike_query (h.any_eq (hq.duplicate reference href)) h
  · exact Tx.alike_pure false h

theorem alike_isReciprocalVote (h : Forgets forgotten s t)
    (hq : Remembers forgotten q now eventId s) (hpos : 0 < q.requestedDelta)
    (hneeds : q.options.requiresMeaningfulGranter = true) (hself : q.granterUserId ≠ some q.userId) :
    Alike (Forgets forgotten) ((isReciprocalVote q.userId q.granterUserId (trim q.eventType) now).run s)
      ((isReciprocalVote q.userId q.granterUserId (trim q.eventType) now).run t) := by
  rcases hg : q.granterUserId with _ | g
  · exact Tx.alike_pure false h
  rw [run_isReciprocalVote_some, run_isReciprocalVote_some]
  rcases hstart : reverseWindow now with _ | start
  · exact .error _ _ _
  · have hne : g ≠ q.userId := fun he => hself (hg.trans (congrArg some he))
    dsimp only
    rw [h.any_eq (hq.reverse hpos hneeds g start hg hne hstart)]
    exact .ok _ h

theorem alike_isClusteredVote (h : Forgets forgotten s t) {user : Uuid} {eventType : String}
    (hnone : pointsToday user eventType now forgotten = []) :
    Alike (Forgets forgotten) ((isClusteredVote user eventType now).run s)
      ((isClusteredVote user eventType now).run t) := by
  rw [run_isClusteredVote, run_isClusteredVote]
  have hperm := (h.pointsToday hnone).filterMap GuildScoreEvent.granterUserId
  rw [grantersOf, grantersOf, hperm.dedup.length_eq]
  exact .ok _ h

theorem alike_positivePointsEarnedToday (h : Forgets forgotten s t) {user : Uuid}
    {eventType : String} (hnone : pointsToday user eventType now forgotten = []) :
    Alike (Forgets forgotten) ((positivePointsEarnedToday user eventType now).run s)
      ((positivePointsEarnedToday user eventType now).run t) := by
  rw [run_positivePointsEarnedToday, run_positivePointsEarnedToday,
    ((h.pointsToday hnone).map GuildScoreEvent.delta).sum_eq]
  exact .ok _ h

theorem alike_voteDelta (h : Forgets forgotten s t) (hq : Remembers forgotten q now eventId s) :
    Alike (Forgets forgotten) ((voteDelta policy q (trim q.eventType) now).run s)
      ((voteDelta policy q (trim q.eventType) now).run t) := by
  unfold voteDelta
  split
  swap
  · exact Tx.alike_pure _ h
  rename_i hvote
  obtain ⟨hpos, hneeds⟩ := hvote
  split
  · exact Tx.alike_pure _ h
  rename_i hself
  refine Tx.alike_bind (alike_isReciprocalVote h hq hpos hneeds hself) (fun b s' t' hs ht h => ?_)
  split
  · exact Tx.alike_pure _ h
  refine Tx.alike_bind (alike_isClusteredVote h (hq.today hpos (.inl hneeds)))
    (fun b s' t' hs ht h => ?_)
  split
  · exact Tx.alike_pure _ h
  refine Tx.alike_bind (alike_of_blind (blind_granterIsMeaningful _) ?_ h)
    (fun b s' t' hs ht h => ?_)
  · exact keeps_granterIsMeaningful (fun _ _ => rfl) policy q.granterUserId
  split
  · exact Tx.alike_pure _ h
  · exact Tx.alike_pure _ h

theorem alike_cappedDelta (h : Forgets forgotten s t) {s₀ : Db}
    (hq : Remembers forgotten q now eventId s₀) (vote : Int × Option String) :
    Alike (Forgets forgotten) ((cappedDelta q (trim q.eventType) now vote).run s)
      ((cappedDelta q (trim q.eventType) now vote).run t) := by
  unfold cappedDelta
  split
  · exact Tx.alike_pure _ h
  rename_i cap hcap
  split
  · rename_i hpos
    refine Tx.alike_bind (alike_positivePointsEarnedToday h (hq.today hpos (.inr ?_)))
      (fun points s' t' hs ht h => ?_)
    · rw [hcap]
      rfl
    dsimp only
    split
    · exact Tx.alike_pure _ h
    split
    · exact Tx.alike_pure _ h
    · exact Tx.alike_pure _ h
  · exact Tx.alike_pure _ h

theorem Forgets.insert_eq_none (h : Forgets forgotten s t) {e : GuildScoreEvent}
    (hfresh : ∀ f ∈ forgotten, f.id ≠ e.id) :
    t.guildScoreEvents.insert e = none ↔ s.guildScoreEvents.insert e = none := by
  simp only [Table.insert_eq_none, Table.isSome_get]
  rw [(h.events.map GuildScoreEvent.id).mem_iff, List.map_append, List.mem_append]
  refine or_iff_left (fun hmem => ?_)
  obtain ⟨f, hf, hid⟩ := List.mem_map.mp hmem
  exact hfresh f hf hid

theorem alike_insertScoreEvent (h : Forgets forgotten s t) {e : GuildScoreEvent}
    (hfresh : ∀ f ∈ forgotten, f.id ≠ e.id) :
    Alike (Forgets forgotten) ((insertScoreEvent e).run s) ((insertScoreEvent e).run t) := by
  have hfree := h.insert_eq_none hfresh
  obtain ⟨c, events, rfl⟩ := eq_of_outsideGuild h.outside
  rcases hs : s.guildScoreEvents.insert e with _ | u
  · have ht := hfree.mpr hs
    rw [insertScoreEvent, Query.run_exec_error (by simp only [hs]; rfl),
      Query.run_exec_error (by simp only [ht]; rfl)]
    exact .error _ _ _
  · obtain ⟨u', ht⟩ := Option.ne_none_iff_exists'.mp (fun hnone => by
      rw [hfree.mp hnone] at hs
      cases hs)
    by_cases huser : s.userExists e.userId ∧
        e.granterUserId.all (fun id => decide (s.userExists id)) = true
    · rw [insertScoreEvent, Query.run_exec_ok.mpr (by simp only [hs]; exact if_pos huser),
        Query.run_exec_ok.mpr (by simp only [ht]; exact if_pos huser)]
      refine .ok e ⟨rfl, ?_⟩
      have hperm := h.events
      dsimp only at ht hperm ⊢
      rw [Table.rows_of_insert hs, Table.rows_of_insert ht, List.append_assoc]
      refine (hperm.append_right [e]).trans ?_
      rw [List.append_assoc]
      exact List.perm_append_comm.append_left _
    · rw [insertScoreEvent, Query.run_exec_error (by simp only [hs]; exact if_neg huser),
        Query.run_exec_error (by simp only [ht]; exact if_neg huser)]
      exact .error _ _ _

theorem alike_recordContributionEvent (h : Forgets forgotten s t)
    (hq : Remembers forgotten q now eventId s) :
    Alike (Forgets forgotten) ((recordContributionEvent env q now startedAt eventId).run s)
      ((recordContributionEvent env q now startedAt eventId).run t) := by
  unfold recordContributionEvent
  dsimp only
  split
  · exact Tx.alike_throw _
  have hload : (loadStats env q.userId).Keeps Db.guildScoreEvents :=
    keeps_loadStats (fun _ _ => rfl) env q.userId
  refine Tx.alike_bind (alike_of_blind (blind_loadStats _) hload h) (fun loaded s₁ t₁ hs _ h => ?_)
  replace hq := hq.congr (hload.of_run hs)
  refine Tx.alike_bind (alike_findDuplicate h hq) (fun duplicate s₂ t₂ hs _ h => ?_)
  replace hq := hq.congr (congrArg Db.guildScoreEvents (run_findDuplicate_ok hs).1)
  split
  · exact Tx.alike_pure _ h
  refine Tx.alike_bind (alike_voteDelta h hq) (fun vote s₃ t₃ _ _ h => ?_)
  refine Tx.alike_bind (alike_cappedDelta h hq vote) (fun capped s₄ t₄ _ _ h => ?_)
  refine Tx.alike_bind (alike_insertScoreEvent h hq.fresh) (fun event s₅ t₅ _ _ h => ?_)
  refine Tx.alike_bind (alike_of_blind (blind_executeUpdateStats _ _ _) ?_ h)
    (fun _ s₆ t₆ _ _ h => Tx.alike_pure _ h)
  exact keeps_executeUpdateStats (fun _ _ => rfl) _ _ _

theorem remembers_of_default (hq : q.options = .default)
    (hreference : q.normalizedReferenceId.all (fun reference =>
      !forgotten.any (isDuplicate q reference)) = true)
    (hfresh : ∀ f ∈ forgotten, f.id ≠ eventId) : Remembers forgotten q now eventId s where
  duplicate reference href hforgotten := by
    rw [href, Option.all_some, hforgotten] at hreference
    cases hreference
  reverse _ hneeds := by
    rw [hq] at hneeds
    cases hneeds
  today _ hchecked := by
    rw [hq] at hchecked
    rcases hchecked with hneeds | hcap
    · cases hneeds
    · cases hcap
  fresh := hfresh

/-! ## Runs -/

/-- The operations of the runs that are compared. -/
def GuildOp.OnLedger : GuildOp → Prop
  | recordContributionEvent .. => True
  | pruneGuildHistory _ => True
  | _ => False

def GuildOp.deleted (env : Env) (op : GuildOp) (s : Db) : List GuildScoreEvent :=
  match op with
  | pruneGuildHistory _ => s.guildScoreEvents.rows.filter (fun e =>
      ((op.apply env s).guildScoreEvents.get e.id).isNone)
  | _ => []

/-- No call of the run needs an event that has been deleted. -/
def Remembered (env : Env) : List GuildScoreEvent → List GuildOp → Db → Prop
  | _, [], _ => True
  | forgotten, op :: ops, s =>
    (∀ q now startedAt id, op = .recordContributionEvent q now startedAt id →
      Remembers forgotten q now id s) ∧
    Remembered env (forgotten ++ op.deleted env s) ops (op.apply env s)

/-- The answers to the contribution events of a run. -/
def outcomes (env : Env) : List GuildOp → Db → List (Option ContributionEventOutcome)
  | [], _ => []
  | op :: ops, s =>
    (if op.keepsHistory then [op.outcome env s] else []) ++ outcomes env ops (op.apply env s)

theorem outcomes_cons {op : GuildOp} (h : op.keepsHistory = true) (ops : List GuildOp) :
    outcomes env (op :: ops) s = op.outcome env s :: outcomes env ops (op.apply env s) := by
  rw [outcomes, if_pos h]
  rfl

theorem prune_events (env : Env) (now : Int) (s : Db) :
    let s' := (GuildOp.pruneGuildHistory now).apply env s
    outsideGuild s' = outsideGuild s ∧ (s'.guildScoreEvents = s.guildScoreEvents ∨
      s'.guildScoreEvents = s.guildScoreEvents.filter (fun e => !decide (e.createdAt <
        now - Duration.days (policyOf env s).scoreEventRetentionDays))) := by
  dsimp only [GuildOp.apply]
  unfold pruneGuildHistory loadGuildPolicyConn
  rw [Tx.run_bind_ok (Tx.run_query _ _)]
  rcases hday : dateSubDays (dateNaive now) (policyOf env s).dailyCounterRetentionDays with _ | day
  · exact ⟨rfl, .inl rfl⟩
  rw [Tx.run_bind_ok (Tx.run_okOr _ _ _)]
  rcases htime : timeSub now (Duration.days (policyOf env s).scoreEventRetentionDays) with _ | time
  · exact ⟨rfl, .inl rfl⟩
  · rw [← timeSub_eq_some htime]
    exact ⟨rfl, .inr rfl⟩

/-- A deletion moves events from the ledger to the forgotten ones. -/
theorem Forgets.prune (h : Forgets forgotten s t) (env : Env) (now : Int) :
    Forgets (forgotten ++ (GuildOp.pruneGuildHistory now).deleted env s)
      ((GuildOp.pruneGuildHistory now).apply env s) t := by
  obtain ⟨houtside, hevents⟩ := prune_events env now s
  refine ⟨houtside.trans h.outside, h.events.trans ?_⟩
  have hkept : ∀ e ∈ s.guildScoreEvents.rows, s.guildScoreEvents.get e.id = some e :=
    fun e he => Table.get_eq_some.mpr ⟨he, rfl⟩
  rw [GuildOp.deleted]
  generalize (GuildOp.pruneGuildHistory now).apply env s = s' at hevents ⊢
  rcases hevents with hsame | hfilter
  · have hnone : s.guildScoreEvents.rows.filter (fun e => (s'.guildScoreEvents.get e.id).isNone) =
        [] := by
      apply List.filter_eq_nil_iff.mpr
      intro e he
      simp [hsame, hkept e he]
    rw [hnone, hsame, List.append_nil]
  · generalize hp : (fun e : GuildScoreEvent => !decide (e.createdAt < _)) = p at hfilter
    have hrest : s.guildScoreEvents.rows.filter (fun e => (s'.guildScoreEvents.get e.id).isNone) =
        s.guildScoreEvents.rows.filter (fun e => !p e) := by
      apply List.filter_congr
      intro e he
      rw [hfilter, Table.get_filter, hkept e he]
      cases h : p e <;> simp [h]
    rw [hrest, hfilter]
    refine ((List.filter_append_perm p s.guildScoreEvents.rows).symm.append_right forgotten).trans ?_
    rw [List.append_assoc]
    exact List.perm_append_comm.append_left _

/-- From related databases the two runs go alike. -/
theorem outcomes_eq {ops : List GuildOp} (hops : ∀ op ∈ ops, op.OnLedger)
    (h : Forgets forgotten s t) (hr : Remembered env forgotten ops s) :
    outcomes env ops s = outcomes env (ops.filter GuildOp.keepsHistory) t ∧
      outsideGuild (runOps env ops s) =
        outsideGuild (runOps env (ops.filter GuildOp.keepsHistory) t) := by
  induction ops generalizing forgotten s t with
  | nil => exact ⟨rfl, h.outside⟩
  | cons op ops ih =>
    have htail : ∀ op ∈ ops, op.OnLedger := fun o ho => hops o (List.mem_cons_of_mem _ ho)
    obtain ⟨hcall, hrest⟩ := hr
    cases op with
    | recordContributionEvent q now startedAt id =>
      have halike : Alike (Forgets forgotten)
          ((Guild.recordContributionEvent env q now startedAt id).run s)
          ((Guild.recordContributionEvent env q now startedAt id).run t) :=
        alike_recordContributionEvent h (hcall q now startedAt id rfl)
      obtain ⟨hanswer, hafter⟩ := Tx.alike_atomically halike h
      have hafter : Forgets forgotten
          ((GuildOp.recordContributionEvent q now startedAt id).apply env s)
          ((GuildOp.recordContributionEvent q now startedAt id).apply env t) := hafter
      have hnone : (GuildOp.recordContributionEvent q now startedAt id).deleted env s = [] := rfl
      rw [hnone, List.append_nil] at hrest
      obtain ⟨hout, hend⟩ := ih htail hafter hrest
      rw [List.filter_cons_of_pos rfl, outcomes_cons rfl, outcomes_cons rfl, GuildOp.outcome, hanswer,
        runOps_cons, runOps_cons]
      exact ⟨congrArg _ hout, hend⟩
    | pruneGuildHistory now =>
      obtain ⟨hout, hend⟩ := ih htail (h.prune env now) hrest
      rw [List.filter_cons_of_neg (by simp [GuildOp.keepsHistory])]
      exact ⟨hout, hend⟩
    | _ => cases hops _ List.mem_cons_self

/-- In every run of contribution events and deletions of old history in which no call needs a
deleted event, every call answers what it answers in the run without the deletions, and everybody
ends with the same score. -/
theorem pruning_invisible (env : Env) (ops : List GuildOp) (hops : ∀ op ∈ ops, op.OnLedger)
    (s : Db) (h : Remembered env [] ops s) :
    outcomes env ops s = outcomes env (ops.filter GuildOp.keepsHistory) s ∧
      ∀ u, scoreOf (runOps env ops s) u =
        scoreOf (runOps env (ops.filter GuildOp.keepsHistory) s) u := by
  have hstart : Forgets [] s s := ⟨rfl, by rw [List.append_nil]⟩
  obtain ⟨hout, hend⟩ := outcomes_eq hops hstart h
  refine ⟨hout, fun u => ?_⟩
  obtain ⟨c, e, hdb⟩ := eq_of_outsideGuild hend
  rw [hdb]
  rfl

/-! ## An award that is given again -/

/-- The points for a verified report, and 200 days later the same for another one or the same one,
after a deletion of old history. -/
def twoReportsApart (reference : String) : List GuildOp :=
  [.recordContributionEvent (awardVerifiedAbuseReport 1 (some "a") (.object [])) 0 0 7,
    .pruneGuildHistory (Duration.days 200),
    .recordContributionEvent (awardVerifiedAbuseReport 1 (some reference) (.object []))
      (Duration.days 200) (Duration.days 200) 8]

theorem onLedger_twoReportsApart (reference : String) :
    ∀ op ∈ twoReportsApart reference, op.OnLedger := by
  simp [twoReportsApart, GuildOp.OnLedger]

theorem pruning_invisible_other_reference :
    scoreOf (runOps asciiEnv (twoReportsApart "b") oneAccount) 1 =
      scoreOf (runOps asciiEnv ((twoReportsApart "b").filter GuildOp.keepsHistory) oneAccount) 1 := by
  refine (pruning_invisible asciiEnv (twoReportsApart "b") (onLedger_twoReportsApart "b") oneAccount
    ⟨?_, nofun, ?_, trivial⟩).2 1
  · rintro q now startedAt id ⟨⟩
    exact remembers_of_default rfl (by decide) (by decide)
  · rintro q now startedAt id ⟨⟩
    exact remembers_of_default rfl (by decide) (by decide)

/-- After the deletion the report counts a second time. -/
theorem report_counts_again : (∀ op ∈ twoReportsApart "a", op.OnLedger) ∧
    outcomes asciiEnv (twoReportsApart "a") oneAccount ≠
      outcomes asciiEnv ((twoReportsApart "a").filter GuildOp.keepsHistory) oneAccount ∧
    scoreOf (runOps asciiEnv (twoReportsApart "a") oneAccount) 1 = 50 ∧
    scoreOf (runOps asciiEnv ((twoReportsApart "a").filter GuildOp.keepsHistory) oneAccount) 1 =
      25 := by
  refine ⟨onLedger_twoReportsApart "a", fun hsame => ?_, by decide, by decide⟩
  have hduplicates := congrArg (List.map (Option.map ContributionEventOutcome.duplicate)) hsame
  exact absurd hduplicates (by decide)

end SyncServer.Guild
