import SyncServer.Guild.Ledger

/-! # The score as the replay of the ledger

Every call of `record_contribution_event` that is not a duplicate records one event and moves
the score by its delta, but not below zero. No other operation moves the score. So the score of
a user is what the recorded deltas amount to, one after another.
-/

namespace SyncServer.Guild
open Transaction

/-- The deltas of the recorded events of a user, in the order of their insertion. -/
def deltasOf (s : Db) (u : Uuid) : List Int :=
  (s.guildScoreEvents.rows.filter (fun e => e.userId = u)).map GuildScoreEvent.delta

/-- The score that deltas amount to. -/
def replay (deltas : List Int) : Int := deltas.foldl (fun score d => max 0 (score + d)) 0

@[simp] theorem replay_nil : replay [] = 0 := rfl

@[simp] theorem replay_snoc (deltas : List Int) (d : Int) :
    replay (deltas ++ [d]) = max 0 (replay deltas + d) := by
  simp [replay]

/-- What a call of `record_contribution_event` answers. -/
def GuildOp.outcome (env : Env) : GuildOp → Db → Option ContributionEventOutcome
  | recordContributionEvent q now startedAt id, s =>
    ((Guild.recordContributionEvent env q now startedAt id).atomically s).1.toOption
  | _, _ => none

/-- The operations other than the deletion of old history. -/
def GuildOp.keepsHistory : GuildOp → Bool
  | pruneGuildHistory _ => false
  | _ => true

/-- The new total of a contribution event is an `i32`. -/
def TotalFits (env : Env) (op : GuildOp) (s : Db) : Prop :=
  match op with
  | .recordContributionEvent q _ _ _ => ∀ o ∈ op.outcome env s,
      i32Min ≤ scoreOf s q.userId + o.appliedDelta ∧ scoreOf s q.userId + o.appliedDelta ≤ i32Max
  | _ => True

/-- What the answer to a call for `u` says is what the call, which led from `s` to `s'`, did. -/
structure Reported (u : Uuid) (o : ContributionEventOutcome) (s s' : Db) : Prop where
  score : (statsOf s' u).map UserGuildStats.contributionScore = some o.contributionScore
  duplicate : o.duplicate = true → o.appliedDelta = 0 ∧ s'.guildScoreEvents = s.guildScoreEvents
  recorded : o.duplicate = false → ∃ e, o.event = some e ∧ e.userId = u ∧
    e.delta = o.appliedDelta ∧ s'.guildScoreEvents.rows = s.guildScoreEvents.rows ++ [e]

variable {env : Env} {s s' : Db} {u : Uuid}

theorem ContributionEffect.reported {q : ContributionRequest} {o : ContributionEventOutcome}
    (h : ContributionEffect env q s s' o) : Reported q.userId o s s' := by
  obtain ⟨r, hr, hscore, -⟩ := h.shown
  refine ⟨by rw [hr, Option.map_some, hscore], fun hdup => ?_, fun hdup => ?_⟩
  · rcases h.effect with ⟨-, hzero, -, -, hev⟩ | ⟨hno, -⟩
    · exact ⟨hzero, hev⟩
    · rw [hdup] at hno
      cases hno
  · rcases h.effect with ⟨hyes, -⟩ | ⟨-, -, -, -, e, he, hu, -, -, hd, hrows⟩
    · rw [hdup] at hyes
      cases hyes
    · exact ⟨e, he, hu, hd, hrows⟩

/-! ## What leaves the ledger alone -/

theorem HumanOp.keeps_events (env : Env) (op : HumanOp) :
    (op.transaction env).Keeps Db.guildScoreEvents := by
  have hhuman : ∀ {α : Type} (u : Uuid) (today now : Int) (audit : Uuid)
      {rest : Policy → UserGuildStats → Query α}, (∀ p r, (rest p r).Keeps Db.guildScoreEvents) →
      (humanOperation env u today now audit rest).Keeps Db.guildScoreEvents :=
    keeps_humanOperation (fun _ _ => rfl) (fun _ _ => rfl) env
  cases op with
  | recordHumanActivity u t now audit =>
    exact Tx.keeps_bind (hhuman _ _ _ _ (fun _ _ => Tx.keeps_pure _ _)) (fun _ => Tx.keeps_pure _ _)
  | sendMessageWithGuild m now audit =>
    refine Tx.keeps_bind (hhuman _ _ _ _ (fun p r => ?_)) (fun _ => Tx.keeps_pure _ _)
    exact keeps_sendMessageChecked (fun _ _ => rfl) (fun _ _ => rfl) env p r m now
  | runAttachmentActionWithGuild u mimeType operation now audit =>
    refine Tx.keeps_bind (hhuman _ _ _ _ (fun p r => ?_)) (fun _ => Tx.keeps_pure _ _)
    exact keeps_attachmentActionChecked (fun _ _ => rfl) operation.keepsEvents env p r u mimeType now
  | resolveContactWithGuild u now audit =>
    refine Tx.keeps_bind (hhuman _ _ _ _ (fun p r => ?_)) (fun _ => Tx.keeps_pure _ _)
    exact keeps_resolveContactChecked (fun _ _ => rfl) env p r u now

/-- Only contribution events are recorded, and only a deletion of old history removes one. -/
theorem GuildOp.events_eq {op : GuildOp} (hkeeps : op.keepsHistory = true)
    (hnone : op.outcome env s = none) :
    (op.apply env s).guildScoreEvents = s.guildScoreEvents := by
  cases op with
  | human op => exact (op.keeps_events env).atomically s
  | getGuildSnapshot u t =>
    rw [apply]
    rcases run_getGuildSnapshot_cases env u (dateNaive t) s with
      ⟨e, s', hrun, hframe, -⟩ | ⟨s', c₁, c₂, c₃, hrun, -, hframe⟩ <;>
    · rw [hrun]
      exact hframe.events
  | recordContributionEvent q now startedAt id =>
    rw [outcome] at hnone
    rw [apply]
    rcases hrun : (Guild.recordContributionEvent env q now startedAt id).atomically s with
      ⟨e | o, s'⟩
    · have herror := Tx.atomically_error (congrArg Prod.fst hrun)
      rw [hrun] at herror
      rw [herror]
    · rw [hrun] at hnone
      cases hnone
  | freezeGuildProgression admin target reason audit =>
    have hlog : ∀ log : Query Unit, log.Keeps Db.guildScoreEvents →
        ((do executeUpdateStats target frozenStats; log : Query Unit)).Keeps
          Db.guildScoreEvents := by
      intro log hlog
      exact Tx.keeps_bind (keeps_executeUpdateStats (fun _ _ => rfl) _ _ _) (fun _ => hlog)
    cases admin with
    | none => exact (hlog _ (keeps_insertAuditLog (fun _ _ => rfl) _)).run s
    | some a => exact (hlog _ (keeps_insertAuditLog (fun _ _ => rfl) _)).run s
  | unfreezeGuildProgression admin target reason audit =>
    exact (Tx.keeps_bind (keeps_executeUpdateStats (fun _ _ => rfl) _ _ _)
      (fun _ => keeps_insertAuditLog (fun _ _ => rfl) _)).run s
  | saveGuildPolicy policy => exact (keeps_saveGuildPolicy (fun _ _ => rfl) env policy).run s
  | pruneGuildHistory now => cases hkeeps

theorem OpStep.score {p : Policy} {op : GuildOp} {o o' : Option UserGuildStats}
    (h : OpStep env s p u op o o')
    (hop : ∀ q now startedAt id, op ≠ .recordContributionEvent q now startedAt id) :
    (o'.map UserGuildStats.contributionScore).getD 0 =
      (o.map UserGuildStats.contributionScore).getD 0 := by
  cases h with
  | same => rfl
  | ensured => cases o <;> rfl
  | shown => cases o <;> rfl
  | active op =>
    rw [Option.map_some, Option.getD_some, activity_score, currentStats_score]
  | looked q now startedAt id => exact absurd rfl (hop q now startedAt id)
  | scored q now startedAt id => exact absurd rfl (hop q now startedAt id)
  | frozen => rfl
  | cleared => rfl

/-! ## The score -/

/-- The score of `u` is what the deltas amount to. -/
def Replayed (u : Uuid) (s : Db) : Prop := scoreOf s u = replay (deltasOf s u)

theorem deltasOf_congr (h : s'.guildScoreEvents = s.guildScoreEvents) (u : Uuid) :
    deltasOf s' u = deltasOf s u := by
  rw [deltasOf, deltasOf, h]

theorem deltasOf_snoc {e : GuildScoreEvent}
    (h : s'.guildScoreEvents.rows = s.guildScoreEvents.rows ++ [e]) (u : Uuid) :
    deltasOf s' u = if e.userId = u then deltasOf s u ++ [e.delta] else deltasOf s u := by
  rw [deltasOf, h, List.filter_append, List.map_append, ← deltasOf]
  by_cases he : e.userId = u <;> simp [he]

theorem GuildOp.outcome_eq_some {op : GuildOp} {o : ContributionEventOutcome}
    (h : op.outcome env s = some o) :
    ∃ q now startedAt id, op = .recordContributionEvent q now startedAt id ∧
      (Guild.recordContributionEvent env q now startedAt id).run s = (.ok o, op.apply env s) := by
  cases op with
  | recordContributionEvent q now startedAt id =>
    refine ⟨q, now, startedAt, id, rfl, ?_⟩
    rw [outcome] at h
    rw [apply]
    rcases hrun : (Guild.recordContributionEvent env q now startedAt id).atomically s with
      ⟨e | o', s'⟩
    · rw [hrun] at h
      cases h
    · rw [hrun] at h
      cases h
      exact Tx.atomically_eq_ok.mp hrun
  | _ => cases h

theorem GuildOp.score_of_outcome_none {op : GuildOp} (h : op.outcome env s = none) (u : Uuid) :
    scoreOf (op.apply env s) u = scoreOf s u := by
  by_cases hop : ∀ q now startedAt id, op ≠ .recordContributionEvent q now startedAt id
  · exact (op.opStep env s u).score hop
  push Not at hop
  obtain ⟨q, now, startedAt, id, rfl⟩ := hop
  rw [outcome] at h
  rw [apply]
  rcases hrun : (Guild.recordContributionEvent env q now startedAt id).atomically s with
    ⟨e | o, s'⟩
  · have herror := Tx.atomically_error (congrArg Prod.fst hrun)
    rw [hrun] at herror
    rw [herror]
  · rw [hrun] at h
    cases h

theorem ContributionEffect.score_other {q : ContributionRequest} {o : ContributionEventOutcome}
    (h : ContributionEffect env q s s' o) (hu : u ≠ q.userId) : scoreOf s' u = scoreOf s u := by
  rcases h.other u hu with hrow | hrow
  · rw [scoreOf, hrow, scoreOf]
  · rw [scoreOf, hrow, Option.map_some, Option.getD_some, currentStats_score, scoreOf]

theorem Replayed.apply {op : GuildOp} (h : Replayed u s) (hkeeps : op.keepsHistory = true)
    (hfits : TotalFits env op s) : Replayed u (op.apply env s) := by
  unfold Replayed at *
  rcases hout : op.outcome env s with _ | o
  · rw [deltasOf_congr (GuildOp.events_eq hkeeps hout), GuildOp.score_of_outcome_none hout, h]
  obtain ⟨q, now, startedAt, id, rfl, hrun⟩ := GuildOp.outcome_eq_some hout
  have hbounds := hfits o hout
  have heff := run_recordContributionEvent_ok hrun
  by_cases hu : u = q.userId
  · subst hu
    rw [heff.score, applyOutcome, h]
    rcases heff.effect with ⟨hdup, -, -, -, hev⟩ | ⟨hdup, -, -, -, e, -, hu, -, -, hd, hrows⟩
    · rw [if_pos hdup, deltasOf_congr hev]
    · rw [if_neg (by simp [hdup]), deltasOf_snoc hrows, if_pos hu, replay_snoc, hd, ← h,
        i32_of_range hbounds.1 hbounds.2, max_comm]
  · rw [heff.score_other hu, h]
    rcases heff.effect with ⟨-, -, -, -, hev⟩ | ⟨-, -, -, -, e, -, he, -, -, -, hrows⟩
    · rw [deltasOf_congr hev]
    · rw [deltasOf_snoc hrows, if_neg (fun hc => hu (hc.symm.trans he))]

theorem Replayed.run {ops : List GuildOp} (h : Replayed u s)
    (hops : ∀ op ∈ ops, op.keepsHistory = true) (hfits : Stepwise env (TotalFits env) ops s) :
    Replayed u (runOps env ops s) := by
  induction ops generalizing s with
  | nil => exact h
  | cons op ops ih =>
    have hnext := h.apply (hops op List.mem_cons_self) hfits.1
    exact ih hnext (fun o ho => hops o (List.mem_cons_of_mem _ ho)) hfits.2

/-- In every run from a database without rows and events, the score of each user is the replay
of the recorded deltas; and whatever is done next, a call that succeeds reports what it did and
anything else records nothing. -/
theorem score_replays_ledger (env : Env) (s₀ : Db) (hrows : ∀ u, statsOf s₀ u = none)
    (hevents : s₀.guildScoreEvents.rows = []) (ops : List GuildOp)
    (hops : ∀ op ∈ ops, op.keepsHistory = true)
    (hfits : Stepwise env (TotalFits env) ops s₀) :
    (∀ u, ∀ r ∈ statsOf (runOps env ops s₀) u,
      r.contributionScore = replay (deltasOf (runOps env ops s₀) u)) ∧
    (∀ q now startedAt id o,
      (GuildOp.recordContributionEvent q now startedAt id).outcome env (runOps env ops s₀) =
        some o →
      Reported q.userId o (runOps env ops s₀)
        ((GuildOp.recordContributionEvent q now startedAt id).apply env (runOps env ops s₀))) ∧
    (∀ op : GuildOp, op.keepsHistory = true → op.outcome env (runOps env ops s₀) = none →
      (op.apply env (runOps env ops s₀)).guildScoreEvents =
        (runOps env ops s₀).guildScoreEvents) := by
  refine ⟨fun u r hr => ?_, fun q now startedAt id o hout => ?_,
    fun op hkeeps hnone => GuildOp.events_eq hkeeps hnone⟩
  · have hstart : Replayed u s₀ := by
      rw [Replayed, scoreOf, hrows u, deltasOf, hevents]
      rfl
    have hend := hstart.run hops hfits
    rwa [Replayed, scoreOf, hr] at hend
  · obtain ⟨q, now, startedAt, id, ⟨⟩, hrun⟩ := GuildOp.outcome_eq_some hout
    exact (run_recordContributionEvent_ok hrun).reported

/-- The award of the points for a verified report. -/
def awardReport (reference : String) (eventId : Uuid) : GuildOp :=
  let call := reportCall reference eventId
  .recordContributionEvent call.request call.now call.startedAt call.eventId

theorem score_replays_ledger_two_awards :
    ((statsOf (runOps asciiEnv [awardReport "a" 7, awardReport "b" 8] oneAccount) 1).get
      (by decide)).contributionScore =
    replay (deltasOf (runOps asciiEnv [awardReport "a" 7, awardReport "b" 8] oneAccount) 1) :=
  (score_replays_ledger asciiEnv oneAccount (fun _ => rfl) rfl
    [awardReport "a" 7, awardReport "b" 8] (by decide)
    ⟨by unfold TotalFits awardReport; decide, by unfold TotalFits awardReport; decide,
      trivial⟩).1 1 _ (Option.get_mem _)

end SyncServer.Guild
