import SyncServer.Guild.Replay

/-! # The checks on a vote

A contribution event asks the ledger four questions: is its reference there, has the recipient
lately granted points to the granter, how many have granted points to the recipient today, and how
many points were that? Here are the answers, and what a delta above zero says about them.
-/

namespace SyncServer.Guild
open Transaction

/-- Events that brought the user points of the given type on the day of `now`. -/
def pointsToday (user : Uuid) (eventType : String) (now : Int) (events : List GuildScoreEvent) :
    List GuildScoreEvent :=
  events.filter (fun e => decide (e.userId = user ∧ e.eventType = eventType ∧
    midnight (dateNaive now) ≤ e.createdAt ∧ 0 < e.delta))

def grantersOf (events : List GuildScoreEvent) : List Uuid :=
  (events.filterMap GuildScoreEvent.granterUserId).dedup

/-- The event brought `granter` points from `user`, not before `windowStart`. -/
def isReverse (user granter : Uuid) (eventType : String) (windowStart : Int)
    (e : GuildScoreEvent) : Bool :=
  decide (e.userId = granter ∧ e.granterUserId = some user ∧ e.eventType = eventType ∧
    0 < e.delta ∧ windowStart ≤ e.createdAt)

def reverseWindow (now : Int) : Option Int := timeSub now (Duration.days 30)

def remainingCap (cap points : Int) : Int := max (i32 (cap - clamp points 0 i32Max)) 0

variable {env : Env} {policy : Policy} {s s' : Db} {user : Uuid} {eventType : String} {now : Int}

theorem run_isReciprocalVote_some (granter : Uuid) :
    (isReciprocalVote user (some granter) eventType now).run s =
      (match reverseWindow now with
      | none => .error .panicked
      | some start => .ok (s.guildScoreEvents.rows.any (isReverse user granter eventType start)),
        s) := by
  rw [isReciprocalVote, reverseWindow]
  rcases timeSub now (Duration.days 30) with _ | start <;> rfl

theorem run_isClusteredVote :
    (isClusteredVote user eventType now).run s = (.ok (decide (10 ≤
      (grantersOf (pointsToday user eventType now s.guildScoreEvents.rows)).length)), s) := rfl

theorem run_positivePointsEarnedToday :
    (positivePointsEarnedToday user eventType now).run s = (.ok (clamp
      ((pointsToday user eventType now s.guildScoreEvents.rows).map GuildScoreEvent.delta).sum
      0 i32Max), s) := rfl

/-- What the ledger said of a vote that was not suppressed. -/
structure VotePassed (q : ContributionRequest) (eventType : String) (now : Int)
    (events : List GuildScoreEvent) : Prop where
  granted : ∃ g, q.granterUserId = some g ∧ g ≠ q.userId ∧ ∃ start, reverseWindow now = some start ∧
    events.any (isReverse q.userId g eventType start) = false
  unclustered : (grantersOf (pointsToday q.userId eventType now events)).length < 10

theorem run_voteDelta_passed {q : ContributionRequest} {v : Int × Option String}
    (hq : 0 < q.requestedDelta ∧ q.options.requiresMeaningfulGranter = true)
    (h : (voteDelta policy q eventType now).run s = (.ok v, s')) (hpos : 0 < v.1) :
    VotePassed q eventType now s.guildScoreEvents.rows := by
  rw [voteDelta, if_pos hq] at h
  split at h
  · cases h
    exact absurd hpos (by decide)
  rename_i hself
  rcases hg : q.granterUserId with _ | g
  · -- without a granter the last check fails at the latest
    rw [hg] at h
    rw [Tx.run_bind_ok (show (isReciprocalVote q.userId none eventType now).run s = (.ok false, s)
      from rfl), if_neg (by decide), Tx.run_bind_ok run_isClusteredVote] at h
    split at h
    · cases h
      exact absurd hpos (by decide)
    · cases h
      exact absurd hpos (by decide)
  rw [hg] at h hself
  replace h := Tx.run_bind_eq_ok h
  obtain ⟨reciprocal, s₁, hreciprocal, h⟩ := h
  rw [run_isReciprocalVote_some] at hreciprocal
  rcases hstart : reverseWindow now with _ | start
  · rw [hstart] at hreciprocal
    cases hreciprocal
  rw [hstart] at hreciprocal
  cases hreciprocal
  split at h
  · cases h
    exact absurd hpos (by decide)
  rename_i hreverse
  rw [Tx.run_bind_ok run_isClusteredVote] at h
  split at h
  · cases h
    exact absurd hpos (by decide)
  rename_i hclustered
  refine ⟨⟨g, hg, fun he => hself (congrArg some he), start, hstart, ?_⟩, ?_⟩
  · exact Bool.eq_false_of_not_eq_true hreverse
  · simpa using hclustered

theorem run_cappedDelta_pos {q : ContributionRequest} {v d : Int × Option String} {cap : Int}
    (hq : 0 < q.requestedDelta) (hcap : q.options.dailyPositiveCap = some cap)
    (h : (cappedDelta q eventType now v).run s = (.ok d, s')) (hpos : 0 < d.1) :
    0 < v.1 ∧ d.1 ≤ remainingCap cap
      ((pointsToday q.userId eventType now s.guildScoreEvents.rows).map GuildScoreEvent.delta).sum := by
  simp only [cappedDelta, hcap, if_pos hq, Tx.run_bind_ok run_positivePointsEarnedToday] at h
  rw [remainingCap]
  split at h
  · cases h
    exact absurd hpos (by decide)
  · rename_i hzero
    split at h
    · rename_i hless
      cases h
      exact ⟨by omega, le_rfl⟩
    · rename_i hmore
      cases h
      exact ⟨hpos, by omega⟩

/-- The event `e` that a request added to the ledger of `s`, with the checks that set its delta. -/
structure RecordedBy (q : ContributionRequest) (now startedAt : Int) (s : Db)
    (e : GuildScoreEvent) : Prop where
  userId : e.userId = q.userId
  granter : e.granterUserId = q.granterUserId
  eventType : e.eventType = trim q.eventType
  createdAt : e.createdAt = startedAt
  checked : ∃ policy s₁ s₂ vote why, s₁.guildScoreEvents = s.guildScoreEvents ∧
    s₂.guildScoreEvents = s.guildScoreEvents ∧
    (voteDelta policy q (trim q.eventType) now).run s₁ = (.ok vote, s₂) ∧
    (cappedDelta q (trim q.eventType) now vote).run s₂ = (.ok (e.delta, why), s₂)

theorem run_recordContributionEvent_recorded {q : ContributionRequest} {startedAt : Int} {id : Uuid}
    {o : ContributionEventOutcome}
    (h : (recordContributionEvent env q now startedAt id).run s = (.ok o, s')) :
    s'.guildScoreEvents = s.guildScoreEvents ∨
      ∃ e, s'.guildScoreEvents.rows = s.guildScoreEvents.rows ++ [e] ∧
        RecordedBy q now startedAt s e := by
  unfold recordContributionEvent at h
  dsimp only at h
  split at h
  · cases h
  replace h := Tx.run_bind_eq_ok h
  obtain ⟨⟨p, r⟩, s₁, hload, h⟩ := h
  rcases run_loadStats_cases env q.userId s with ⟨e, s₀, he, -⟩ | ⟨s₀, hrun, -, hframe⟩
  · rw [he] at hload
    cases hload
  rw [hrun] at hload
  cases hload
  replace h := Tx.run_bind_eq_ok h
  obtain ⟨dup, s₂, hfind, h⟩ := h
  obtain ⟨rfl, -⟩ := run_findDuplicate_ok hfind
  split at h
  · cases h
    exact .inl hframe.events
  · obtain ⟨vote, s₃, hvote, h⟩ := Tx.run_bind_eq_ok h
    have hevents : s₃.guildScoreEvents = s.guildScoreEvents := by
      rcases run_voteDelta_ok hvote with rfl | ⟨g, -, -, hf, -⟩
      · exact hframe.events
      · exact hf.events.trans hframe.events
    obtain ⟨⟨delta, why⟩, s₄, hcap, h⟩ := Tx.run_bind_eq_ok h
    cases run_cappedDelta_ok hcap
    obtain ⟨e, s₅, hins, h⟩ := Tx.run_bind_eq_ok h
    obtain ⟨rfl, t, rfl, ht⟩ := run_insertScoreEvent_ok hins
    obtain ⟨x, s₆, hupd, h⟩ := Tx.run_bind_eq_ok h
    cases h
    have hkeep : s'.guildScoreEvents = t :=
      (keeps_executeUpdateStats (π := Db.guildScoreEvents) (fun _ _ => rfl) _ _ _).of_run hupd
    have hrows : s'.guildScoreEvents.rows = _ := (congrArg Table.rows hkeep).trans ht
    rw [hevents] at hrows
    exact .inr ⟨_, hrows, rfl, rfl, rfl, rfl, _, s₂, s₃, vote, why, hframe.events, hevents, hvote,
      hcap⟩

end SyncServer.Guild
