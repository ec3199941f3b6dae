import Mathlib.Algebra.Order.BigOperators.Group.List
import Mathlib.Data.Finset.Card
import SyncServer.Guild.ActiveDays
import SyncServer.Guild.Freeze
import SyncServer.Guild.Votes

/-! # Community upvotes

The rules against abuse hold of the ledger as a whole: the points of a day stay within the cap and
come from few granters, nobody grants points to herself, and two users do not grant points to each
other within a month.
-/

namespace SyncServer.Guild
open Transaction

/-- The type of the events of `award_community_upvote`. -/
def helpfulAnswerVote : String := "helpful_answer_vote"

def IsUpvote (e : GuildScoreEvent) : Prop := e.eventType = helpfulAnswerVote ∧ 0 < e.delta

/-- The votes that brought the user points on a UTC day. -/
def upvotesOn (user : Uuid) (day : Int) (events : List GuildScoreEvent) : List GuildScoreEvent :=
  events.filter (fun e => decide (e.userId = user ∧ e.eventType = helpfulAnswerVote ∧
    dateNaive e.createdAt = day ∧ 0 < e.delta))

/-- The ledger keeps the rules for votes. -/
structure FairVotes (cap : Int) (events : List GuildScoreEvent) : Prop where
  capped : ∀ user day, ((upvotesOn user day events).map GuildScoreEvent.delta).sum ≤ max cap 0
  fewGranters : ∀ user day, (grantersOf (upvotesOn user day events)).length ≤ 10
  granted : ∀ e ∈ events, IsUpvote e → ∃ g, e.granterUserId = some g ∧ g ≠ e.userId
  oneWay : ∀ e ∈ events, ∀ f ∈ events, IsUpvote e → IsUpvote f →
    e.granterUserId = some f.userId → f.granterUserId = some e.userId →
    e.createdAt + Duration.days 30 ≤ f.createdAt ∨ f.createdAt + Duration.days 30 ≤ e.createdAt

/-- A vote is an award with the fixed cap, and its transaction starts at the reading of its clock;
nothing else is restricted but that no history is deleted. -/
def GuildOp.VotesWith (cap : Int) : GuildOp → Prop
  | recordContributionEvent q now startedAt _ => startedAt = now ∧
    (trim q.eventType = helpfulAnswerVote → ∃ user granter reference metadata,
      q = awardCommunityUpvote user granter reference metadata cap)
  | pruneGuildHistory _ => False
  | _ => True

/-- The votes of the ledger are older than all readings of the clock that are still to come. -/
def VotesPast (events : List GuildScoreEvent) (ops : List GuildOp) : Prop :=
  ∀ e ∈ events, e.eventType = helpfulAnswerVote → ∀ t ∈ ops.flatMap GuildOp.readings, e.createdAt ≤ t

section
variable {events : List GuildScoreEvent} {e : GuildScoreEvent} {cap now : Int} {user : Uuid}

/-! ## A vote more -/

theorem upvotesOn_snoc (user : Uuid) (day : Int) : upvotesOn user day (events ++ [e]) =
    upvotesOn user day events ++ upvotesOn user day [e] := List.filter_append ..

theorem upvotesOn_singleton {day : Int} (h : IsUpvote e) (hday : dateNaive e.createdAt = day) :
    upvotesOn e.userId day [e] = [e] := by
  simp [upvotesOn, hday, h.1, h.2]

theorem upvotesOn_eq_nil {day : Int}
    (h : ¬ (IsUpvote e ∧ e.userId = user ∧ dateNaive e.createdAt = day)) :
    upvotesOn user day [e] = [] := by
  apply List.filter_eq_nil_iff.mpr
  rintro f hf hmatch
  obtain rfl := List.mem_singleton.mp hf
  obtain ⟨hu, ht, hday, hpos⟩ := of_decide_eq_true hmatch
  exact h ⟨⟨ht, hpos⟩, hu, hday⟩

theorem pointsToday_eq (h : ∀ f ∈ events, f.eventType = helpfulAnswerVote → f.createdAt ≤ now) :
    pointsToday user helpfulAnswerVote now events = upvotesOn user (dateNaive now) events := by
  refine List.filter_congr (fun f hf => decide_eq_decide.mpr ?_)
  rw [midnight_le_iff]
  constructor
  · rintro ⟨hu, ht, hday, hpos⟩
    exact ⟨hu, ht, le_antisymm (dateNaive_mono (h f hf ht)) hday, hpos⟩
  · rintro ⟨hu, ht, hday, hpos⟩
    exact ⟨hu, ht, hday.ge, hpos⟩

theorem sum_upvotes_nonneg (user : Uuid) (day : Int) :
    0 ≤ ((upvotesOn user day events).map GuildScoreEvent.delta).sum := by
  apply List.sum_nonneg
  intro d hd
  obtain ⟨f, hf, rfl⟩ := List.mem_map.mp hd
  have hpos := of_decide_eq_true (List.mem_filter.mp hf).2
  exact hpos.2.2.2.le

theorem add_le_of_remainingCap {sum d : Int} (hcap : i32Min ≤ cap ∧ cap ≤ i32Max) (h₀ : 0 ≤ sum)
    (hsum : sum ≤ max cap 0) (hd : 0 < d) (h : d ≤ remainingCap cap sum) : sum + d ≤ max cap 0 := by
  have hmax : (0 : Int) ≤ i32Max := by decide
  have hmin : i32Min ≤ 0 := by decide
  rw [remainingCap, clamp_of_range h₀ (by omega)] at h
  rw [i32_of_range (by omega) (by omega)] at h
  omega

theorem grantersOf_snoc_le (l : List GuildScoreEvent) (e : GuildScoreEvent) :
    (grantersOf (l ++ [e])).length ≤ (grantersOf l).length + 1 := by
  rw [grantersOf, grantersOf, ← List.card_toFinset, ← List.card_toFinset, List.filterMap_append,
    List.toFinset_append]
  refine (Finset.card_union_le _ _).trans (Nat.add_le_add_left ?_ _)
  rw [List.card_toFinset]
  refine (List.dedup_sublist _).length_le.trans ?_
  exact List.length_filterMap_le _ _

/-- The ledger stays fair when an event is added that is no vote, or one that has passed the
checks. -/
theorem FairVotes.snoc {q : ContributionRequest} (h : FairVotes cap events)
    (hcap : i32Min ≤ cap ∧ cap ≤ i32Max)
    (hpast : ∀ f ∈ events, f.eventType = helpfulAnswerVote → f.createdAt ≤ e.createdAt)
    (huser : e.userId = q.userId) (hgranter : e.granterUserId = q.granterUserId)
    (hpassed : IsUpvote e → VotePassed q helpfulAnswerVote e.createdAt events ∧
      e.delta ≤ remainingCap cap ((pointsToday q.userId helpfulAnswerVote e.createdAt events).map
        GuildScoreEvent.delta).sum) :
    FairVotes cap (events ++ [e]) := by
  have hfar : ∀ f ∈ events, IsUpvote e → IsUpvote f → e.granterUserId = some f.userId →
      f.granterUserId = some e.userId → f.createdAt + Duration.days 30 ≤ e.createdAt := by
    intro f hf he hvote hef hfe
    obtain ⟨g, hg, -, start, hstart, hnone⟩ := (hpassed he).1.granted
    obtain rfl : f.userId = g := Option.some.inj (hef.symm.trans (hgranter.trans hg))
    have hout := List.any_eq_false.mp hnone f hf
    simp only [isReverse, hfe, huser, hvote.1, hvote.2, true_and, decide_eq_true_iff, not_le] at hout
    have := timeSub_eq_some hstart
    omega
  have hgranted : IsUpvote e → ∃ g, e.granterUserId = some g ∧ g ≠ e.userId := by
    intro he
    obtain ⟨g, hg, hne, -⟩ := (hpassed he).1.granted
    exact ⟨g, hgranter.trans hg, huser ▸ hne⟩
  constructor
  · intro user day
    rw [upvotesOn_snoc]
    by_cases hmatch : IsUpvote e ∧ e.userId = user ∧ dateNaive e.createdAt = day
    · obtain ⟨he, rfl, hday⟩ := hmatch
      obtain ⟨-, hleft⟩ := hpassed he
      rw [pointsToday_eq hpast, ← huser, hday] at hleft
      rw [upvotesOn_singleton he hday, List.map_append, List.sum_append]
      simpa using add_le_of_remainingCap hcap (sum_upvotes_nonneg _ _) (h.capped _ _) he.2 hleft
    · rw [upvotesOn_eq_nil hmatch, List.append_nil]
      exact h.capped user day
  · intro user day
    rw [upvotesOn_snoc]
    by_cases hmatch : IsUpvote e ∧ e.userId = user ∧ dateNaive e.createdAt = day
    · obtain ⟨he, rfl, hday⟩ := hmatch
      have hfew := (hpassed he).1.unclustered
      rw [pointsToday_eq hpast, ← huser, hday] at hfew
      rw [upvotesOn_singleton he hday]
      have := grantersOf_snoc_le (upvotesOn e.userId day events) e
      omega
    · rw [upvotesOn_eq_nil hmatch, List.append_nil]
      exact h.fewGranters user day
  · intro f hf hvote
    rcases List.mem_append.mp hf with hf | hf
    · exact h.granted f hf hvote
    · rw [List.mem_singleton] at hf
      exact hf ▸ hgranted (hf ▸ hvote)
  · intro f hf f' hf' hvote hvote' hff' hf'f
    rcases List.mem_append.mp hf with hold | hnew <;> rcases List.mem_append.mp hf' with hold' | hnew'
    · exact h.oneWay f hold f' hold' hvote hvote' hff' hf'f
    · obtain rfl := List.mem_singleton.mp hnew'
      exact .inl (hfar f hold hvote' hvote hf'f hff')
    · obtain rfl := List.mem_singleton.mp hnew
      exact .inr (hfar f' hold' hvote hvote' hff' hf'f)
    · obtain rfl := List.mem_singleton.mp hnew
      obtain rfl := List.mem_singleton.mp hnew'
      obtain ⟨g, hg, hne⟩ := hgranted hvote
      exact absurd (Option.some.inj (hg.symm.trans hff')) hne

/-! ## Runs -/

variable {env : Env} {s : Db} {op : GuildOp} {ops : List GuildOp}

theorem GuildOp.events_cases (env : Env) (s : Db) (hkeeps : op.keepsHistory = true) :
    (op.apply env s).guildScoreEvents = s.guildScoreEvents ∨
      ∃ q now startedAt id e, op = .recordContributionEvent q now startedAt id ∧
        (op.apply env s).guildScoreEvents.rows = s.guildScoreEvents.rows ++ [e] ∧
        RecordedBy q now startedAt s e := by
  rcases hout : op.outcome env s with _ | o
  · exact .inl (GuildOp.events_eq hkeeps hout)
  cases op with
  | recordContributionEvent q now startedAt id =>
    rw [GuildOp.apply]
    rcases Tx.atomically_snd_cases (Guild.recordContributionEvent env q now startedAt id) s with
      ⟨o, hrun⟩ | hs
    · refine (run_recordContributionEvent_recorded hrun).imp_right ?_
      rintro ⟨e, hrows, he⟩
      exact ⟨q, now, startedAt, id, e, rfl, hrows, he⟩
    · rw [hs]
      exact .inl rfl
  | _ => cases hout

theorem RecordedBy.passed {q : ContributionRequest} {startedAt : Int}
    (h : RecordedBy q now startedAt s e) (hq : 0 < q.requestedDelta ∧
      q.options.requiresMeaningfulGranter = true) (hcap : q.options.dailyPositiveCap = some cap)
    (hpos : 0 < e.delta) :
    VotePassed q (trim q.eventType) now s.guildScoreEvents.rows ∧
      e.delta ≤ remainingCap cap ((pointsToday q.userId (trim q.eventType) now
        s.guildScoreEvents.rows).map GuildScoreEvent.delta).sum := by
  obtain ⟨policy, s₁, s₂, vote, why, h₁, h₂, hvote, hcapped⟩ := h.checked
  obtain ⟨hpos', hleft⟩ := run_cappedDelta_pos hq.1 hcap hcapped hpos
  rw [h₂] at hleft
  exact ⟨h₁ ▸ run_voteDelta_passed hq hvote hpos', hleft⟩

theorem FairVotes.apply (hcap : i32Min ≤ cap ∧ cap ≤ i32Max) (hop : op.VotesWith cap)
    (hpast : VotesPast s.guildScoreEvents.rows (op :: ops))
    (h : FairVotes cap s.guildScoreEvents.rows) :
    FairVotes cap (op.apply env s).guildScoreEvents.rows := by
  have hkeeps : op.keepsHistory = true := by
    cases op with
    | pruneGuildHistory now => cases hop
    | _ => rfl
  rcases GuildOp.events_cases env s hkeeps with hsame | ⟨q, now, startedAt, id, e, rfl, hrows, he⟩
  · rw [hsame]
    exact h
  obtain ⟨rfl, haward⟩ := hop
  rw [hrows]
  refine h.snoc hcap (fun f hf ht => ?_) he.userId he.granter (fun hvote => ?_)
  · rw [he.createdAt]
    exact hpast f hf ht _ (by simp [GuildOp.readings])
  · have htype := he.eventType.symm.trans hvote.1
    obtain ⟨user, granter, reference, metadata, rfl⟩ := haward htype
    rw [he.createdAt, ← htype]
    have hpoints : (0 : Int) < 5 := by decide
    exact he.passed ⟨hpoints, rfl⟩ rfl hvote.2

theorem VotesPast.apply (hop : op.VotesWith cap) (hclock : Clocked (op :: ops))
    (hpast : VotesPast s.guildScoreEvents.rows (op :: ops)) :
    VotesPast (op.apply env s).guildScoreEvents.rows ops := by
  have htail : VotesPast s.guildScoreEvents.rows ops :=
    fun e he ht t hmem => hpast e he ht t (by simp [hmem])
  have hkeeps : op.keepsHistory = true := by
    cases op with
    | pruneGuildHistory now => cases hop
    | _ => rfl
  rcases GuildOp.events_cases env s hkeeps with hsame | ⟨q, now, startedAt, id, e, rfl, hrows, he⟩
  · rw [hsame]
    exact htail
  obtain ⟨rfl, -⟩ := hop
  rw [hrows]
  intro f hf ht t hmem
  rcases List.mem_append.mp hf with hold | hnew
  · exact htail f hold ht t hmem
  · obtain rfl := List.mem_singleton.mp hnew
    simp only [Clocked, List.flatMap_cons, GuildOp.readings, List.singleton_append,
      List.pairwise_cons] at hclock
    rw [he.createdAt]
    exact hclock.1 t hmem

theorem FairVotes.run (hcap : i32Min ≤ cap ∧ cap ≤ i32Max) (hops : ∀ op ∈ ops, op.VotesWith cap)
    (hclock : Clocked ops) (hpast : VotesPast s.guildScoreEvents.rows ops)
    (h : FairVotes cap s.guildScoreEvents.rows) :
    FairVotes cap (runOps env ops s).guildScoreEvents.rows := by
  induction ops generalizing s with
  | nil => exact h
  | cons op ops ih =>
    have hop := hops op List.mem_cons_self
    exact ih (fun op' h' => hops op' (List.mem_cons_of_mem _ h')) hclock.tail
      (hpast.apply hop hclock) (h.apply hcap hop hpast)

theorem FairVotes.of_no_votes (h : ∀ e ∈ events, e.eventType ≠ helpfulAnswerVote) :
    FairVotes cap events := by
  have hnone : ∀ user day, upvotesOn user day events = [] := by
    intro user day
    refine List.filter_eq_nil_iff.mpr (fun e he hmatch => h e he ?_)
    exact (of_decide_eq_true hmatch).2.1
  refine ⟨fun user day => ?_, fun user day => ?_, fun e he hvote => absurd hvote.1 (h e he),
    fun e he _ _ hvote => absurd hvote.1 (h e he)⟩
  · simp [hnone]
  · simp [hnone, grantersOf]

end

/-- In every run of guild operations from a ledger without votes, with one cap and a clock that
does not go back, the votes are fair. -/
theorem upvotes_fair (env : Env) (cap : Int) (hcap : i32Min ≤ cap ∧ cap ≤ i32Max)
    (ops : List GuildOp) (hops : ∀ op ∈ ops, op.VotesWith cap) (hclock : Clocked ops) (s₀ : Db)
    (h₀ : ∀ e ∈ s₀.guildScoreEvents.rows, e.eventType ≠ helpfulAnswerVote) :
    FairVotes cap (runOps env ops s₀).guildScoreEvents.rows :=
  (FairVotes.of_no_votes h₀).run hcap hops hclock (fun e he ht => absurd ht (h₀ e he))

/-- A vote with a cap of eight points a day. -/
def upvote (user granter : Uuid) (reference : String) (second : Int) (id : Uuid) : GuildOp :=
  .recordContributionEvent (awardCommunityUpvote user (some granter) (some reference) (.object []) 8)
    (Duration.seconds second) (Duration.seconds second) id

/-- The administrator grants points twice, which the cap of eight shortens, and gets none back. -/
theorem upvotes_fair_admin_votes_twice :
    ((upvotesOn 1 0 (runOps asciiEnv [upvote 1 2 "a" 5 11, upvote 1 2 "b" 6 12, upvote 2 1 "c" 7 13]
      accountAndAdmin).guildScoreEvents.rows).map GuildScoreEvent.delta).sum ≤ max 8 0 :=
  (upvotes_fair asciiEnv 8 (by decide)
    [upvote 1 2 "a" 5 11, upvote 1 2 "b" 6 12, upvote 2 1 "c" 7 13] (by
      intro op hop
      simp only [List.mem_cons, List.not_mem_nil, or_false] at hop
      rcases hop with rfl | rfl | rfl <;> exact ⟨rfl, fun _ => ⟨_, _, _, _, rfl⟩⟩)
    (by decide) accountAndAdmin (by decide)).capped 1 0

example : (runOps asciiEnv [upvote 1 2 "a" 5 11, upvote 1 2 "b" 6 12, upvote 2 1 "c" 7 13]
    accountAndAdmin).guildScoreEvents.rows.map GuildScoreEvent.delta = [5, 3, 0] := by decide

end SyncServer.Guild
