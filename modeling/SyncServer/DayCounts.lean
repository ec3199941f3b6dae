import SyncServer.Auth.AgentTokens
import SyncServer.Guild.Upvotes

/-! # Numbers of days

Administrators say how many days history is kept and for how many days a token is good. The
numbers are bounded from below only, and the arithmetic of `chrono` panics at the ends of its
calendar.
-/

namespace SyncServer
open Transaction

/-- `Duration::days`, which panics when its milliseconds are no `i64`. -/
def durationDays (n : Int) : Option Int :=
  if -9223372036854775 ≤ n * 86400 ∧ n * 86400 ≤ 9223372036854775 then some (Duration.days n)
  else none

variable {now t d n : Int}

theorem dateSubDays_eq_some_iff :
    dateSubDays d n = some t ↔ (dateMin ≤ d - n ∧ d - n ≤ dateMax) ∧ d - n = t := by
  simp only [dateSubDays, Option.ite_none_right_eq_some, Option.some.injEq]

theorem timeSub_eq_some_iff : timeSub now d = some t ↔ IsInstant (now - d) ∧ now - d = t := by
  simp only [timeSub, Option.ite_none_right_eq_some, Option.some.injEq, IsInstant]

theorem timeAdd_durationDays (hnow : IsInstant now) :
    (durationDays n).bind (timeAdd now) = timeAdd now (Duration.days n) := by
  unfold durationDays
  split
  · rfl
  · rename_i hlarge
    symm
    refine Option.eq_none_iff_forall_ne_some.mpr (fun t ht => ?_)
    obtain ⟨⟨hmin, hmax⟩, -⟩ := timeSub_eq_some_iff.mp ht
    rw [sub_neg_eq_add, dateNaive_add_days] at hmin hmax
    obtain ⟨hnowMin, hnowMax⟩ := hnow
    unfold dateMin dateMax at *
    omega

/-! ## Deletions of old history -/

namespace Guild
variable {env : Env} {s : Db}

/-- A deletion of old history ends, and what was counted or recorded today is still there. -/
def PrunesSafely (env : Env) (now : Int) (s : Db) : Prop :=
  ∃ result s', (pruneGuildHistory env now).run s = (.ok result, s') ∧
    (∀ c ∈ s.dailyActionCounters.rows, c.dayBucket = dateNaive now →
      c ∈ s'.dailyActionCounters.rows) ∧
    ∀ e ∈ s.guildScoreEvents.rows, dateNaive e.createdAt = dateNaive now →
      e ∈ s'.guildScoreEvents.rows

/-- The number of days does not lead back behind the first day of the calendar. -/
def ReachesBack (now days : Int) : Prop := days ≤ dateNaive now - dateMin

instance (now days : Int) : Decidable (ReachesBack now days) :=
  inferInstanceAs (Decidable (_ ≤ _))

theorem cutoffs_iff (p : Policy) (hnow : IsInstant now) :
    ReachesBack now p.dailyCounterRetentionDays ∧ ReachesBack now p.scoreEventRetentionDays ↔
      ∃ day time, dateSubDays (dateNaive now) p.dailyCounterRetentionDays = some day ∧
        timeSub now (Duration.days p.scoreEventRetentionDays) = some time := by
  have hcounters := p.accepted.counter_retention_pos
  have hevents := p.accepted.event_retention_pos
  simp only [dateSubDays_eq_some_iff, timeSub_eq_some_iff, ReachesBack, IsInstant,
    dateNaive_sub_days]
  obtain ⟨hmin, hmax⟩ := hnow
  constructor
  · rintro ⟨hday, htime⟩
    exact ⟨_, _, ⟨by omega, rfl⟩, ⟨by omega, rfl⟩⟩
  · rintro ⟨day, time, ⟨hday, -⟩, ⟨htime, -⟩⟩
    omega

theorem run_pruneGuildHistory_of_cutoffs {day time : Int}
    (hday : dateSubDays (dateNaive now) (policyOf env s).dailyCounterRetentionDays = some day)
    (htime : timeSub now (Duration.days (policyOf env s).scoreEventRetentionDays) = some time) :
    ∃ result, (pruneGuildHistory env now).run s = (.ok result, { s with
      dailyActionCounters := s.dailyActionCounters.filter (fun r => !decide (r.dayBucket < day))
      guildScoreEvents := s.guildScoreEvents.filter (fun e => !decide (e.createdAt < time)) }) := by
  unfold pruneGuildHistory loadGuildPolicyConn
  rw [Tx.run_bind_ok (Tx.run_query _ _), hday, htime]
  exact ⟨_, rfl⟩

theorem prunesSafely_iff (hnow : IsInstant now) :
    PrunesSafely env now s ↔ ReachesBack now (policyOf env s).dailyCounterRetentionDays ∧
      ReachesBack now (policyOf env s).scoreEventRetentionDays := by
  rw [cutoffs_iff _ hnow]
  constructor
  · rintro ⟨result, s', hrun, -⟩
    unfold pruneGuildHistory loadGuildPolicyConn at hrun
    rw [Tx.run_bind_ok (Tx.run_query _ _)] at hrun
    obtain ⟨day, s₁, h₁, hrun⟩ := Tx.run_bind_eq_ok hrun
    obtain ⟨time, s₂, h₂, -⟩ := Tx.run_bind_eq_ok hrun
    exact ⟨day, time, (Tx.run_okOr_ok.mp h₁).1, (Tx.run_okOr_ok.mp h₂).1⟩
  · rintro ⟨day, time, hday, htime⟩
    obtain ⟨result, hrun⟩ := run_pruneGuildHistory_of_cutoffs hday htime
    have hcounters := (policyOf env s).accepted.counter_retention_pos
    have hevents := (policyOf env s).accepted.event_retention_pos
    refine ⟨result, _, hrun, fun c hc htoday => ?_, fun e he htoday => ?_⟩
    · -- the cutoff is before today
      have hcut := dateSubDays_eq_some hday
      refine List.mem_filter.mpr ⟨hc, ?_⟩
      simp only [Bool.not_eq_true', decide_eq_false_iff_not]
      omega
    · -- the cutoff is before the last midnight
      have hcut := timeSub_eq_some htime
      refine List.mem_filter.mpr ⟨he, ?_⟩
      simp only [Bool.not_eq_true', decide_eq_false_iff_not]
      unfold dateNaive at htoday
      unfold Duration.days at hcut
      omega

end Guild

/-! ## Expiry -/

namespace Auth

/-- An expiry is refused, or is an instant after now. -/
def ExpirySafe (now days : Int) : Prop :=
  (∃ e, e ≠ .panicked ∧ computeExpiresAt now (some days) = .error e) ∨
    ∃ t, computeExpiresAt now (some days) = .ok (some t) ∧ now < t ∧ IsInstant t

theorem expirySafe_iff (hnow : IsInstant now) (days : Int) :
    ExpirySafe now days ↔ days ≤ dateMax - dateNaive now := by
  obtain ⟨hmin, hmax⟩ := hnow
  by_cases hpos : 0 < days
  swap
  · have hrefused : computeExpiresAt now (some days) =
        .error (.badRequest "expires_in_days must be a positive number of days") := by
      simp only [computeExpiresAt, require, hpos, decide_false]
      rfl
    exact iff_of_true (.inl ⟨_, by decide, hrefused⟩) (by omega)
  have hvalue : computeExpiresAt now (some days) =
      (timeAdd now (Duration.days days)).elim (.error .panicked) (fun t => .ok (some t)) := by
    simp only [computeExpiresAt, require, hpos, decide_true]
    cases timeAdd now (Duration.days days) <;> rfl
  have hlater : now < now + Duration.days days := by
    unfold Duration.days
    omega
  have hin : IsInstant (now + Duration.days days) ↔ days ≤ dateMax - dateNaive now := by
    unfold IsInstant
    rw [dateNaive_add_days]
    omega
  rw [ExpirySafe, hvalue, ← hin]
  rcases ht : timeAdd now (Duration.days days) with _ | t
  · have hout : ¬ IsInstant (now + Duration.days days) := by
      intro h
      rw [timeAdd, timeSub_eq_some_iff.mpr ⟨by rwa [sub_neg_eq_add], rfl⟩] at ht
      cases ht
    refine iff_of_false ?_ hout
    rintro (⟨e, he, ⟨⟩⟩ | ⟨t, ⟨⟩, -⟩)
    exact he rfl
  · obtain ⟨hinstant, rfl⟩ := timeSub_eq_some_iff.mp ht
    rw [sub_neg_eq_add] at *
    exact iff_of_true (.inr ⟨_, rfl, hlater, hinstant⟩) hinstant

end Auth

/-! ## Both -/

/-- At every instant that the clock can show, and whatever policy is loaded, old history is deleted
safely exactly if neither retention leads back behind the calendar, and an expiry is safe exactly
if it does not lead past its end. -/
theorem day_counts_safe_iff (env : Guild.Env) (s : Db) (now days : Int) (hnow : IsInstant now) :
    (Guild.PrunesSafely env now s ↔
      Guild.ReachesBack now (Guild.policyOf env s).dailyCounterRetentionDays ∧
        Guild.ReachesBack now (Guild.policyOf env s).scoreEventRetentionDays) ∧
    (Auth.ExpirySafe now days ↔ days ≤ dateMax - dateNaive now) :=
  ⟨Guild.prunesSafely_iff hnow, Auth.expirySafe_iff hnow days⟩

theorem day_counts_safe_iff_default :
    (Guild.PrunesSafely Guild.asciiEnv 0 Guild.oneAccount ↔
      Guild.ReachesBack 0 (Guild.policyOf Guild.asciiEnv Guild.oneAccount).dailyCounterRetentionDays ∧
        Guild.ReachesBack 0
          (Guild.policyOf Guild.asciiEnv Guild.oneAccount).scoreEventRetentionDays) ∧
    (Auth.ExpirySafe 0 30 ↔ 30 ≤ dateMax - dateNaive 0) :=
  day_counts_safe_iff Guild.asciiEnv Guild.oneAccount 0 30 (by decide)

/-- Events are to be kept for as long as the field can say. -/
def hoardingPolicy : Guild.GuildPolicyConfig where
  enforcement := ⟨true, true, true, true, true⟩
  dailyCounterRetentionDays := 45
  scoreEventRetentionDays := 2147483647
  levelPolicies := [⟨1, 0, none, none, none, none⟩]
  rankPolicies := [⟨"F", 0, none, none, none, none, false⟩]
  communityUpvoteDailyCap := 100
  safeAttachmentTypes := []

theorem hoarding_isText : isText "hoarding" = true := rfl

def hoardingEnv : Guild.Env where
  unicode := .ascii
  codec := {
    encode := fun _ => "hoarding"
    decode := fun _ => some hoardingPolicy
    encode_isText := fun _ => hoarding_isText }

/-- The server on which the policy was saved. -/
def hoardingServer : Db := ((Guild.saveGuildPolicy hoardingEnv hoardingPolicy).run Db.empty).2

/-- The policy is accepted and saved, but every deletion of old history panics, and so does the
creation of a token that is to be good for as long as the field can say. -/
theorem large_day_counts_panic :
    ((Guild.saveGuildPolicy hoardingEnv hoardingPolicy).run Db.empty).1 = .ok hoardingPolicy ∧
      (Guild.pruneGuildHistory hoardingEnv 0).run hoardingServer =
        (.error .panicked, hoardingServer) ∧
      Auth.computeExpiresAt 0 (some 9223372036854775807) = .error .panicked ∧
      ¬ Guild.PrunesSafely hoardingEnv 0 hoardingServer ∧
      ¬ Auth.ExpirySafe 0 9223372036854775807 := by
  have hprune : (Guild.pruneGuildHistory hoardingEnv 0).run hoardingServer =
      (.error .panicked, hoardingServer) := Prod.ext (by decide) rfl
  have hexpiry : Auth.computeExpiresAt 0 (some 9223372036854775807) = .error .panicked := by decide
  refine ⟨by decide, hprune, hexpiry, ?_, ?_⟩
  · rintro ⟨result, s', hrun, -⟩
    rw [hprune] at hrun
    cases hrun
  · rintro (⟨e, he, hrefused⟩ | ⟨t, ht, -⟩)
    · rw [hexpiry] at hrefused
      cases hrefused
      exact he rfl
    · rw [hexpiry] at ht
      cases ht

end SyncServer
