import SyncServer.Guild.Thresholds

/-! # The arithmetic of quotas

Limits, percents and days are 32-bit numbers that the validator bounds only from below. Their
products wrap without notice; a snapshot shows the exact numbers as long as they do not.
-/

namespace SyncServer.Guild

/-! ## What the numbers should be -/

def exactDailyLimit : Option Int → Option Int → Bool → Option Int
  | none, _, _ => none
  | some _, none, true => none
  | some limit, some percent, _ => some (limit * percent / 100)
  | some limit, none, false => some limit

/-- A limit and what remains of it, given what was sent. -/
structure LimitExact (levelLimit percent : Option Int) (overrides : Bool) (sent : Int)
    (limit remaining : Option Int) : Prop where
  limit_eq : limit = exactDailyLimit levelLimit percent overrides
  limit_nonneg : ∀ l ∈ limit, 0 ≤ l
  remaining_eq : remaining = limit.map (fun l => max (l - sent) 0)

def levelSpan (minActiveDays next : Int) : Int := max (next - minActiveDays) 1

def daysProgressed (activeDays minActiveDays next : Int) : Int :=
  clamp (activeDays - minActiveDays) 0 (levelSpan minActiveDays next)

structure ProgressExact (activeDays minActiveDays : Int) (next : Option Int) (percent : Nat) :
    Prop where
  le_hundred : percent ≤ 100
  last_level : next = none → percent = 100
  percent_eq : ∀ d ∈ next, (percent : Int) =
    100 * daysProgressed activeDays minActiveDays d / levelSpan minActiveDays d

/-! ## Limits -/

theorem i32_tdiv_hundred_eq_iff {x : Int} (hx : 0 ≤ x) :
    (i32 x).tdiv 100 = x / 100 ↔ x ≤ i32Max := by
  constructor
  · intro h
    by_contra hgt
    have hwrap := i32_le_of_gt (not_le.mp hgt)
    have hsign : Int.sign 100 = 1 := rfl
    rw [Int.tdiv_eq_ediv, hsign] at h
    split at h <;> omega
  · intro hle
    rw [i32_of_range (by unfold i32Min; omega) hle, Int.tdiv_eq_ediv_of_nonneg hx]

theorem limitExact_iff {levelLimit percent : Option Int} {overrides : Bool} {sent : Int}
    (hlimit : ∀ l ∈ levelLimit, 0 ≤ l ∧ l ≤ i32Max) (hpercent : ∀ q ∈ percent, 0 ≤ q)
    (hsent : 0 ≤ sent ∧ sent ≤ i32Max) :
    LimitExact levelLimit percent overrides sent (effectiveDailyLimit levelLimit percent overrides)
        ((effectiveDailyLimit levelLimit percent overrides).map
          (fun l => max (i32 (l - sent)) 0)) ↔
      ∀ l ∈ levelLimit, ∀ q ∈ percent, l * q ≤ i32Max := by
  have hremaining : ∀ l, 0 ≤ l → l ≤ i32Max → max (i32 (l - sent)) 0 = max (l - sent) 0 := by
    intro l h₁ h₂
    rw [i32_of_range] <;> simp only [i32Min, i32Max] at * <;> omega
  rcases levelLimit with _ | l
  · exact iff_of_true ⟨rfl, by simp [effectiveDailyLimit], rfl⟩ (by simp)
  · obtain ⟨hl, hmax⟩ := hlimit l rfl
    rcases percent with _ | q
    · refine iff_of_true ?_ (by simp)
      cases overrides
      · refine ⟨rfl, by simpa [effectiveDailyLimit] using hl, ?_⟩
        simp [effectiveDailyLimit, hremaining l hl hmax]
      · exact ⟨rfl, by simp [effectiveDailyLimit], rfl⟩
    · have hprod : 0 ≤ l * q := Int.mul_nonneg hl (hpercent q rfl)
      have hvalue : effectiveDailyLimit (some l) (some q) overrides =
          some ((i32 (l * q)).tdiv 100) := by cases overrides <;> rfl
      have hexact : exactDailyLimit (some l) (some q) overrides = some (l * q / 100) := by
        cases overrides <;> rfl
      simp only [Option.mem_def, Option.some.injEq, forall_eq', hvalue, Option.map_some]
      rw [← i32_tdiv_hundred_eq_iff hprod]
      constructor
      · intro h
        exact Option.some.inj (h.limit_eq.trans hexact)
      · intro h
        have hle := (i32_tdiv_hundred_eq_iff hprod).mp h
        rw [h]
        refine ⟨hexact.symm, ?_, ?_⟩
        · rintro _ ⟨⟩
          omega
        · rw [Option.map_some, hremaining _ (by omega) (by omega)]

/-! ## Progress -/

theorem daysProgressed_bounds (activeDays minActiveDays next : Int) :
    0 ≤ daysProgressed activeDays minActiveDays next ∧
      daysProgressed activeDays minActiveDays next ≤ levelSpan minActiveDays next ∧
      1 ≤ levelSpan minActiveDays next := by
  unfold daysProgressed levelSpan clamp
  split
  · omega
  · split <;> omega

theorem levelProgressPercent_some {activeDays minActiveDays next : Int}
    (hdays : 0 ≤ activeDays ∧ activeDays ≤ i32Max)
    (hmin : 0 ≤ minActiveDays ∧ minActiveDays ≤ i32Max) (hnext : 0 ≤ next ∧ next ≤ i32Max) :
    levelProgressPercent activeDays minActiveDays (some next) =
      (((i32 (daysProgressed activeDays minActiveDays next * 100)).tdiv
        (levelSpan minActiveDays next)) % 256).toNat := by
  have hspan : i32 (next - minActiveDays) = next - minActiveDays :=
    i32_of_range (by unfold i32Min i32Max at *; omega) (by unfold i32Max at *; omega)
  have hdiff : i32 (activeDays - minActiveDays) = activeDays - minActiveDays :=
    i32_of_range (by unfold i32Min i32Max at *; omega) (by unfold i32Max at *; omega)
  simp only [levelProgressPercent, hspan, hdiff, daysProgressed, levelSpan]

/-- A quotient that went wrong is not mistaken for the right percentage. -/
theorem wrapped_percent_ne {progressed span : Int} (hle : progressed ≤ span)
    (hspan : span ≤ i32Max) (hwrap : i32Max < progressed * 100) :
    ((i32 (progressed * 100)).tdiv span) % 256 ≠ progressed * 100 / span := by
  have hpos : 0 < span := by
    unfold i32Max at hwrap
    omega
  have hlow := i32_le_of_gt hwrap
  obtain ⟨hmin, -⟩ := isI32_i32 (progressed * 100)
  generalize i32 (progressed * 100) = y at hlow hmin
  have hone : 1 ≤ progressed * 100 / span :=
    Int.le_ediv_of_mul_le hpos (by unfold i32Max at hwrap hspan; omega)
  have hhundred : progressed * 100 / span ≤ 100 := Int.ediv_le_of_le_mul hpos (by omega)
  rcases Int.le_total 0 y with hy | hy
  · -- what is left is smaller by more than two spans
    rw [Int.tdiv_eq_ediv_of_nonneg hy]
    have htwo : y / span + 2 ≤ progressed * 100 / span := by
      rw [← Int.add_mul_ediv_right _ _ hpos.ne']
      exact Int.ediv_le_ediv hpos (by unfold i32Max at hspan; omega)
    have hquot := Int.ediv_nonneg hy hpos.le
    omega
  · -- a negative quotient turns into at least 156
    obtain ⟨z, rfl⟩ : ∃ z, y = -z := ⟨-y, by omega⟩
    rw [Int.neg_tdiv, Int.tdiv_eq_ediv_of_nonneg (by omega)]
    have hquot := Int.ediv_nonneg (show 0 ≤ z by omega) hpos.le
    have hle' : z / span ≤ 100 :=
      Int.ediv_le_of_le_mul hpos (by unfold i32Max at hwrap; unfold i32Min at hmin; omega)
    omega

theorem progressExact_iff {activeDays minActiveDays : Int} {next : Option Int}
    (hdays : 0 ≤ activeDays ∧ activeDays ≤ i32Max)
    (hmin : 0 ≤ minActiveDays ∧ minActiveDays ≤ i32Max) (hnext : ∀ d ∈ next, 0 ≤ d ∧ d ≤ i32Max) :
    ProgressExact activeDays minActiveDays next
        (levelProgressPercent activeDays minActiveDays next) ↔
      ∀ d ∈ next, daysProgressed activeDays minActiveDays d * 100 ≤ i32Max := by
  rcases next with _ | d
  · exact iff_of_true ⟨le_refl _, fun _ => rfl, by simp⟩ (by simp)
  obtain ⟨hnonneg, hle, hspan⟩ := daysProgressed_bounds activeDays minActiveDays d
  have hspanMax : levelSpan minActiveDays d ≤ i32Max := by
    have := hnext d rfl
    unfold levelSpan i32Max at *
    omega
  simp only [Option.mem_def, Option.some.injEq, forall_eq',
    levelProgressPercent_some hdays hmin (hnext d rfl)]
  generalize hp : daysProgressed activeDays minActiveDays d = progressed at hnonneg hle
  generalize hs : levelSpan minActiveDays d = span at hle hspan hspanMax
  constructor
  · intro h
    by_contra hgt
    have hne := wrapped_percent_ne hle hspanMax (not_le.mp hgt)
    have heq := h.percent_eq d rfl
    rw [hp, hs, Int.toNat_of_nonneg (Int.emod_nonneg _ (by decide)), Int.mul_comm 100] at heq
    exact hne heq
  · intro hle'
    have hquot : (i32 (progressed * 100)).tdiv span = progressed * 100 / span := by
      rw [i32_of_range (by unfold i32Min; omega) hle', Int.tdiv_eq_ediv_of_nonneg (by omega)]
    have hhundred : progressed * 100 / span ≤ 100 := Int.ediv_le_of_le_mul (by omega) (by omega)
    have hquotNonneg : 0 ≤ progressed * 100 / span := Int.ediv_nonneg (by omega) (by omega)
    rw [hquot, Int.emod_eq_of_lt hquotNonneg (by omega)]
    refine ⟨by omega, nofun, ?_⟩
    rintro _ ⟨⟩
    rw [hp, hs, Int.mul_comm 100]
    omega

/-! ## Snapshots -/

/-- The days and the limits of the levels are 32-bit numbers. -/
def GuildPolicyConfig.LevelsI32 (p : GuildPolicyConfig) : Prop :=
  ∀ e ∈ p.levelPolicies, IsI32 e.minActiveDays ∧ ∀ l ∈ levelRules.amounts e, ∀ v ∈ l, IsI32 v

instance (p : GuildPolicyConfig) : Decidable p.LevelsI32 :=
  inferInstanceAs (Decidable (∀ e ∈ p.levelPolicies,
    IsI32 e.minActiveDays ∧ ∀ l ∈ levelRules.amounts e, ∀ v ∈ l, IsI32 v))

/-- A number that is stored in a column with a `CHECK (.. >= 0)`. -/
def IsCount (x : Int) : Prop := 0 ≤ x ∧ x ≤ i32Max

instance (x : Int) : Decidable (IsCount x) := inferInstanceAs (Decidable (_ ∧ _))

namespace Policy
variable (p : Policy) (stats : UserGuildStats)

/-- The numbers of a snapshot are the exact ones. -/
structure QuotasExact (messagesSent attachmentsSent friendAddsSent : Int) (s : GuildSnapshot) :
    Prop where
  messages : LimitExact (p.levelPolicyForActiveDays stats.activeDays).dailyOutboundMessagesLimit
    (p.rankPolicyForLimits stats.contributionScore).dailyOutboundMessagesLimitMultiplierPercent
    (p.rankPolicyForLimits stats.contributionScore).overridesLevelLimits messagesSent
    s.dailyOutboundMessagesLimit s.dailyOutboundMessagesRemaining
  attachments : LimitExact (p.levelPolicyForActiveDays stats.activeDays).dailyAttachmentSendLimit
    (p.rankPolicyForLimits stats.contributionScore).dailyAttachmentSendLimitMultiplierPercent
    (p.rankPolicyForLimits stats.contributionScore).overridesLevelLimits attachmentsSent
    s.dailyAttachmentSendLimit s.dailyAttachmentSendsRemaining
  friendAdds : LimitExact (p.levelPolicyForActiveDays stats.activeDays).dailyFriendAddLimit
    (p.rankPolicyForLimits stats.contributionScore).dailyFriendAddLimitMultiplierPercent
    (p.rankPolicyForLimits stats.contributionScore).overridesLevelLimits friendAddsSent
    s.dailyFriendAddLimit s.dailyFriendAddsRemaining
  progress : ProgressExact stats.activeDays
    (p.levelPolicyForActiveDays stats.activeDays).minActiveDays s.nextLevelActiveDays
    s.levelProgressPercent

/-- The products that the server computes are no larger than an `i32`. -/
structure ProductsFit : Prop where
  messages : ∀ l ∈ (p.levelPolicyForActiveDays stats.activeDays).dailyOutboundMessagesLimit,
    ∀ q ∈ (p.rankPolicyForLimits
      stats.contributionScore).dailyOutboundMessagesLimitMultiplierPercent, l * q ≤ i32Max
  attachments : ∀ l ∈ (p.levelPolicyForActiveDays stats.activeDays).dailyAttachmentSendLimit,
    ∀ q ∈ (p.rankPolicyForLimits
      stats.contributionScore).dailyAttachmentSendLimitMultiplierPercent, l * q ≤ i32Max
  friendAdds : ∀ l ∈ (p.levelPolicyForActiveDays stats.activeDays).dailyFriendAddLimit,
    ∀ q ∈ (p.rankPolicyForLimits
      stats.contributionScore).dailyFriendAddLimitMultiplierPercent, l * q ≤ i32Max
  progress : ∀ d ∈ p.nextLevelActiveDays (p.levelPolicyForActiveDays stats.activeDays).level,
    daysProgressed stats.activeDays (p.levelPolicyForActiveDays stats.activeDays).minActiveDays d *
      100 ≤ i32Max

variable {p stats}

theorem level_limit_isCount (hp : p.LevelsI32) {e : LevelPolicy} (he : e ∈ p.levelPolicies)
    {limit : Option Int} (hlimit : limit ∈ levelRules.amounts e) : ∀ l ∈ limit, IsCount l := by
  rintro l rfl
  exact ⟨p.accepted.levels.leastAmount_le e he l hlimit, ((hp e he).2 _ hlimit l rfl).2⟩

theorem level_min_isCount (hp : p.LevelsI32) {e : LevelPolicy} (he : e ∈ p.levelPolicies) :
    IsCount e.minActiveDays :=
  ⟨p.accepted.levels.lo_nonneg e he, (hp e he).1.2⟩

theorem percent_nonneg (score : Int) {percent : Option Int}
    (hpercent : percent ∈ rankRules.amounts (p.rankPolicyForLimits score)) :
    ∀ q ∈ percent, 0 ≤ q := by
  rintro q rfl
  unfold rankPolicyForLimits at hpercent
  split at hpercent
  · have hmem := rankRules.lookup_mem p.rankPolicies p.ranks_ne score
    have hone : 1 ≤ q := p.accepted.ranks.leastAmount_le _ hmem q hpercent
    omega
  · simp [rankRules] at hpercent

theorem nextLevelActiveDays_isCount (hp : p.LevelsI32) (level : Nat) :
    ∀ d ∈ p.nextLevelActiveDays level, IsCount d := by
  intro d hd
  obtain ⟨e, he, -, rfl, -⟩ := p.nextLevelActiveDays_eq_some hd
  exact level_min_isCount hp he

/-- The snapshot under an accepted policy shows the exact numbers as long as the products fit. -/
theorem quotasExact_iff (hp : p.LevelsI32) (hstats : stats.Valid) (hdays : IsI32 stats.activeDays)
    (unicode : Unicode) {messagesSent attachmentsSent friendAddsSent : Int}
    (hm : IsCount messagesSent) (ha : IsCount attachmentsSent) (hf : IsCount friendAddsSent)
    (prevLevel : Nat) (prevRank : String) :
    p.QuotasExact stats messagesSent attachmentsSent friendAddsSent
        (buildSnapshot unicode p stats messagesSent attachmentsSent friendAddsSent prevLevel
          prevRank) ↔
      p.ProductsFit stats := by
  have hlimit : ∀ {levelLimit percent : Option Int} {overrides : Bool} {sent : Int},
      levelLimit ∈ levelRules.amounts (p.levelPolicyForActiveDays stats.activeDays) →
      percent ∈ rankRules.amounts (p.rankPolicyForLimits stats.contributionScore) → IsCount sent →
      (LimitExact levelLimit percent overrides sent
          (effectiveDailyLimit levelLimit percent overrides)
          ((effectiveDailyLimit levelLimit percent overrides).map
            (fun l => max (i32 (l - sent)) 0)) ↔
        ∀ l ∈ levelLimit, ∀ q ∈ percent, l * q ≤ i32Max) := fun hl hq hsent =>
    limitExact_iff (level_limit_isCount hp (p.levelPolicyForActiveDays_mem stats.activeDays) hl)
      (percent_nonneg stats.contributionScore hq) hsent
  have hprogress := progressExact_iff ⟨hstats.1, hdays.2⟩
    (level_min_isCount hp (p.levelPolicyForActiveDays_mem stats.activeDays))
    (nextLevelActiveDays_isCount hp (p.levelPolicyForActiveDays stats.activeDays).level)
  constructor
  · rintro ⟨hmessages, hattachments, hfriends, hpercent⟩
    exact ⟨(hlimit (by simp [levelRules]) (by simp [rankRules]) hm).mp hmessages,
      (hlimit (by simp [levelRules]) (by simp [rankRules]) ha).mp hattachments,
      (hlimit (by simp [levelRules]) (by simp [rankRules]) hf).mp hfriends,
      hprogress.mp hpercent⟩
  · rintro ⟨hmessages, hattachments, hfriends, hdays⟩
    exact ⟨(hlimit (by simp [levelRules]) (by simp [rankRules]) hm).mpr hmessages,
      (hlimit (by simp [levelRules]) (by simp [rankRules]) ha).mpr hattachments,
      (hlimit (by simp [levelRules]) (by simp [rankRules]) hf).mpr hfriends,
      hprogress.mpr hdays⟩

end Policy

/-- Under a policy that the validator returned, for a row and counters that the schema admits, a
snapshot shows the exact limits, remainders and percentage exactly if no product is too large for
an `i32`. -/
theorem quotas_exact_iff {unicode : Unicode} {config p : GuildPolicyConfig}
    (h : normalizeGuildPolicy unicode config = .ok p) (hp : p.LevelsI32) (stats : UserGuildStats)
    (hstats : stats.Valid) (hdays : IsI32 stats.activeDays)
    (messagesSent attachmentsSent friendAddsSent : Int) (hm : IsCount messagesSent)
    (ha : IsCount attachmentsSent) (hf : IsCount friendAddsSent) (prevLevel : Nat)
    (prevRank : String) :
    (Policy.ofNormalized h).QuotasExact stats messagesSent attachmentsSent friendAddsSent
        (buildSnapshot unicode (Policy.ofNormalized h) stats messagesSent attachmentsSent
          friendAddsSent prevLevel prevRank) ↔
      (Policy.ofNormalized h).ProductsFit stats :=
  Policy.quotasExact_iff (p := Policy.ofNormalized h) hp hstats hdays unicode hm ha hf prevLevel
    prevRank

/-- A hundred million messages a day, and a fifth more for everybody. -/
def generousPolicy : GuildPolicyConfig where
  enforcement := ⟨true, true, true, true, true⟩
  dailyCounterRetentionDays := 45
  scoreEventRetentionDays := 180
  levelPolicies := [⟨1, 0, none, some 100000000, none, none⟩]
  rankPolicies := [⟨"F", 0, none, some 120, none, none, false⟩]
  communityUpvoteDailyCap := 100
  safeAttachmentTypes := []

theorem generousPolicy_normalized :
    normalizeGuildPolicy .ascii generousPolicy = .ok generousPolicy :=
  normalizeGuildPolicy_eq_ok.mpr ⟨by decide, by decide, rfl, by decide, rfl, by decide, by decide,
    by decide⟩

theorem quotas_exact_iff_gapped :
    (Policy.ofNormalized gappedPolicy_normalized).QuotasExact (activeFor 3) 10 0 0
        (buildSnapshot .ascii (Policy.ofNormalized gappedPolicy_normalized) (activeFor 3) 10 0 0
          1 "F") ↔
      (Policy.ofNormalized gappedPolicy_normalized).ProductsFit (activeFor 3) :=
  quotas_exact_iff gappedPolicy_normalized (by decide) (activeFor 3) (by decide) (by decide)
    10 0 0 (by decide) (by decide) (by decide) 1 "F"

/-- The limit becomes negative, and nothing remains of it. -/
theorem generous_limit_wraps :
    normalizeGuildPolicy .ascii generousPolicy = .ok generousPolicy ∧
      (buildSnapshot .ascii (Policy.ofNormalized generousPolicy_normalized) (activeFor 3) 0 0 0
        1 "F").dailyOutboundMessagesLimit = some (-8849018) ∧
      (buildSnapshot .ascii (Policy.ofNormalized generousPolicy_normalized) (activeFor 3) 0 0 0
        1 "F").dailyOutboundMessagesRemaining = some 0 ∧
      ¬ (Policy.ofNormalized generousPolicy_normalized).QuotasExact (activeFor 3) 0 0 0
        (buildSnapshot .ascii (Policy.ofNormalized generousPolicy_normalized) (activeFor 3) 0 0 0
          1 "F") := by
  refine ⟨generousPolicy_normalized, by decide, by decide, fun h => ?_⟩
  exact absurd h.messages.limit_eq (by decide)

end SyncServer.Guild
