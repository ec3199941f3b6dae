import Mathlib.Data.List.Sort
import SyncServer.Base.Clock
import SyncServer.Base.Errors
import SyncServer.Base.Text

/-! # The guild policy

Levels are earned by active days, ranks by contribution score. A policy lists
both as consecutive ranges; the validator accepts a policy only if every range
is well formed, and everything after it works on accepted policies.
-/

namespace SyncServer.Guild

structure LevelPolicy where
  level : Nat
  minActiveDays : Int
  maxActiveDays : Option Int
  dailyOutboundMessagesLimit : Option Int
  dailyFriendAddLimit : Option Int
  dailyAttachmentSendLimit : Option Int
deriving DecidableEq, Repr

structure RankPolicy where
  rank : String
  minScore : Int
  maxScore : Option Int
  dailyOutboundMessagesLimitMultiplierPercent : Option Int
  dailyFriendAddLimitMultiplierPercent : Option Int
  dailyAttachmentSendLimitMultiplierPercent : Option Int
  overridesLevelLimits : Bool
deriving DecidableEq, Repr

structure GuildEnforcementConfig where
  enabled : Bool
  outboundMessagesEnabled : Bool
  friendAddsEnabled : Bool
  attachmentSendsEnabled : Bool
  rankEngineEnabled : Bool
deriving DecidableEq, Repr

structure GuildPolicyConfig where
  enforcement : GuildEnforcementConfig
  dailyCounterRetentionDays : Int
  scoreEventRetentionDays : Int
  levelPolicies : List LevelPolicy
  rankPolicies : List RankPolicy
  communityUpvoteDailyCap : Int
  safeAttachmentTypes : List String
deriving DecidableEq, Repr

/-! ## Validation -/

/-- What is different between the validation of levels and of ranks. -/
structure RangeRules (α κ : Type) where
  name : α → κ
  valid : κ → Bool
  lo : α → Int
  hi : α → Option Int
  amounts : α → List (Option Int)
  leastAmount : Int
  validMessage : String
  uniqueMessage : String
  loMessage : String
  hiMessage : String
  overlapMessage : String
  openMessage : String
  amountMessage : String

namespace RangeRules
variable {α κ : Type} [DecidableEq κ] (R : RangeRules α κ)

def checkEntry (seen : List κ) (entry : α) (rest : List α) : Except AppError Unit := do
  require (R.valid (R.name entry)) R.validMessage
  require (!decide (R.name entry ∈ seen)) R.uniqueMessage
  require (decide (0 ≤ R.lo entry)) R.loMessage
  match R.hi entry with
  | some hi => do
    require (decide (R.lo entry ≤ hi)) R.hiMessage
    match rest with
    | next :: _ => require (decide (hi < R.lo next)) R.overlapMessage
    | [] => pure ()
  | none => require rest.isEmpty R.openMessage
  require ((R.amounts entry).all (fun a => a.all (fun v => decide (R.leastAmount ≤ v))))
    R.amountMessage

def check (seen : List κ) : List α → Except AppError Unit
  | [] => .ok ()
  | entry :: rest => do
    R.checkEntry seen entry rest
    check (R.name entry :: seen) rest

/-- The entry whose range contains `x`, the last one if there is none. -/
def lookup (entries : List α) (h : entries ≠ []) (x : Int) : α :=
  (entries.find? (fun e => decide (R.lo e ≤ x) && (R.hi e).all (fun m => decide (x ≤ m)))).getD
    (entries.getLast h)

omit [DecidableEq κ] in
theorem lookup_mem (entries : List α) (h : entries ≠ []) (x : Int) :
    R.lookup entries h x ∈ entries := by
  unfold lookup
  rcases hf : entries.find? (fun e => decide (R.lo e ≤ x) &&
    (R.hi e).all (fun m => decide (x ≤ m))) with _ | e
  · exact List.getLast_mem h
  · exact List.mem_of_find?_eq_some hf

/-- An entry that passed its checks. -/
structure EntryAccepted (seen : List κ) (entry : α) (rest : List α) : Prop where
  valid : R.valid (R.name entry) = true
  fresh : R.name entry ∉ seen
  lo_nonneg : 0 ≤ R.lo entry
  lo_le_hi : ∀ hi, R.hi entry = some hi → R.lo entry ≤ hi
  hi_lt_next : ∀ next rest', rest = next :: rest' → ∃ hi, R.hi entry = some hi ∧ hi < R.lo next
  amounts : ∀ v, some v ∈ R.amounts entry → R.leastAmount ≤ v

/-- A list of entries that passed all checks. -/
def Accepted (seen : List κ) : List α → Prop
  | [] => True
  | entry :: rest => R.EntryAccepted seen entry rest ∧ Accepted (R.name entry :: seen) rest

theorem checkEntry_eq_ok {seen : List κ} {entry : α} {rest : List α}
    (h : R.checkEntry seen entry rest = .ok ()) : R.EntryAccepted seen entry rest := by
  simp only [checkEntry, require_bind_eq_ok] at h
  obtain ⟨hvalid, hfresh, hlo, h⟩ := h
  have hamount : (R.amounts entry).all (fun a => a.all (fun v => decide (R.leastAmount ≤ v))) =
      true → ∀ v, some v ∈ R.amounts entry → R.leastAmount ≤ v := by
    intro hall v hv
    simpa using List.all_eq_true.mp hall (some v) hv
  rcases hhi : R.hi entry with _ | hi
  · rw [hhi] at h
    simp only [require_bind_eq_ok] at h
    refine ⟨hvalid, by simpa using hfresh, by simpa using hlo, by simp [hhi], ?_,
      hamount (require_eq_ok.mp h.2)⟩
    rintro next rest' rfl
    simp at h
  · rw [hhi] at h
    simp only [require_bind_eq_ok, decide_eq_true_eq] at h
    refine ⟨hvalid, by simpa using hfresh, by simpa using hlo, by simpa [hhi] using h.1, ?_, ?_⟩
    · rintro next rest' rfl
      simp only [require_bind_eq_ok, decide_eq_true_eq] at h
      exact ⟨hi, hhi, h.2.1⟩
    · cases rest with
      | nil => exact hamount (require_eq_ok.mp h.2)
      | cons next rest =>
        simp only [require_bind_eq_ok] at h
        exact hamount (require_eq_ok.mp h.2.2)

theorem check_eq_ok {seen : List κ} {entries : List α} (h : R.check seen entries = .ok ()) :
    R.Accepted seen entries := by
  induction entries generalizing seen with
  | nil => trivial
  | cons entry rest ih =>
    rcases he : R.checkEntry seen entry rest with e | u
    · simp [check, he, bind, Except.bind] at h
    · simp only [check, he, bind, Except.bind] at h
      exact ⟨R.checkEntry_eq_ok he, ih h⟩

omit [DecidableEq κ] in
theorem Accepted.valid {seen : List κ} {entries : List α} (h : R.Accepted seen entries) :
    ∀ e ∈ entries, R.valid (R.name e) = true := by
  induction entries generalizing seen with
  | nil => simp
  | cons entry rest ih =>
    intro e he
    rcases List.mem_cons.mp he with rfl | he
    · exact h.1.valid
    · exact ih h.2 e he

end RangeRules

def levelRules : RangeRules LevelPolicy Nat where
  name := LevelPolicy.level
  valid level := !(level == 0 || decide (10 < level))
  lo := LevelPolicy.minActiveDays
  hi := LevelPolicy.maxActiveDays
  amounts e := [e.dailyOutboundMessagesLimit, e.dailyFriendAddLimit, e.dailyAttachmentSendLimit]
  leastAmount := 0
  validMessage := "level policy level must be between 1 and 10"
  uniqueMessage := "level policy levels must be unique"
  loMessage := "level policy min_active_days must be >= 0"
  hiMessage := "level policy max_active_days must be >= min_active_days"
  overlapMessage := "level policy day ranges must not overlap"
  openMessage := "only the final level policy may be open-ended"
  amountMessage := "level policy limits must be >= 0"

def rankRules : RangeRules RankPolicy String where
  name := RankPolicy.rank
  valid rank := decide (rank ∈ ["F", "E", "D", "C", "B", "A", "S"])
  lo := RankPolicy.minScore
  hi := RankPolicy.maxScore
  amounts e := [e.dailyOutboundMessagesLimitMultiplierPercent,
    e.dailyFriendAddLimitMultiplierPercent, e.dailyAttachmentSendLimitMultiplierPercent]
  leastAmount := 1
  validMessage := "rank policy rank must be one of F, E, D, C, B, A, S"
  uniqueMessage := "rank policy ranks must be unique"
  loMessage := "rank policy min_score must be >= 0"
  hiMessage := "rank policy max_score must be >= min_score"
  overlapMessage := "rank policy score ranges must not overlap"
  openMessage := "only the final rank policy may be open-ended"
  amountMessage := "rank policy multiplier percent must be > 0"

/-- `normalize_guild_policy`. -/
def normalizeGuildPolicy (unicode : Unicode) (policy : GuildPolicyConfig) :
    Except AppError GuildPolicyConfig := do
  require (!policy.levelPolicies.isEmpty) "guild policy must define at least one level policy"
  require (!policy.rankPolicies.isEmpty) "guild policy must define at least one rank policy"
  require (decide (0 ≤ policy.communityUpvoteDailyCap)) "community_upvote_daily_cap must be >= 0"
  require (decide (0 < policy.dailyCounterRetentionDays))
    "daily_counter_retention_days must be > 0"
  require (decide (0 < policy.scoreEventRetentionDays)) "score_event_retention_days must be > 0"
  let safe := sortedSet
    ((policy.safeAttachmentTypes.map (fun v => unicode.toLowercase (trim v))).filter (· ≠ ""))
  let levels := policy.levelPolicies.insertionSort (fun a b => a.minActiveDays ≤ b.minActiveDays)
  levelRules.check [] levels
  require (decide (levels.head?.map LevelPolicy.minActiveDays = some 0))
    "the first level policy must start at 0 active days"
  let ranks := policy.rankPolicies.insertionSort (fun a b => a.minScore ≤ b.minScore)
  rankRules.check [] ranks
  require (decide (ranks.head?.map RankPolicy.minScore = some 0))
    "the first rank policy must start at 0 score"
  pure { policy with safeAttachmentTypes := safe, levelPolicies := levels, rankPolicies := ranks }

/-- What the validator makes sure of. -/
structure GuildPolicyConfig.Accepted (p : GuildPolicyConfig) : Prop where
  levels : levelRules.Accepted [] p.levelPolicies
  levels_head : p.levelPolicies.head?.map LevelPolicy.minActiveDays = some 0
  ranks : rankRules.Accepted [] p.rankPolicies
  ranks_head : p.rankPolicies.head?.map RankPolicy.minScore = some 0
  cap_nonneg : 0 ≤ p.communityUpvoteDailyCap
  counter_retention_pos : 0 < p.dailyCounterRetentionDays
  event_retention_pos : 0 < p.scoreEventRetentionDays

def GuildPolicyConfig.arranged (unicode : Unicode) (p : GuildPolicyConfig) : GuildPolicyConfig :=
  { p with
    safeAttachmentTypes := sortedSet
      ((p.safeAttachmentTypes.map (fun v => unicode.toLowercase (trim v))).filter (· ≠ ""))
    levelPolicies := p.levelPolicies.insertionSort (fun a b => a.minActiveDays ≤ b.minActiveDays)
    rankPolicies := p.rankPolicies.insertionSort (fun a b => a.minScore ≤ b.minScore) }

/-- The checks of the validator, on a policy whose lists are in order. -/
structure GuildPolicyConfig.Passes (p : GuildPolicyConfig) : Prop where
  levels : levelRules.check [] p.levelPolicies = .ok ()
  levels_head : p.levelPolicies.head?.map LevelPolicy.minActiveDays = some 0
  ranks : rankRules.check [] p.rankPolicies = .ok ()
  ranks_head : p.rankPolicies.head?.map RankPolicy.minScore = some 0
  cap_nonneg : 0 ≤ p.communityUpvoteDailyCap
  counter_retention_pos : 0 < p.dailyCounterRetentionDays
  event_retention_pos : 0 < p.scoreEventRetentionDays

theorem ne_nil_of_head?_insertionSort {α : Type} {r : α → α → Prop} [DecidableRel r] {l : List α}
    {f : α → Int} (h : (l.insertionSort r).head?.map f = some 0) : l ≠ [] := by
  rintro rfl
  simp at h

theorem normalizeGuildPolicy_eq_ok {unicode : Unicode} {policy p : GuildPolicyConfig} :
    normalizeGuildPolicy unicode policy = .ok p ↔
      p = policy.arranged unicode ∧ (policy.arranged unicode).Passes := by
  simp only [normalizeGuildPolicy, unit_bind_eq_ok, require_eq_ok, Bool.not_eq_true',
    List.isEmpty_eq_false_iff, decide_eq_true_eq]
  constructor
  · rintro ⟨-, -, hcap, hcounter, hevent, hl, hlevel, hr, hrank, h⟩
    cases h
    exact ⟨rfl, hl, hlevel, hr, hrank, hcap, hcounter, hevent⟩
  · rintro ⟨rfl, h⟩
    exact ⟨ne_nil_of_head?_insertionSort h.levels_head, ne_nil_of_head?_insertionSort h.ranks_head,
      h.cap_nonneg, h.counter_retention_pos, h.event_retention_pos, h.levels, h.levels_head,
      h.ranks, h.ranks_head, rfl⟩

theorem normalizeGuildPolicy_accepted {unicode : Unicode} {policy p : GuildPolicyConfig}
    (h : normalizeGuildPolicy unicode policy = .ok p) : p.Accepted := by
  obtain ⟨hp, hpass⟩ := normalizeGuildPolicy_eq_ok.mp h
  rw [hp]
  exact ⟨levelRules.check_eq_ok hpass.levels, hpass.levels_head, rankRules.check_eq_ok hpass.ranks,
    hpass.ranks_head, hpass.cap_nonneg, hpass.counter_retention_pos, hpass.event_retention_pos⟩

/-- A policy that the validator accepted. -/
structure Policy extends GuildPolicyConfig where
  accepted : toGuildPolicyConfig.Accepted

namespace Policy
variable (p : Policy)

theorem levels_ne : p.levelPolicies ≠ [] := by
  intro h
  have := p.accepted.levels_head
  simp [h] at this

theorem ranks_ne : p.rankPolicies ≠ [] := by
  intro h
  have := p.accepted.ranks_head
  simp [h] at this

/-- `level_policy_for_active_days`. -/
def levelPolicyForActiveDays (activeDays : Int) : LevelPolicy :=
  levelRules.lookup p.levelPolicies p.levels_ne activeDays

/-- `rank_policy_for_score`. -/
def rankPolicyForScore (contributionScore : Int) : RankPolicy :=
  rankRules.lookup p.rankPolicies p.ranks_ne contributionScore

theorem level_range (d : Int) :
    1 ≤ (p.levelPolicyForActiveDays d).level ∧ (p.levelPolicyForActiveDays d).level ≤ 10 := by
  have h : levelRules.valid (p.levelPolicyForActiveDays d).level = true :=
    p.accepted.levels.valid _ _ (levelRules.lookup_mem p.levelPolicies p.levels_ne d)
  simp only [levelRules, Bool.not_or, Bool.and_eq_true, Bool.not_eq_true', beq_eq_false_iff_ne,
    decide_eq_false_iff_not] at h
  omega

theorem rank_valid (s : Int) :
    (p.rankPolicyForScore s).rank ∈ ["F", "E", "D", "C", "B", "A", "S"] := by
  have h := p.accepted.ranks.valid _ _ (rankRules.lookup_mem p.rankPolicies p.ranks_ne s)
  exact of_decide_eq_true h

/-- `next_level_active_days`. -/
def nextLevelActiveDays (level : Nat) : Option Int :=
  (p.levelPolicies.find? (fun e => decide (level < e.level))).map LevelPolicy.minActiveDays

/-- `rank_policy_for_limits`: a neutral rank when the rank engine is off. -/
def rankPolicyForLimits (contributionScore : Int) : RankPolicy :=
  if p.enforcement.rankEngineEnabled then p.rankPolicyForScore contributionScore
  else {
    rank := ""
    minScore := 0
    maxScore := none
    dailyOutboundMessagesLimitMultiplierPercent := none
    dailyFriendAddLimitMultiplierPercent := none
    dailyAttachmentSendLimitMultiplierPercent := none
    overridesLevelLimits := false }

def outboundMessageLimitEnforced : Bool :=
  p.enforcement.enabled && p.enforcement.outboundMessagesEnabled

def attachmentSendLimitEnforced : Bool :=
  p.enforcement.enabled && p.enforcement.attachmentSendsEnabled

def friendAddLimitEnforced : Bool :=
  p.enforcement.enabled && p.enforcement.friendAddsEnabled

/-- `attachment_type_allowed`. -/
def attachmentTypeAllowed (mimeType : String) : Bool :=
  p.safeAttachmentTypes.any (fun allowed => allowed == mimeType)

end Policy

/-! ## Limits -/

/-- `effective_daily_limit`. -/
def effectiveDailyLimit : Option Int → Option Int → Bool → Option Int
  | none, _, _ => none
  | some _, none, true => none
  | some limit, some percent, _ => some ((i32 (limit * percent)).tdiv 100)
  | some limit, none, false => some limit

def effectiveDailyOutboundMessagesLimit (l : LevelPolicy) (r : RankPolicy) : Option Int :=
  effectiveDailyLimit l.dailyOutboundMessagesLimit r.dailyOutboundMessagesLimitMultiplierPercent
    r.overridesLevelLimits

def effectiveDailyFriendAddLimit (l : LevelPolicy) (r : RankPolicy) : Option Int :=
  effectiveDailyLimit l.dailyFriendAddLimit r.dailyFriendAddLimitMultiplierPercent
    r.overridesLevelLimits

def effectiveDailyAttachmentSendLimit (l : LevelPolicy) (r : RankPolicy) : Option Int :=
  effectiveDailyLimit l.dailyAttachmentSendLimit r.dailyAttachmentSendLimitMultiplierPercent
    r.overridesLevelLimits

/-- `level_progress_percent`. -/
def levelProgressPercent (activeDays minActiveDays : Int) : Option Int → Nat
  | none => 100
  | some next =>
    let span := max (i32 (next - minActiveDays)) 1
    let progressed := clamp (i32 (activeDays - minActiveDays)) 0 span
    (((i32 (progressed * 100)).tdiv span) % 256).toNat

/-- `rank_order`. -/
def rankOrder (rank : String) : Option Nat :=
  match rank with
  | "F" => some 0
  | "E" => some 1
  | "D" => some 2
  | "C" => some 3
  | "B" => some 4
  | "A" => some 5
  | "S" => some 6
  | _ => none

/-- `rank_at_least`. -/
def rankAtLeast (rank threshold : String) : Bool :=
  decide ((rankOrder threshold).getD 0 ≤ (rankOrder rank).getD 0)

/-! ## The built-in policy -/

/-- `default_guild_policy`. -/
def defaultGuildPolicyConfig : GuildPolicyConfig where
  enforcement := ⟨true, true, true, true, true⟩
  dailyCounterRetentionDays := 45
  scoreEventRetentionDays := 180
  levelPolicies := [
    ⟨1, 0, some 6, some 50, some 5, some 5⟩,
    ⟨2, 7, some 13, some 100, some 10, some 5⟩,
    ⟨3, 14, some 29, some 200, some 20, some 10⟩,
    ⟨4, 30, some 59, some 500, some 30, none⟩,
    ⟨5, 60, some 89, some 1000, some 30, none⟩,
    ⟨6, 90, some 119, none, some 30, none⟩,
    ⟨7, 120, some 179, none, some 50, none⟩,
    ⟨8, 180, none, none, some 50, none⟩]
  rankPolicies := [
    ⟨"F", 0, some 99, none, none, none, false⟩,
    ⟨"E", 100, some 499, none, none, none, false⟩,
    ⟨"D", 500, some 999, some 120, some 120, some 120, false⟩,
    ⟨"C", 1000, some 2499, none, none, none, false⟩,
    ⟨"B", 2500, some 4999, some 150, some 150, some 150, false⟩,
    ⟨"A", 5000, some 9999, none, none, none, true⟩,
    ⟨"S", 10000, none, none, none, none, true⟩]
  communityUpvoteDailyCap := 100
  safeAttachmentTypes := ["application/pdf", "image/gif", "image/jpeg", "image/png",
    "image/webp", "text/plain", "video/mp4"]

theorem defaultGuildPolicyConfig_accepted : defaultGuildPolicyConfig.Accepted where
  levels := levelRules.check_eq_ok (by decide)
  levels_head := rfl
  ranks := rankRules.check_eq_ok (by decide)
  ranks_head := rfl
  cap_nonneg := by decide
  counter_retention_pos := by decide
  event_retention_pos := by decide

def defaultGuildPolicy : Policy := ⟨defaultGuildPolicyConfig, defaultGuildPolicyConfig_accepted⟩

/-- The stored form of a policy (`serde_json::to_string`, `from_str`), in which control characters
are escaped. -/
structure PolicyCodec where
  encode : GuildPolicyConfig → String
  decode : String → Option GuildPolicyConfig
  encode_isText : ∀ config, isText (encode config) = true

def policyOfSetting (unicode : Unicode) (codec : PolicyCodec) : Option String → Policy
  | none => defaultGuildPolicy
  | some raw =>
    match codec.decode raw with
    | none => defaultGuildPolicy
    | some config =>
      match h : normalizeGuildPolicy unicode config with
      | .ok p => ⟨p, normalizeGuildPolicy_accepted h⟩
      | .error _ => defaultGuildPolicy

end SyncServer.Guild
