import Mathlib.Data.Finset.Card
import SyncServer.Guild.Operations

/-! # Suspicious activity and the automatic freeze

A suspicious attempt adds one to the streak, and three of them freeze an
account. When no attempt repeats one of the same UTC day, the streak grows by at
most one for each day with an attempt.
-/

namespace SyncServer.Guild
open Transaction

/-- Human operations one after another. -/
def runHuman (env : Env) (ops : List HumanOp) (s : Db) : Db :=
  runOps env (ops.map GuildOp.human) s

@[simp] theorem runHuman_nil (env : Env) (s : Db) : runHuman env [] s = s := rfl

@[simp] theorem runHuman_cons (env : Env) (op : HumanOp) (ops : List HumanOp) (s : Db) :
    runHuman env (op :: ops) s = runHuman env ops ((GuildOp.human op).apply env s) := rfl

/-- The operations read a clock that starts at `t` and never goes back. -/
def ClockFrom : Int → List HumanOp → Prop
  | _, [] => True
  | t, op :: ops => t ≤ op.todayAt ∧ op.todayAt ≤ op.now ∧ ClockFrom op.now ops

instance decidableClockFrom : ∀ (t : Int) (ops : List HumanOp), Decidable (ClockFrom t ops)
  | _, [] => isTrue trivial
  | _, op :: ops => @instDecidableAnd _ _ _
      (@instDecidableAnd _ _ _ (decidableClockFrom op.now ops))

def streakOf (s : Db) (u : Uuid) : Int :=
  ((statsOf s u).map UserGuildStats.suspiciousActivityStreak).getD 0

def stateOf (s : Db) (u : Uuid) : ReviewState :=
  ((statsOf s u).map UserGuildStats.automationReviewState).getD .clear

/-- A committed operation that counts as a suspicious attempt. -/
def isAttempt (env : Env) (op : HumanOp) (s : Db) : Bool :=
  decide (op.Commits env s) && (statsOf s op.user).any (fun r =>
    decide (r.automationReviewState ≠ .frozen) && suspiciousNewDayAttempt r op.today op.now)

/-- The UTC days of the suspicious attempts of a run. -/
def attemptDays (env : Env) : List HumanOp → Db → Finset Int
  | [], _ => ∅
  | op :: ops, s => (if isAttempt env op s then {op.today} else ∅) ∪
      attemptDays env ops ((GuildOp.human op).apply env s)

def repeatedAttempt (op : HumanOp) (s : Db) : Bool :=
  (statsOf s op.user).any (fun r =>
    decide (r.automationReviewState ≠ .frozen) && suspiciousNewDayAttempt r op.today op.now &&
    decide (0 < r.suspiciousActivityStreak) &&
    r.lastHumanActivityAt.any (fun last => decide (dateNaive last = op.today)))

/-- No attempt of the run repeats one of the same day. -/
def noRepeatedAttempt (env : Env) : List HumanOp → Db → Bool
  | [], _ => true
  | op :: ops, s => !repeatedAttempt op s &&
      noRepeatedAttempt env ops ((GuildOp.human op).apply env s)

/-- A second attempt on day `d` is not possible, or repeats the first. -/
def Settled (d t : Int) (r : UserGuildStats) : Prop :=
  r.lastActiveDay = some d ∨ r.automationReviewState = .frozen ∨
    (0 < r.suspiciousActivityStreak ∧ ∃ last, r.lastHumanActivityAt = some last ∧
      d ≤ dateNaive last ∧ last ≤ t)

theorem Settled.mono {d t t' : Int} {r : UserGuildStats} (h : Settled d t r) (ht : t ≤ t') :
    Settled d t' r := by
  rcases h with h | h | ⟨h, last, hlast, hd, hle⟩
  · exact .inl h
  · exact .inr (.inl h)
  · exact .inr (.inr ⟨h, last, hlast, hd, by omega⟩)

/-- The attempts so far were on the days `seen`, and account for the growth since `base`. -/
structure Accounted (u : Uuid) (base t : Int) (seen : Finset Int) (s : Db) : Prop where
  streak : streakOf s u ≤ base + seen.card
  days : ∀ d ∈ seen, d ≤ dateNaive t
  settled : ∀ d ∈ seen, d = dateNaive t → ∃ r, statsOf s u = some r ∧ Settled d t r

variable {env : Env} {u : Uuid} {s : Db}

theorem streakOf_some {r : UserGuildStats} (h : statsOf s u = some r) :
    streakOf s u = r.suspiciousActivityStreak := by
  simp [streakOf, h]

theorem stateOf_some {r : UserGuildStats} (h : statsOf s u = some r) :
    stateOf s u = r.automationReviewState := by
  simp [stateOf, h]

theorem streakOf_current (p : Policy) :
    (currentStats p u (statsOf s u)).suspiciousActivityStreak = streakOf s u := by
  unfold streakOf
  cases statsOf s u <;> rfl

theorem isAttempt_eq {op : HumanOp} {p : Policy} (hc : op.Commits env s) :
    isAttempt env op s = true ↔
      (currentStats p op.user (statsOf s op.user)).automationReviewState ≠ .frozen ∧
      suspiciousNewDayAttempt (currentStats p op.user (statsOf s op.user)) op.today op.now = true := by
  unfold isAttempt
  rcases h : statsOf s op.user with _ | r
  · simp [currentStats, synced, freshStats, suspiciousNewDayAttempt]
  · simp only [hc, decide_true, Bool.true_and, Option.any_some, Bool.and_eq_true, decide_eq_true_eq]
    rfl

theorem activity_attempt {p : Policy} {r : UserGuildStats} {today now : Int}
    (hcons : ReviewConsistent r) (hf : r.automationReviewState ≠ .frozen)
    (ha : suspiciousNewDayAttempt r today now = true) :
    (activity p r today now).suspiciousActivityStreak = r.suspiciousActivityStreak + 1 := by
  obtain ⟨-, hc⟩ := activity_cases p r today now
  rcases hc with ⟨hf', -⟩ | ⟨hf', -⟩ | ⟨-, -, hs, -⟩ | ⟨-, hna, -⟩ | ⟨-, hna, -⟩
  · exact absurd hf' hf
  · exact absurd hf' hf
  · rw [hs, saturatingAdd_one hcons.range.1 (hcons.lt_of_not_frozen hf)]
  · simp [ha] at hna
  · simp [ha] at hna

theorem activity_no_attempt {p : Policy} {r : UserGuildStats} {today now : Int}
    (hcons : ReviewConsistent r)
    (h : ¬ (r.automationReviewState ≠ .frozen ∧ suspiciousNewDayAttempt r today now = true)) :
    (activity p r today now).suspiciousActivityStreak ≤ r.suspiciousActivityStreak ∧
      ((activity p r today now).lastActiveDay = some today ∨
        (activity p r today now).automationReviewState = .frozen) := by
  have h₀ := hcons.range.1
  obtain ⟨-, hc⟩ := activity_cases p r today now
  rcases hc with ⟨-, -, hs, -, hl, -⟩ | ⟨-, -, hs, hst, -⟩ | ⟨hf, ha, -⟩ |
    ⟨hf, -, -, hs, -, hl, -⟩ | ⟨-, -, -, hs, -, hl, -⟩
  · exact ⟨by omega, .inl hl⟩
  · exact ⟨by omega, .inr hst⟩
  · exact absurd ⟨hf, ha⟩ h
  · have hlt := hcons.lt_of_not_frozen hf
    rw [saturatingSub_one h₀ hlt] at hs
    exact ⟨by omega, .inl hl⟩
  · exact ⟨by omega, .inl hl⟩

theorem Accounted.fresh {base t : Int} {seen : Finset Int} {op : HumanOp}
    (h : Accounted op.user base t seen s) (h₁ : t ≤ op.todayAt) (hrep : repeatedAttempt op s = false)
    (ha : isAttempt env op s = true) : op.today ∉ seen := by
  intro hmem
  have hday : dateNaive t ≤ op.today := dateNaive_mono h₁
  have hd : op.today = dateNaive t := le_antisymm (h.days _ hmem) hday
  obtain ⟨r, hr, hset⟩ := h.settled _ hmem hd
  simp only [isAttempt, hr, Option.any_some, Bool.and_eq_true, decide_eq_true_eq] at ha
  obtain ⟨-, hf, hsus⟩ := ha
  rcases hset with hl | hfr | ⟨hpos, last, hlast, hle, hlt⟩
  · simp [suspiciousNewDayAttempt, hl] at hsus
  · exact hf hfr
  · have hback : dateNaive last ≤ op.today := (dateNaive_mono hlt).trans hday
    simp [repeatedAttempt, hr, hf, hsus, hpos, hlast, le_antisymm hback hle] at hrep

/-- One operation keeps the account of the attempts. -/
theorem Accounted.step {base t : Int} {seen : Finset Int} {op : HumanOp}
    (h : Accounted op.user base t seen s) (hcons : ∀ r ∈ statsOf s op.user, ReviewConsistent r)
    (h₁ : t ≤ op.todayAt) (h₂ : op.todayAt ≤ op.now) (hrep : repeatedAttempt op s = false) :
    Accounted op.user base op.now (seen ∪ if isAttempt env op s then {op.today} else ∅)
      ((GuildOp.human op).apply env s) := by
  have hday : dateNaive t ≤ op.today := dateNaive_mono h₁
  have hday' : op.today ≤ dateNaive op.now := dateNaive_mono h₂
  have hle : t ≤ op.now := le_trans h₁ h₂
  rcases op.apply_cases env s with ⟨hno, hs⟩ | ⟨hc, -, hrow⟩
  · -- the operation is rolled back
    have hfalse : isAttempt env op s = false := by simp [isAttempt, hno]
    rw [hs, hfalse]
    simp only [Bool.false_eq_true, if_false, Finset.union_empty]
    refine ⟨h.streak, fun d hd => (h.days d hd).trans (dateNaive_mono hle), fun d hd hdt => ?_⟩
    have hdd : d = dateNaive t := by
      have := h.days d hd
      omega
    obtain ⟨r, hr, hset⟩ := h.settled d hd hdd
    exact ⟨r, hr, hset.mono hle⟩
  generalize policyOf env s = p at hrow
  have hstreak := streakOf_current p (u := op.user) (s := s)
  have hcons' := currentStats_consistent (p := p) (u := op.user) hcons
  have hlast := (activity_cases p (currentStats p op.user (statsOf s op.user)) op.today op.now).1
  by_cases ha : isAttempt env op s = true
  · have hfresh := h.fresh h₁ hrep ha
    obtain ⟨hf, hsus⟩ := (isAttempt_eq (p := p) hc).mp ha
    have hadd := activity_attempt (p := p) hcons' hf hsus
    have h₀ := hcons'.range.1
    simp only [ha, if_true]
    refine ⟨?_, fun d hd => ?_, fun d _ hdt => ⟨_, hrow.self, .inr (.inr ⟨by omega, op.now, hlast,
      le_of_eq hdt, le_rfl⟩)⟩⟩
    · rw [streakOf_some hrow.self, hadd, hstreak, Finset.union_comm, ← Finset.insert_eq,
        Finset.card_insert_of_notMem hfresh]
      have := h.streak
      push_cast
      omega
    · rcases Finset.mem_union.mp hd with hd | hd
      · exact (h.days d hd).trans (hday.trans hday')
      · rw [Finset.mem_singleton.mp hd]
        exact hday'
  · have hno := mt (isAttempt_eq (p := p) hc).mpr ha
    obtain ⟨hs, hset⟩ := activity_no_attempt (p := p) hcons' hno
    simp only [ha, Bool.false_eq_true, if_false, Finset.union_empty]
    refine ⟨?_, fun d hd => (h.days d hd).trans (hday.trans hday'), fun d hd hdt =>
      ⟨_, hrow.self, ?_⟩⟩
    · rw [streakOf_some hrow.self]
      have := h.streak
      omega
    · have hdd : d = op.today := by
        have := h.days d hd
        omega
      rcases hset with hl | hfr
      · exact .inl (hdd ▸ hl)
      · exact .inr (.inl hfr)

theorem Accounted.run {base t : Int} {seen : Finset Int} {ops : List HumanOp}
    (h : Accounted u base t seen s) (hs : Reachable env s) (huser : ∀ op ∈ ops, op.user = u)
    (hclock : ClockFrom t ops) (hrep : noRepeatedAttempt env ops s = true) :
    streakOf (runHuman env ops s) u ≤ base + (seen ∪ attemptDays env ops s).card := by
  induction ops generalizing s t seen with
  | nil => simpa [attemptDays] using h.streak
  | cons op ops ih =>
    obtain rfl : op.user = u := huser op List.mem_cons_self
    simp only [noRepeatedAttempt, Bool.and_eq_true, Bool.not_eq_true'] at hrep
    have hstep : Accounted op.user base op.now
        (seen ∪ if isAttempt env op s then {op.today} else ∅) ((GuildOp.human op).apply env s) :=
      h.step (hs.consistent _) hclock.1 hclock.2.1 hrep.1
    rw [runHuman_cons, attemptDays, ← Finset.union_assoc]
    exact ih hstep (hs.op _) (fun o ho => huser o (List.mem_cons_of_mem _ ho)) hclock.2.2 hrep.2

theorem streak_le_attemptDays {t : Int} {ops : List HumanOp} (hs : Reachable env s)
    (huser : ∀ op ∈ ops, op.user = u) (hclock : ClockFrom t ops)
    (hrep : noRepeatedAttempt env ops s = true) :
    streakOf (runHuman env ops s) u ≤ streakOf s u + (attemptDays env ops s).card := by
  have h : Accounted u (streakOf s u) t ∅ s := ⟨by simp, by simp, by simp⟩
  simpa using h.run hs huser hclock hrep

theorem attemptDays_subset {d : Int} {ops : List HumanOp} (h : ∀ op ∈ ops, op.today = d) :
    attemptDays env ops s ⊆ {d} := by
  induction ops generalizing s with
  | nil => simp [attemptDays]
  | cons op ops ih =>
    have hop := h op List.mem_cons_self
    have hops := ih (s := (GuildOp.human op).apply env s)
      (fun o ho => h o (List.mem_cons_of_mem _ ho))
    rw [attemptDays]
    split
    · exact Finset.union_subset (by simp [hop]) hops
    · simpa using hops

theorem runHuman_reachable (hs : Reachable env s) (ops : List HumanOp) :
    Reachable env (runHuman env ops s) := hs.runOps _

theorem streak_of_clear (hs : Reachable env s) (h : stateOf s u = .clear) : streakOf s u = 0 := by
  rcases hr : statsOf s u with _ | r
  · simp [streakOf, hr]
  · rw [stateOf_some hr] at h
    rw [streakOf_some hr]
    rcases hs.consistent u r hr with ⟨-, h₀⟩ | ⟨hc, -⟩ | ⟨hc, -⟩
    · exact h₀
    · rw [h] at hc
      cases hc
    · rw [h] at hc
      cases hc

def FrozenByStreak (s : Db) (u : Uuid) : Prop :=
  stateOf s u = .frozen → suspiciousActivityFreezeThreshold ≤ streakOf s u

theorem FrozenByStreak.step {op : HumanOp} (h : FrozenByStreak s op.user) :
    FrozenByStreak ((GuildOp.human op).apply env s) op.user := by
  rcases op.apply_cases env s with ⟨-, hs⟩ | ⟨-, -, hrow⟩
  · rwa [hs]
  have hold : (currentStats (policyOf env s) op.user (statsOf s op.user)).automationReviewState =
      stateOf s op.user := by
    unfold stateOf
    cases statsOf s op.user <;> rfl
  have hstreak := streakOf_current (policyOf env s) (u := op.user) (s := s)
  unfold FrozenByStreak
  rw [stateOf_some hrow.self, streakOf_some hrow.self]
  intro hf
  obtain ⟨-, hc⟩ := activity_cases (policyOf env s)
    (currentStats (policyOf env s) op.user (statsOf s op.user)) op.today op.now
  have hforced : ∀ {k : Int}, ReviewState.frozen = stateForStreak k →
      suspiciousActivityFreezeThreshold ≤ k := by
    intro k hk
    unfold stateForStreak at hk
    split at hk
    · assumption
    · split at hk <;> cases hk
  rcases hc with ⟨-, -, -, hst, -⟩ | ⟨hf', -, hs, -, -⟩ | ⟨-, -, -, hst, -⟩ |
    ⟨-, -, -, -, hst, -⟩ | ⟨-, -, -, -, hst, -⟩
  · rw [hf] at hst
    cases hst
  · rw [hs, hstreak]
    exact h (hold ▸ hf')
  · exact hforced (hf ▸ hst)
  · exact hforced (hf ▸ hst)
  · exact hforced (hf ▸ hst)

theorem FrozenByStreak.run {ops : List HumanOp} (h : FrozenByStreak s u)
    (huser : ∀ op ∈ ops, op.user = u) : FrozenByStreak (runHuman env ops s) u := by
  induction ops generalizing s with
  | nil => exact h
  | cons op ops ih =>
    obtain rfl : op.user = u := huser op List.mem_cons_self
    exact ih h.step (fun o ho => huser o (List.mem_cons_of_mem _ ho))

/-- In a run without repeated attempts the activity of one day adds at most one to the
streak and does not freeze a clear account, and a freeze takes attempts on three days. -/
theorem automation_freeze_takes_three_days (env : Env) (u : Uuid) (s : Db)
    (hs : Reachable env s) (t : Int) (ops : List HumanOp) (huser : ∀ op ∈ ops, op.user = u)
    (hclock : ClockFrom t ops) (hrep : noRepeatedAttempt env ops s = true) :
    (∀ d, (∀ op ∈ ops, op.today = d) →
      streakOf (runHuman env ops s) u ≤ streakOf s u + 1 ∧
        (stateOf s u = .clear → stateOf (runHuman env ops s) u ≠ .frozen)) ∧
      (stateOf s u = .clear → stateOf (runHuman env ops s) u = .frozen →
        3 ≤ (attemptDays env ops s).card) := by
  have hle := streak_le_attemptDays hs huser hclock hrep
  have hfull : stateOf s u = .clear → stateOf (runHuman env ops s) u = .frozen →
      3 ≤ (attemptDays env ops s).card := by
    intro hclear hfrozen
    have h₀ := streak_of_clear hs hclear
    have h₃ : suspiciousActivityFreezeThreshold ≤ streakOf (runHuman env ops s) u :=
      FrozenByStreak.run (fun hf => by rw [hclear] at hf; cases hf) huser hfrozen
    unfold suspiciousActivityFreezeThreshold at h₃
    omega
  refine ⟨fun d hd => ?_, hfull⟩
  have hsub : attemptDays env ops s ⊆ {d} := attemptDays_subset hd
  have hcard : (attemptDays env ops s).card ≤ 1 := by simpa using Finset.card_le_card hsub
  refine ⟨by omega, fun hclear hfrozen => ?_⟩
  have := hfull hclear hfrozen
  omega

/-! ## A freeze within minutes -/

def asciiEnv : Env := ⟨.ascii, ⟨fun _ => "", fun _ => none, fun _ => isText_empty⟩⟩

def accountOf (id : Uuid) (username email : String) : User where
  id := id
  username := username
  email := email
  passwordHash := ""
  avatarBase64 := none
  description := none
  messagePublicKey := none
  role := "user"
  isActive := true
  deviceAuthPubkey := none
  isApproved := true
  dmRestrictedUntil := none
  safetyWarningCount := 0
  yellowCardExpiresAt := none

/-- A database with one account. -/
def oneAccount : Db :=
  { Db.empty with users := ⟨[accountOf 1 "alice" "alice@example.org"], by decide⟩ }

/-- Activity of the account at a given second. -/
def activityAt (second : Int) (audit : Uuid) : HumanOp :=
  .recordHumanActivity 1 (Duration.seconds second) (Duration.seconds second) audit

/-- Active around midnight: one attempt in the new day, and then a normal visit. -/
theorem automation_freeze_takes_three_days_midnight :
    streakOf (runHuman asciiEnv [activityAt 86460 2, activityAt 90000 3]
        (runHuman asciiEnv [activityAt 86340 1] oneAccount)) 1 ≤
      streakOf (runHuman asciiEnv [activityAt 86340 1] oneAccount) 1 + 1 :=
  ((automation_freeze_takes_three_days asciiEnv 1
    (runHuman asciiEnv [activityAt 86340 1] oneAccount)
    (runHuman_reachable (.start (fun _ => rfl)) _) (Duration.seconds 86340)
    [activityAt 86460 2, activityAt 90000 3] (by decide) (by decide) (by decide)).1 1
    (by decide)).1

/-- Active in the last minute of a day, and three times in the first minutes of the next. -/
theorem automation_freeze_same_day :
    ∃ (env : Env) (s : Db) (u : Uuid) (t d : Int) (ops : List HumanOp),
      Reachable env s ∧ (∀ op ∈ ops, op.user = u) ∧ ClockFrom t ops ∧
      (∀ op ∈ ops, op.today = d) ∧ stateOf s u = .clear ∧ streakOf s u = 0 ∧
      streakOf (runHuman env ops s) u = 3 ∧ stateOf (runHuman env ops s) u = .frozen := by
  exact ⟨asciiEnv, runHuman asciiEnv [activityAt 86340 1] oneAccount, 1, Duration.seconds 86460, 1,
    [activityAt 86460 2, activityAt 86520 3, activityAt 86580 4],
    runHuman_reachable (.start (fun _ => rfl)) _, by decide, by decide, by decide, by decide,
    by decide, by decide, by decide⟩

end SyncServer.Guild
