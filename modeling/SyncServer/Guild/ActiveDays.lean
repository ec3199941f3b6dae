import SyncServer.Guild.Suspicion

/-! # Active days

The columns of a row agree with each other and with the clock, whatever operations are made.
It follows that an active day is counted at most once for each UTC day on which the user
was active, and by nothing but human activity.
-/

namespace SyncServer.Guild
open Transaction

/-- The clock readings of an operation, in their order. -/
def GuildOp.readings : GuildOp → List Int
  | human op => [op.todayAt, op.now]
  | getGuildSnapshot _ t => [t]
  | recordContributionEvent _ now _ _ => [now]
  | pruneGuildHistory now => [now]
  | _ => []

/-- The clock never goes back during a run. -/
def Clocked (ops : List GuildOp) : Prop := (ops.flatMap GuildOp.readings).Pairwise (· ≤ ·)

instance (ops : List GuildOp) : Decidable (Clocked ops) :=
  inferInstanceAs (Decidable (List.Pairwise _ _))

/-! ## The columns of a row -/

/-- The columns of a row agree. -/
structure Represented (r : UserGuildStats) : Prop where
  review : ReviewConsistent r
  started : r.activeDays = 0 ↔ r.lastActiveDay = none
  dated : ∀ d, r.lastActiveDay = some d → ∃ t, r.lastHumanActivityAt = some t ∧ d ≤ dateNaive t
  score : 0 ≤ r.contributionScore
  days : 0 ≤ r.activeDays ∧ r.activeDays ≤ i32Max

/-- A row whose columns agree, with no activity after the readings that are still to come. -/
structure Kept (ops : List GuildOp) (r : UserGuildStats) : Prop extends Represented r where
  seen : ∀ t, r.lastHumanActivityAt = some t → ∀ x ∈ ops.flatMap GuildOp.readings, t ≤ x

variable {env : Env} {p : Policy} {u : Uuid} {s : Db} {r : UserGuildStats} {op : GuildOp}
  {ops : List GuildOp}

theorem freshStats_represented (p : Policy) (u : Uuid) : Represented (freshStats p u) := by
  refine ⟨.inl ⟨rfl, rfl⟩, ?_, ?_, le_rfl, le_rfl, ?_⟩ <;> simp [freshStats, i32Max]

theorem freshStats_kept (ops : List GuildOp) (p : Policy) (u : Uuid) :
    Kept ops (freshStats p u) :=
  ⟨freshStats_represented p u, by simp [freshStats]⟩

theorem Kept.getD {o : Option UserGuildStats} (h : ∀ r ∈ o, Kept ops r) :
    Kept ops (o.getD (freshStats p u)) := by
  cases o with
  | none => exact freshStats_kept ops p u
  | some r => exact h r rfl

theorem Kept.current {o : Option UserGuildStats} (h : ∀ r ∈ o, Kept ops r) :
    Kept ops (currentStats p u o) := by
  have hold := Kept.getD (p := p) (u := u) h
  exact ⟨⟨hold.review, hold.started, hold.dated, hold.score, hold.days⟩, hold.seen⟩

theorem Kept.tail (h : Kept (op :: ops) r) : Kept ops r :=
  ⟨h.toRepresented, fun t ht x hx => h.seen t ht x (by simp [hx])⟩

theorem i32_succ {a : Int} (h : 0 ≤ a ∧ a ≤ i32Max) (hv : 0 ≤ i32 (a + 1)) :
    i32 (a + 1) = a + 1 ∧ a + 1 ≤ i32Max := by
  by_cases hlt : a < i32Max
  · exact ⟨i32_of_range (by unfold i32Min; omega) (by omega), by omega⟩
  · have hmax : a = i32Max := by omega
    rw [hmax] at hv
    exact absurd hv (by decide)

theorem activity_days (p : Policy) (r : UserGuildStats) (today now : Int) :
    ((activity p r today now).lastActiveDay = r.lastActiveDay ∧
        (activity p r today now).activeDays = r.activeDays) ∨
      (r.lastActiveDay ≠ some today ∧ (activity p r today now).lastActiveDay = some today ∧
        (activity p r today now).activeDays = i32 (r.activeDays + 1)) := by
  obtain ⟨-, hc⟩ := activity_cases p r today now
  rcases hc with ⟨-, hrec, -, -, hl, ha⟩ | ⟨-, -, -, -, hl, ha⟩ | ⟨-, -, -, -, hl, ha⟩ |
    ⟨-, -, hne, -, -, hl, ha⟩ | ⟨-, -, hday, -, -, hl, ha⟩
  · simp only [canRecoverFromFrozen, Bool.and_eq_true, decide_eq_true_eq] at hrec
    exact .inr ⟨hrec.2, hl, ha⟩
  · exact .inl ⟨hl, ha⟩
  · exact .inl ⟨hl, ha⟩
  · exact .inr ⟨hne, hl, ha⟩
  · exact .inl ⟨hl.trans hday.symm, ha⟩

theorem activity_represented {today first now : Int} (hr : Represented r)
    (hseen : ∀ t, r.lastHumanActivityAt = some t → t ≤ now) (hday : today = dateNaive first)
    (hclock : first ≤ now) (hv : (activity p r today now).Valid) :
    Represented (activity p r today now) := by
  have hlast := (activity_cases p r today now).1
  have hscore := activity_score p r today now
  rcases activity_days p r today now with ⟨hl, ha⟩ | ⟨-, hl, ha⟩
  · refine ⟨activity_consistent hr.review today now, ?_, fun d hd => ⟨now, hlast, ?_⟩, ?_, ?_⟩
    · rw [hl, ha, hr.started]
    · obtain ⟨t, ht, hle⟩ := hr.dated d (hl ▸ hd)
      exact hle.trans (dateNaive_mono (hseen t ht))
    · rw [hscore]
      exact hr.score
    · rw [ha]
      exact hr.days
  · obtain ⟨hsucc, hle⟩ := i32_succ hr.days (ha ▸ hv.1)
    have h₀ := hr.days.1
    refine ⟨activity_consistent hr.review today now, ?_, fun d hd => ⟨now, hlast, ?_⟩, ?_, ?_⟩
    · simp only [hl, ha, hsucc, reduceCtorEq, iff_false]
      omega
    · rw [hl, Option.some.injEq] at hd
      rw [← hd, hday]
      exact dateNaive_mono hclock
    · rw [hscore]
      exact hr.score
    · omega

/-- Every operation keeps the columns in agreement. -/
theorem OpStep.kept {o o' : Option UserGuildStats} (hstep : OpStep env s p u op o o')
    (hclock : Clocked (op :: ops)) (h : ∀ r ∈ o, Kept (op :: ops) r) : ∀ r ∈ o', Kept ops r := by
  have htail : ∀ r ∈ o, Kept ops r := fun r hr => (h r hr).tail
  cases hstep with
  | same => exact htail
  | ensured =>
    rintro r ⟨⟩
    exact Kept.getD htail
  | shown =>
    rintro r ⟨⟩
    exact Kept.current htail
  | active op _ user hc hv =>
    rintro r ⟨⟩
    have hcur : Kept (.human op :: ops) (currentStats p u o) := Kept.current h
    simp only [Clocked, List.flatMap_cons, GuildOp.readings, List.cons_append, List.nil_append,
      List.pairwise_cons, List.mem_cons, forall_eq_or_imp] at hclock
    refine ⟨activity_represented hcur.toRepresented (fun t ht => hcur.seen t ht _ ?_) rfl
      hclock.1.1 hv, fun t ht => ?_⟩
    · simp [GuildOp.readings]
    · rw [(activity_cases p (currentStats p u o) op.today op.now).1, Option.some.injEq] at ht
      rw [← ht]
      exact hclock.2.1
  | looked =>
    rintro r ⟨⟩
    exact Kept.current htail
  | scored q now startedAt id _ score hscore =>
    rintro r ⟨⟩
    have hcur : Kept ops (currentStats p u o) := Kept.current htail
    exact ⟨⟨hcur.review, hcur.started, hcur.dated, hscore, hcur.days⟩, hcur.seen⟩
  | frozen admin reason audit r =>
    rintro r' ⟨⟩
    have hold := htail r rfl
    exact ⟨⟨.inr (.inr ⟨rfl, hold.review.range⟩), hold.started, hold.dated, hold.score, hold.days⟩,
      hold.seen⟩
  | cleared admin reason audit r =>
    rintro r' ⟨⟩
    have hold := htail r rfl
    exact ⟨⟨.inl ⟨rfl, rfl⟩, hold.started, hold.dated, hold.score, hold.days⟩, hold.seen⟩

theorem Clocked.tail (h : Clocked (op :: ops)) : Clocked ops := by
  rw [Clocked, List.flatMap_cons] at h
  exact (List.pairwise_append.mp h).2.1

theorem Clocked.left {next : List GuildOp} (h : Clocked (ops ++ next)) : Clocked ops := by
  rw [Clocked, List.flatMap_append] at h
  exact (List.pairwise_append.mp h).1

theorem Clocked.right {next : List GuildOp} (h : Clocked (ops ++ next)) : Clocked next := by
  rw [Clocked, List.flatMap_append] at h
  exact (List.pairwise_append.mp h).2.1

theorem runOps_kept {next : List GuildOp} (hclock : Clocked (ops ++ next))
    (h : ∀ r ∈ statsOf s u, Kept (ops ++ next) r) :
    ∀ r ∈ statsOf (runOps env ops s) u, Kept next r := by
  induction ops generalizing s with
  | nil => exact h
  | cons op ops ih => exact ih hclock.tail ((op.opStep env s u).kept hclock h)

/-- In every run from a database without rows, under a clock that never goes back, the columns
of every row agree. -/
theorem rows_represented (env : Env) (s₀ : Db) (h₀ : ∀ u, statsOf s₀ u = none)
    (ops : List GuildOp) (hclock : Clocked ops) (u : Uuid) (r : UserGuildStats)
    (hr : statsOf (runOps env ops s₀) u = some r) : Represented r := by
  have hkept : ∀ r ∈ statsOf s₀ u, Kept (ops ++ []) r := by simp [h₀ u]
  exact (runOps_kept (by rwa [List.append_nil]) hkept r hr).toRepresented

/-- A visit on each of two days. -/
def twoVisits : List GuildOp := [.human (activityAt 0 1), .human (activityAt 90000 2)]

theorem rows_represented_two_visits :
    Represented ((statsOf (runOps asciiEnv twoVisits oneAccount) 1).get (by decide)) :=
  rows_represented asciiEnv oneAccount (fun _ => rfl) twoVisits (by decide) 1 _
    (Option.some_get _).symm

/-! ## The days that count -/

/-- The UTC day of an operation, if it is a committed human operation of the user. -/
def activityDay (env : Env) (u : Uuid) : GuildOp → Db → Finset Int
  | .human op, s => if op.user = u ∧ op.Commits env s then {op.today} else ∅
  | _, _ => ∅

/-- The UTC days on which the user was active during a run. -/
def activityDays (env : Env) (u : Uuid) : List GuildOp → Db → Finset Int
  | [], _ => ∅
  | op :: ops, s => activityDay env u op s ∪ activityDays env u ops (op.apply env s)

def activeDaysOf (s : Db) (u : Uuid) : Int :=
  ((statsOf s u).map UserGuildStats.activeDays).getD 0

/-- The columns of a user that record days of activity. -/
def dayRecord (s : Db) (u : Uuid) : Int × Option Int × Option Int :=
  ((statsOf s u).map (fun r => (r.activeDays, r.lastActiveDay, r.lastHumanActivityAt))).getD
    (0, none, none)

/-- Since the count was `base`, it has grown by days of `seen`, none after the last active day. -/
def DaysCounted (base : Int) (seen : Finset Int) (o : Option UserGuildStats) : Prop :=
  base ≤ (o.map UserGuildStats.activeDays).getD 0 ∧
    (o.map UserGuildStats.activeDays).getD 0 ≤
      base + (seen.filter (fun d => ∃ l ∈ o.bind UserGuildStats.lastActiveDay, d ≤ l)).card

theorem DaysCounted.congr {base : Int} {seen : Finset Int} {o o' : Option UserGuildStats}
    (h : DaysCounted base seen o)
    (hdays : (o'.map UserGuildStats.activeDays).getD 0 = (o.map UserGuildStats.activeDays).getD 0)
    (hlast : o'.bind UserGuildStats.lastActiveDay = o.bind UserGuildStats.lastActiveDay) :
    DaysCounted base seen o' := by
  rwa [DaysCounted, hdays, hlast]

theorem DaysCounted.mono {base : Int} {seen seen' : Finset Int} {o : Option UserGuildStats}
    (h : DaysCounted base seen o) (hsub : seen ⊆ seen') : DaysCounted base seen' o := by
  have hcard := Finset.card_le_card (Finset.filter_subset_filter
    (fun d => ∃ l ∈ o.bind UserGuildStats.lastActiveDay, d ≤ l) hsub)
  have := h.2
  exact ⟨h.1, by omega⟩

theorem OpStep.dayRecord {o o' : Option UserGuildStats} (hstep : OpStep env s p u op o o')
    (hop : ∀ h, op ≠ .human h) :
    (o'.map (fun r => (r.activeDays, r.lastActiveDay, r.lastHumanActivityAt))).getD
        (0, none, none) =
      (o.map (fun r => (r.activeDays, r.lastActiveDay, r.lastHumanActivityAt))).getD
        (0, none, none) := by
  cases hstep with
  | same => rfl
  | ensured => cases o <;> rfl
  | shown => cases o <;> rfl
  | active op => exact absurd rfl (hop op)
  | looked => cases o <;> rfl
  | scored => cases o <;> rfl
  | frozen => rfl
  | cleared => rfl

/-- Activity on a new day adds that day. -/
theorem DaysCounted.day {base today : Int} {seen : Finset Int} {o : Option UserGuildStats}
    {r : UserGuildStats} (h : DaysCounted base seen o)
    (hlast : ∀ l, o.bind UserGuildStats.lastActiveDay = some l → l < today)
    (hday : r.lastActiveDay = some today)
    (hnext : r.activeDays = (o.map UserGuildStats.activeDays).getD 0 + 1) :
    DaysCounted base (seen ∪ {today}) (some r) := by
  have hnew : today ∉ seen.filter (fun d => ∃ l ∈ o.bind UserGuildStats.lastActiveDay, d ≤ l) := by
    simp only [Finset.mem_filter, Option.mem_def, not_and, not_exists]
    intro _ l hl
    have := hlast l hl
    omega
  have hsub : insert today (seen.filter (fun d => ∃ l ∈ o.bind UserGuildStats.lastActiveDay, d ≤ l)) ⊆
      (seen ∪ {today}).filter (fun d => ∃ l ∈ (some r).bind UserGuildStats.lastActiveDay, d ≤ l) := by
    intro d
    simp only [Finset.mem_insert, Finset.mem_filter, Finset.mem_union, Finset.mem_singleton,
      Option.bind_some, hday, Option.mem_def, Option.some.injEq, exists_eq_left']
    rintro (rfl | ⟨hd, l, hl, hle⟩)
    · exact ⟨.inr rfl, le_rfl⟩
    · exact ⟨.inl hd, hle.trans (hlast l hl).le⟩
  have hcard := Finset.card_le_card hsub
  rw [Finset.card_insert_of_notMem hnew] at hcard
  have := h.1
  have := h.2
  rw [DaysCounted, Option.map_some, Option.getD_some, hnext]
  exact ⟨by omega, by omega⟩

/-- One operation adds at most its own day. -/
theorem DaysCounted.step {base : Int} {seen : Finset Int} {o o' : Option UserGuildStats}
    (h : DaysCounted base seen o) (hstep : OpStep env s p u op o o')
    (hkept : ∀ r ∈ o, Kept (op :: ops) r) : DaysCounted base (seen ∪ activityDay env u op s) o' := by
  by_cases hop : ∀ h, op ≠ .human h
  · -- no human operation: the days stay as they are
    have hsame := hstep.dayRecord hop
    refine (h.congr ?_ ?_).mono Finset.subset_union_left
    · have hdays := congrArg Prod.fst hsame
      cases o <;> cases o' <;> exact hdays
    · have hlast := congrArg (fun x => x.2.1) hsame
      cases o <;> cases o' <;> exact hlast
  push Not at hop
  obtain ⟨op, rfl⟩ := hop
  cases hstep with
  | same => exact h.mono Finset.subset_union_left
  | active _ _ user hc hv =>
    have hcur : Kept (.human op :: ops) (currentStats p u o) := Kept.current hkept
    have hdays := currentStats_activeDays p u o
    have hlast : (currentStats p u o).lastActiveDay = o.bind UserGuildStats.lastActiveDay := by
      cases o <;> rfl
    rcases activity_days p (currentStats p u o) op.today op.now with ⟨hl, ha⟩ | ⟨hne, hl, ha⟩
    · refine (h.congr ?_ ?_).mono Finset.subset_union_left
      · rw [Option.map_some, Option.getD_some, ha, hdays]
      · rw [Option.bind_some, hl, hlast]
    · rw [activityDay, if_pos ⟨user, hc⟩]
      refine h.day (fun l hold => ?_) hl ?_
      · -- the last active day is not after the last activity, so it is before today
        obtain ⟨t, ht, hle⟩ := hcur.dated l (hlast.trans hold)
        have hback : dateNaive t ≤ op.today :=
          dateNaive_mono (hcur.seen t ht op.todayAt (by simp [GuildOp.readings]))
        have hdiff : l ≠ op.today := fun he => hne (he ▸ hlast.trans hold)
        omega
      · rw [ha, ← hdays]
        exact (i32_succ hcur.days (ha ▸ hv.1)).1

variable (env) in
theorem DaysCounted.run {base : Int} {seen : Finset Int} (h : DaysCounted base seen (statsOf s u))
    (hclock : Clocked ops) (hkept : ∀ r ∈ statsOf s u, Kept ops r) :
    DaysCounted base (seen ∪ activityDays env u ops s) (statsOf (runOps env ops s) u) := by
  induction ops generalizing s seen with
  | nil => exact h.mono Finset.subset_union_left
  | cons op ops ih =>
    have hstep := op.opStep env s u
    rw [runOps_cons, activityDays, ← Finset.union_assoc]
    exact ih (h.step hstep hkept) hclock.tail (hstep.kept hclock hkept)

variable (env) in
theorem activeDays_run (hclock : Clocked ops) (hkept : ∀ r ∈ statsOf s u, Kept ops r) :
    activeDaysOf s u ≤ activeDaysOf (runOps env ops s) u ∧
      activeDaysOf (runOps env ops s) u ≤
        activeDaysOf s u + (activityDays env u ops s).card := by
  have hstart : DaysCounted (activeDaysOf s u) ∅ (statsOf s u) := by simp [DaysCounted, activeDaysOf]
  have hend := hstart.run env hclock hkept
  rw [Finset.empty_union] at hend
  have hcard := Finset.card_filter_le (activityDays env u ops s)
    (fun d => ∃ l ∈ (statsOf (runOps env ops s) u).bind UserGuildStats.lastActiveDay, d ≤ l)
  refine ⟨hend.1, hend.2.trans ?_⟩
  omega

/-- A frozen account that stays frozen gains no active day. -/
theorem activeDays_of_frozen (env : Env) (op : GuildOp) (hf : stateOf s u = .frozen)
    (hf' : stateOf (op.apply env s) u = .frozen) :
    activeDaysOf (op.apply env s) u = activeDaysOf s u := by
  have hstep := op.opStep env s u
  by_cases hop : ∀ h, op ≠ .human h
  · have hdays := congrArg Prod.fst (hstep.dayRecord hop)
    unfold activeDaysOf
    cases ho : statsOf s u <;> cases ho' : statsOf (op.apply env s) u <;> rw [ho, ho'] at hdays <;>
      exact hdays
  push Not at hop
  obtain ⟨op, rfl⟩ := hop
  unfold stateOf at hf hf'
  unfold activeDaysOf
  generalize statsOf s u = o at *
  generalize statsOf ((GuildOp.human op).apply env s) u = o' at *
  cases hstep with
  | same => rfl
  | active _ _ user hc hv =>
    have hstate : (currentStats (policyOf env s) u o).automationReviewState = .frozen := by
      cases o
      · cases hf
      · exact hf
    have hdays := currentStats_activeDays (policyOf env s) u o
    have hstate' : (activity (policyOf env s) (currentStats (policyOf env s) u o) op.today
      op.now).automationReviewState = .frozen := hf'
    rw [Option.map_some, Option.getD_some, ← hdays]
    obtain ⟨-, hcase⟩ := activity_cases (policyOf env s) (currentStats (policyOf env s) u o)
      op.today op.now
    rcases hcase with ⟨-, -, -, hclear, -⟩ | ⟨-, -, -, -, -, ha⟩ | ⟨hno, -⟩ | ⟨hno, -⟩ | ⟨hno, -⟩
    · rw [hstate'] at hclear
      cases hclear
    · exact ha
    · exact absurd hstate hno
    · exact absurd hstate hno
    · exact absurd hstate hno

/-- In every run that starts without a row of the user, under a clock that never goes back, the
active days count days of activity, each at most once; nothing but activity touches them, and
a frozen account gains none. -/
theorem active_days_count_days (env : Env) (u : Uuid) (s₀ : Db) (h₀ : statsOf s₀ u = none)
    (before next : List GuildOp) (hclock : Clocked (before ++ next)) :
    let s := runOps env before s₀
    let s' := runOps env next s
    activeDaysOf s u ≤ activeDaysOf s' u ∧
    (∀ d, activityDays env u next s ⊆ {d} → activeDaysOf s' u ≤ activeDaysOf s u + 1) ∧
    activeDaysOf s' u ≤ (activityDays env u (before ++ next) s₀).card ∧
    (∀ op : GuildOp, (∀ h, op ≠ .human h) → dayRecord (op.apply env s') u = dayRecord s' u) ∧
    (∀ op : GuildOp, stateOf s' u = .frozen → stateOf (op.apply env s') u = .frozen →
      activeDaysOf (op.apply env s') u = activeDaysOf s' u) := by
  have hkept : ∀ r ∈ statsOf (runOps env before s₀) u, Kept next r :=
    runOps_kept hclock (by simp [h₀])
  obtain ⟨hmono, hle⟩ := activeDays_run env hclock.right hkept
  have hall := (activeDays_run env (s := s₀) (u := u) hclock (by simp [h₀])).2
  have hzero : activeDaysOf s₀ u = 0 := by simp [activeDaysOf, h₀]
  rw [hzero, Int.zero_add, runOps_append] at hall
  refine ⟨hmono, fun d hd => ?_, hall, fun op hop => (op.opStep env _ u).dayRecord hop,
    fun op => activeDays_of_frozen env op⟩
  have hcard := Finset.card_le_card hd
  rw [Finset.card_singleton] at hcard
  omega

theorem active_days_count_days_two_visits :
    activeDaysOf (runOps asciiEnv twoVisits oneAccount) 1 ≤
      (activityDays asciiEnv 1 twoVisits oneAccount).card :=
  (active_days_count_days asciiEnv 1 oneAccount rfl [] twoVisits (by decide)).2.2.1

end SyncServer.Guild
