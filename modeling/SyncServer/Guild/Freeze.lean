import SyncServer.Guild.Suspicion

/-! # Freezes by an administrator

A freeze leaves the last activity of the row as it is, and recovery is measured
from that. After the first activity under the freeze nothing can end it within
the recovery window; whether the first one does depends on the activity before.
-/

namespace SyncServer.Guild
open Transaction

/-- What users do while an account is frozen: human activity and polling. -/
inductive VisitOp where
  | human (op : HumanOp)
  | snapshot (user : Uuid) (todayAt : Int)

namespace VisitOp

def guildOp : VisitOp → GuildOp
  | human op => .human op
  | snapshot u t => .getGuildSnapshot u t

/-- The first and the last clock reading. -/
def firstReading : VisitOp → Int
  | human op => op.todayAt
  | snapshot _ t => t

def lastReading : VisitOp → Int
  | human op => op.now
  | snapshot _ t => t

def apply (env : Env) (op : VisitOp) (s : Db) : Db := op.guildOp.apply env s

/-- A committed human operation of `u`. -/
def activityOf (env : Env) (u : Uuid) (s : Db) : VisitOp → Option HumanOp
  | human op => if op.user = u ∧ op.Commits env s then some op else none
  | snapshot _ _ => none

end VisitOp

/-- The readings start at `t`, never go back, and stay before `limit`. -/
def VisitClock (limit : Int) : Int → List VisitOp → Prop
  | _, [] => True
  | t, op :: ops => t ≤ op.firstReading ∧ op.firstReading ≤ op.lastReading ∧
      op.lastReading < limit ∧ VisitClock limit op.lastReading ops

instance decidableVisitClock (limit : Int) :
    ∀ (t : Int) (ops : List VisitOp), Decidable (VisitClock limit t ops)
  | _, [] => isTrue trivial
  | _, op :: ops => @instDecidableAnd _ _ _ (@instDecidableAnd _ _ _
      (@instDecidableAnd _ _ _ (decidableVisitClock limit op.lastReading ops)))

/-- Every state that the run goes through satisfies `P`. -/
def Throughout (env : Env) (P : Db → Prop) : List VisitOp → Db → Prop
  | [], s => P s
  | op :: ops, s => P s ∧ Throughout env P ops (op.apply env s)

/-- The first committed human operation of `u`. -/
def firstActivity (env : Env) (u : Uuid) : List VisitOp → Db → Option HumanOp
  | [], _ => none
  | op :: ops, s => (op.activityOf env u s).orElse fun _ =>
      firstActivity env u ops (op.apply env s)

/-- The account is frozen with the active days of `r`. -/
def HeldAs (u : Uuid) (r : UserGuildStats) (s : Db) : Prop :=
  ∃ r', statsOf s u = some r' ∧ r'.automationReviewState = .frozen ∧ r'.activeDays = r.activeDays

/-- Nothing but derived columns has changed since the freeze of `r`. -/
def Untouched (u : Uuid) (r : UserGuildStats) (s : Db) : Prop :=
  ∃ r', statsOf s u = some r' ∧ r'.automationReviewState = .frozen ∧
    r'.activeDays = r.activeDays ∧ r'.lastActiveDay = r.lastActiveDay ∧
    r'.lastHumanActivityAt = r.lastHumanActivityAt

/-- There has been activity since time `t`, and it did not end the freeze. -/
def Visited (u : Uuid) (r : UserGuildStats) (t : Int) (s : Db) : Prop :=
  ∃ r' last, statsOf s u = some r' ∧ r'.automationReviewState = .frozen ∧
    r'.activeDays = r.activeDays ∧ r'.lastHumanActivityAt = some last ∧ t ≤ last

variable {env : Env} {u : Uuid} {r : UserGuildStats} {s s' : Db} {t : Int}

theorem Untouched.held (h : Untouched u r s) : HeldAs u r s := by
  obtain ⟨r', hr, hf, ha, -⟩ := h
  exact ⟨r', hr, hf, ha⟩

theorem Visited.held (h : Visited u r t s) : HeldAs u r s := by
  obtain ⟨r', last, hr, hf, ha, -⟩ := h
  exact ⟨r', hr, hf, ha⟩

theorem canRecoverFromFrozen_congr {r r' : UserGuildStats}
    (h₁ : r'.lastActiveDay = r.lastActiveDay)
    (h₂ : r'.lastHumanActivityAt = r.lastHumanActivityAt) (today now : Int) :
    canRecoverFromFrozen r' today now = canRecoverFromFrozen r today now := by
  rw [canRecoverFromFrozen, canRecoverFromFrozen, h₁, h₂]

/-- An operation that is no activity of `u` changes at most derived columns of the row. -/
theorem VisitOp.apply_no_activity {op : VisitOp} (h : op.activityOf env u s = none)
    {r₀ : UserGuildStats} (hr : statsOf s u = some r₀) :
    ∃ r', statsOf (op.apply env s) u = some r' ∧
      r'.automationReviewState = r₀.automationReviewState ∧ r'.activeDays = r₀.activeDays ∧
      r'.lastActiveDay = r₀.lastActiveDay ∧ r'.lastHumanActivityAt = r₀.lastHumanActivityAt := by
  cases op with
  | human op =>
    have hnot : ¬ (op.user = u ∧ op.Commits env s) := by simpa [activityOf] using h
    have hsame : statsOf ((GuildOp.human op).apply env s) u = statsOf s u := by
      rcases op.apply_cases env s with ⟨-, hs⟩ | ⟨hc, -, hrow⟩
      · rw [hs]
      · exact hrow.other u (fun hu => hnot ⟨hu.symm, hc⟩)
    exact ⟨r₀, hsame.trans hr, rfl, rfl, rfl, rfl⟩
  | snapshot v d =>
    have hfresh : ∀ p : Policy, (statsOf s u).getD (freshStats p u) = r₀ := by simp [hr]
    change ∃ r', statsOf ((getGuildSnapshot env v (dateNaive d)).run s).2 u = some r' ∧ _
    rcases run_getGuildSnapshot_cases env v (dateNaive d) s with
      ⟨e, s', hrun, hframe, hrow⟩ | ⟨s', c₁, c₂, c₃, hrun, hrow, hframe⟩
    all_goals
      rw [hrun]
      by_cases hv : u = v
      swap
      · exact ⟨r₀, (hframe.other hv).trans hr, rfl, rfl, rfl, rfl⟩
      subst hv
    · refine ⟨r₀, ?_, rfl, rfl, rfl, rfl⟩
      rcases hrow with hrow | hrow
      · exact hrow.trans hr
      · rw [hrow, hfresh]
    · exact ⟨_, hrow, by rw [currentStats, hfresh]; exact ⟨rfl, rfl, rfl, rfl⟩⟩

theorem VisitOp.apply_activity {op : VisitOp} {h : HumanOp}
    (hop : op.activityOf env u s = some h) {r₀ : UserGuildStats} (hr : statsOf s u = some r₀) :
    op.firstReading = h.todayAt ∧ op.lastReading = h.now ∧
      statsOf (op.apply env s) u =
        some (activity (policyOf env s) (synced (policyOf env s) r₀) h.today h.now) := by
  cases op with
  | snapshot v d => cases hop
  | human op =>
    simp only [activityOf, Option.ite_none_right_eq_some, Option.some.injEq] at hop
    obtain ⟨⟨rfl, hc⟩, rfl⟩ := hop
    refine ⟨rfl, rfl, ?_⟩
    rcases op.apply_cases env s with ⟨hno, -⟩ | ⟨-, -, hrow⟩
    · exact absurd hc hno
    · rw [show (VisitOp.human op).apply env s = (GuildOp.human op).apply env s from rfl, hrow.self,
        currentStats, hr]
      rfl

/-- Activity on a frozen row ends the freeze exactly if the row can recover. -/
theorem activity_frozen {p : Policy} {r₀ : UserGuildStats}
    (hf : r₀.automationReviewState = .frozen) (today now : Int) :
    let r' := activity p (synced p r₀) today now
    r'.lastHumanActivityAt = some now ∧
      (canRecoverFromFrozen r₀ today now = true → r'.automationReviewState = .clear) ∧
      (canRecoverFromFrozen r₀ today now = false →
        r'.automationReviewState = .frozen ∧ r'.activeDays = r₀.activeDays) := by
  have hcan : canRecoverFromFrozen (synced p r₀) today now = canRecoverFromFrozen r₀ today now :=
    canRecoverFromFrozen_congr rfl rfl today now
  obtain ⟨hlast, hc⟩ := activity_cases p (synced p r₀) today now
  refine ⟨hlast, fun hyes => ?_, fun hno => ?_⟩
  · rcases hc with ⟨-, -, -, hst, -⟩ | ⟨-, hrec, -⟩ | ⟨hnf, -⟩ | ⟨hnf, -⟩ | ⟨hnf, -⟩
    · exact hst
    · rw [hcan, hyes] at hrec
      cases hrec
    · exact absurd hf hnf
    · exact absurd hf hnf
    · exact absurd hf hnf
  · rcases hc with ⟨-, hrec, -⟩ | ⟨-, -, -, hst, -, ha⟩ | ⟨hnf, -⟩ | ⟨hnf, -⟩ | ⟨hnf, -⟩
    · rw [hcan, hno] at hrec
      cases hrec
    · exact ⟨hst, ha⟩
    · exact absurd hf hnf
    · exact absurd hf hnf
    · exact absurd hf hnf

theorem Visited.throughout {now : Int} {ops : List VisitOp} (h : Visited u r t s) (hnow : t ≤ now)
    (hclock : VisitClock (t + frozenRecoveryWindow) now ops) :
    Throughout env (HeldAs u r) ops s := by
  induction ops generalizing s now with
  | nil => exact h.held
  | cons op ops ih =>
    obtain ⟨h₁, h₂, h₃, hclock⟩ := hclock
    refine ⟨h.held, ih ?_ (by omega) hclock⟩
    obtain ⟨r', last, hr, hf, ha, hlast, hle⟩ := h
    rcases hop : op.activityOf env u s with _ | act
    · obtain ⟨r'', hr'', hf'', ha'', -, hlast''⟩ := op.apply_no_activity hop hr
      exact ⟨r'', last, hr'', hf''.trans hf, ha''.trans ha, hlast''.trans hlast, hle⟩
    · obtain ⟨hfirst, hlast', hrow⟩ := op.apply_activity hop hr
      obtain ⟨hl, -, hno⟩ := activity_frozen (p := policyOf env s) hf act.today act.now
      have hcannot : canRecoverFromFrozen r' act.today act.now = false := by
        have hlt : ¬ frozenRecoveryWindow ≤ act.now - last := by omega
        simp [canRecoverFromFrozen, hlast, hlt]
      obtain ⟨hst, hdays⟩ := hno hcannot
      exact ⟨_, act.now, hrow, hst, hdays.trans ha, hl, by omega⟩

/-- Until the end of the window the freeze holds if and only if the first activity after it
cannot recover the row as it was at the freeze. -/
theorem Untouched.throughout_iff {now : Int} {ops : List VisitOp} (h : Untouched u r s)
    (hnow : t ≤ now) (hclock : VisitClock (t + frozenRecoveryWindow) now ops) :
    Throughout env (HeldAs u r) ops s ↔ (firstActivity env u ops s).all (fun op =>
      !canRecoverFromFrozen r op.today op.now) = true := by
  induction ops generalizing s now with
  | nil => simpa [Throughout, firstActivity] using h.held
  | cons op ops ih =>
    obtain ⟨h₁, h₂, h₃, hclock⟩ := hclock
    have hheld := h.held
    obtain ⟨r', hr, hf, ha, hl, hlast⟩ := h
    rcases hop : op.activityOf env u s with _ | act
    · obtain ⟨r'', hr'', hf'', ha'', hl'', hlast''⟩ := op.apply_no_activity hop hr
      have hnext : Untouched u r (op.apply env s) :=
        ⟨r'', hr'', hf''.trans hf, ha''.trans ha, hl''.trans hl, hlast''.trans hlast⟩
      simp only [Throughout, firstActivity, hop, hheld, true_and, Option.orElse_none]
      exact ih hnext (by omega) hclock
    · obtain ⟨hfirst, hlast', hrow⟩ := op.apply_activity hop hr
      obtain ⟨hl', hyes, hno⟩ := activity_frozen (p := policyOf env s) hf act.today act.now
      rw [canRecoverFromFrozen_congr hl hlast] at hyes hno
      simp only [Throughout, firstActivity, hop, Option.orElse_some, Option.all_some,
        Bool.not_eq_true']
      constructor
      · rintro ⟨-, hrest⟩
        by_contra hcan
        have hst := hyes (by simpa using hcan)
        have hhead : HeldAs u r (op.apply env s) := by
          cases ops with
          | nil => exact hrest
          | cons op' ops => exact hrest.1
        obtain ⟨r'', hr'', hf'', -⟩ := hhead
        rw [hrow] at hr''
        cases hr''
        rw [hst] at hf''
        cases hf''
      · intro hcannot
        obtain ⟨hst, hdays⟩ := hno hcannot
        refine ⟨hheld, Visited.throughout (t := t) ?_ (by omega) hclock⟩
        exact ⟨_, act.now, hrow, hst, hdays.trans ha, hl', by omega⟩

theorem run_freezeGuildProgression_ok {admin : Option Uuid} {reason : String} {audit : Uuid}
    (h : (freezeGuildProgression admin u reason audit).run s = (.ok (), s')) :
    statsOf s' u = (statsOf s u).map frozenStats ∧ s'.users = s.users ∧
      s'.adminSettings = s.adminSettings := by
  unfold freezeGuildProgression at h
  obtain ⟨x, s₁, h₁, h₂⟩ := Tx.run_bind_eq_ok h
  rcases run_executeUpdateStats_cases u frozenStats (fun _ => rfl) s with
    ⟨e, he⟩ | ⟨s₀, hrun, hrow, -, hframe⟩
  · rw [he] at h₁
    cases h₁
  rw [hrun] at h₁
  cases h₁
  obtain ⟨t, a, rfl, -⟩ := hframe
  have hkeep : (s'.userGuildStats, s'.users, s'.adminSettings) = (t, s.users, s.adminSettings) := by
    cases admin with
    | none =>
      exact (keeps_insertAuditLog
        (π := fun d : Db => (d.userGuildStats, d.users, d.adminSettings)) (fun _ _ => rfl) _).of_run h₂
    | some a =>
      exact (keeps_insertAuditLog
        (π := fun d : Db => (d.userGuildStats, d.users, d.adminSettings)) (fun _ _ => rfl) _).of_run h₂
  simp only [Prod.mk.injEq] at hkeep
  rw [statsOf, hkeep.1]
  exact ⟨hrow, hkeep.2⟩

theorem run_freezeGuildProgression_row {admin : Option Uuid} {reason : String} {audit : Uuid}
    (hr : statsOf s u = some r)
    (h : (freezeGuildProgression admin u reason audit).run s = (.ok (), s')) :
    statsOf s' u = some (frozenStats r) := by
  rw [(run_freezeGuildProgression_ok h).1, hr]
  rfl

/-- A freeze of the row `r` at time `t` holds in every state until the recovery window has
passed, if and only if the first activity after it cannot recover `r`. -/
theorem freeze_holds_iff (env : Env) (u : Uuid) (s s' : Db) (r : UserGuildStats)
    (hr : statsOf s u = some r) (admin : Option Uuid) (reason : String)
    (audit : Uuid) (hfreeze : (freezeGuildProgression admin u reason audit).run s = (.ok (), s'))
    (t : Int) (ops : List VisitOp) (hclock : VisitClock (t + frozenRecoveryWindow) t ops) :
    Throughout env (HeldAs u r) ops s' ↔ (firstActivity env u ops s').all (fun op =>
      !canRecoverFromFrozen r op.today op.now) = true := by
  have hrow := run_freezeGuildProgression_row hr hfreeze
  exact Untouched.throughout_iff ⟨_, hrow, rfl, rfl, rfl, rfl⟩ le_rfl hclock

/-- An account and an administrator. -/
def accountAndAdmin : Db :=
  { Db.empty with users := ⟨[accountOf 1 "alice" "alice@example.org",
      { accountOf 2 "root" "root@example.org" with role := "admin" }], by decide⟩ }

/-- The freeze of the account by the administrator. -/
def freezeAlice (s : Db) : Db :=
  ((freezeGuildProgression (some 2) 1 "spam" 9).run s).2

/-- An account that was active shortly before the freeze is not released by polling and
sending in the next hours. -/
theorem freeze_holds_iff_recent :
    Throughout asciiEnv
      (HeldAs 1 (activity defaultGuildPolicy (freshStats defaultGuildPolicy 1) 0 0))
      [.snapshot 1 (Duration.hours 1), .human (activityAt 7200 2), .human (activityAt 88000 3)]
      (freezeAlice (runHuman asciiEnv [activityAt 0 1] accountAndAdmin)) :=
  (freeze_holds_iff asciiEnv 1 (runHuman asciiEnv [activityAt 0 1] accountAndAdmin)
    (freezeAlice (runHuman asciiEnv [activityAt 0 1] accountAndAdmin)) _ (by decide) (some 2) "spam"
    9 (Prod.ext (by decide) rfl) (Duration.minutes 50) _ (by decide)).mpr (by decide)

/-- An account that only ever polled is frozen, and released by its first message a minute
later, with one more active day. -/
theorem freeze_released_after_a_minute :
    ∃ (env : Env) (s s' : Db) (u : Uuid) (r : UserGuildStats) (admin : Uuid) (reason : String)
      (audit : Uuid) (t : Int) (ops : List VisitOp),
      Reachable env s ∧ statsOf s u = some r ∧
      (freezeGuildProgression (some admin) u reason audit).run s = (.ok (), s') ∧
      VisitClock (t + frozenRecoveryWindow) t ops ∧ ¬ Throughout env (HeldAs u r) ops s' ∧
      stateOf s' u = .frozen ∧
      stateOf (ops.foldl (fun s op => op.apply env s) s') u = .clear ∧
      (statsOf (ops.foldl (fun s op => op.apply env s) s') u).map UserGuildStats.activeDays =
        some (r.activeDays + 1) := by
  let s := (VisitOp.snapshot 1 0).apply asciiEnv accountAndAdmin
  have hr : statsOf s 1 = some (freshStats defaultGuildPolicy 1) := by decide
  have hclock : VisitClock (Duration.seconds 100 + frozenRecoveryWindow) (Duration.seconds 100)
    [.human (activityAt 160 2)] := by decide
  have hfreeze : (freezeGuildProgression (some 2) 1 "spam" 9).run s = (.ok (), freezeAlice s) :=
    Prod.ext (by decide) rfl
  refine ⟨asciiEnv, s, freezeAlice s, 1, _, 2, "spam", 9, _, _,
    (Reachable.start (fun _ => rfl)).op (.getGuildSnapshot 1 0), hr, hfreeze, hclock, ?_,
    by decide, by decide, by decide⟩
  have hrow : Untouched 1 (freshStats defaultGuildPolicy 1) (freezeAlice s) :=
    ⟨_, run_freezeGuildProgression_row hr hfreeze, rfl, rfl, rfl, rfl⟩
  rw [hrow.throughout_iff le_rfl hclock]
  decide

/-! ## Whether a freeze shows -/

/-- A snapshot of a user succeeds, and shows the review state of the row that the user has or is
given. -/
theorem run_getGuildSnapshot_state (env : Env) (today : Int) (hu : s.userExists u)
    (hv : ∀ r ∈ statsOf s u, r.Valid) :
    ∃ snapshot s', (getGuildSnapshot env u today).run s = (.ok snapshot, s') ∧
      snapshot.challengeState = challengeStateForClient
        (((statsOf s u).map UserGuildStats.automationReviewState).getD .clear) := by
  obtain ⟨s₁, hensure, hrow, -⟩ := run_ensureUserGuildStats_ok (policyOf env s) hu
  have hvalid : ((statsOf s u).getD (freshStats (policyOf env s) u)).Valid := by
    rcases h : statsOf s u with _ | r
    · exact freshStats_valid _ u
    · exact hv r h
  obtain ⟨s₂, hsync, -⟩ := run_syncDerivedState_ok (policyOf env s) hrow hvalid
  rcases run_getGuildSnapshot_cases env u today s with ⟨e, s', he, -⟩ | ⟨s', c₁, c₂, c₃, hrun, -⟩
  · unfold getGuildSnapshot loadGuildPolicyConn at he
    rw [Tx.run_bind_ok (Tx.run_query _ _), Tx.run_bind_ok hensure] at he
    dsimp only at he
    rw [Tx.run_bind_ok hsync] at he
    cases he
  · refine ⟨_, s', hrun, ?_⟩
    cases statsOf s u <;> rfl

/-- After a freeze that succeeded the next snapshot of the user shows it if and only if the user
had a row to freeze. -/
theorem freeze_shows_iff (env : Env) (s s' : Db) (u : Uuid) (hu : s.userExists u)
    (hv : ∀ r ∈ statsOf s u, r.Valid) (admin : Option Uuid) (reason : String) (audit : Uuid)
    (hfreeze : (freezeGuildProgression admin u reason audit).run s = (.ok (), s')) (today : Int) :
    (∃ snapshot s'', (getGuildSnapshot env u today).run s' = (.ok snapshot, s'') ∧
      snapshot.challengeState = "frozen") ↔ (statsOf s u).isSome = true := by
  obtain ⟨hrow, husers, -⟩ := run_freezeGuildProgression_ok hfreeze
  have hu' : s'.userExists u := by
    unfold Db.userExists
    rw [husers]
    exact hu
  have hv' : ∀ r ∈ statsOf s' u, r.Valid := by
    rw [hrow]
    intro frozen hmap
    obtain ⟨r, hr, rfl⟩ := Option.map_eq_some_iff.mp hmap
    exact hv r hr
  obtain ⟨snapshot, s'', hrun, hstate⟩ := run_getGuildSnapshot_state env today hu' hv'
  rw [hrow] at hstate
  rw [hrun]
  constructor
  · rintro ⟨_, _, ⟨⟩, hfrozen⟩
    rw [hfrozen] at hstate
    rcases h : statsOf s u with _ | r
    · rw [h] at hstate
      exact absurd hstate (by decide)
    · rfl
  · intro hsome
    obtain ⟨r, hr⟩ := Option.isSome_iff_exists.mp hsome
    refine ⟨snapshot, s'', rfl, ?_⟩
    rw [hstate, hr]
    rfl

/-- The account with its row. -/
def visitedAccount : Db := (VisitOp.snapshot 1 0).apply asciiEnv accountAndAdmin

theorem freeze_shows_iff_visited :
    (∃ snapshot s'', (getGuildSnapshot asciiEnv 1 0).run (freezeAlice visitedAccount) =
        (.ok snapshot, s'') ∧ snapshot.challengeState = "frozen") ↔
      (statsOf visitedAccount 1).isSome = true :=
  freeze_shows_iff asciiEnv visitedAccount (freezeAlice visitedAccount) 1 (by decide) (by decide)
    (some 2) "spam" 9 (Prod.ext (by decide) rfl) 0

/-- The freeze of an account that did nothing yet succeeds, and the next snapshot shows none. -/
theorem freeze_without_row_lost :
    accountAndAdmin.userExists 1 ∧ statsOf accountAndAdmin 1 = none ∧
      (freezeGuildProgression (some 2) 1 "spam" 9).run accountAndAdmin =
        (.ok (), freezeAlice accountAndAdmin) ∧
      ((getGuildSnapshot asciiEnv 1 0).run (freezeAlice accountAndAdmin)).1.map
        GuildSnapshot.challengeState = .ok "none" := by
  refine ⟨by decide, by decide, Prod.ext (by decide) rfl, ?_⟩
  decide

end SyncServer.Guild
