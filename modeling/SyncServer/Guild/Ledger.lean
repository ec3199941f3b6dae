import Mathlib.Data.List.Permutation
import SyncServer.Guild.Suspicion
import SyncServer.Transaction.ReadCommitted

/-! # The score ledger under concurrency

Transactions of `record_contribution_event` for one user, interleaved. They read
the score, the references and the caps without a lock and write the score back as
an absolute value. If no transaction commits after one of its answers became
outdated, the ledger is that of a serial order; otherwise a delta can be lost.
-/

namespace SyncServer.Guild
open Transaction ReadCommitted

/-- A call of `record_contribution_event` with the clock readings and the id it uses. -/
structure LedgerCall where
  request : ContributionRequest
  now : Int
  startedAt : Int
  eventId : Uuid

def LedgerCall.transaction (env : Env) (call : LedgerCall) : Query ContributionEventOutcome :=
  recordContributionEvent env call.request call.now call.startedAt call.eventId

/-- The score of a user; a user without a row has none yet. -/
def scoreOf (s : Db) (u : Uuid) : Int :=
  ((statsOf s u).map UserGuildStats.contributionScore).getD 0

/-- The number of events of a user with the given type and reference. -/
def eventCount (s : Db) (u : Uuid) (eventType reference : String) : Nat :=
  s.guildScoreEvents.rows.countP (fun e =>
    decide (e.userId = u ∧ e.eventType = eventType ∧ e.referenceId = some reference))

/-- The score after an outcome. -/
def applyOutcome (score : Int) (o : ContributionEventOutcome) : Int :=
  if o.duplicate then score else max (i32 (score + o.appliedDelta)) 0

variable {env : Env} {s s' : Db} {q : ContributionRequest} {o : ContributionEventOutcome}

theorem ContributionEffect.score (h : ContributionEffect env q s s' o) :
    scoreOf s' q.userId = applyOutcome (scoreOf s q.userId) o := by
  have hcur := currentStats_score (policyOf env s) q.userId (statsOf s q.userId)
  rcases h.effect with ⟨hdup, -, -, hrow, -⟩ | ⟨hdup, -, hscore, hrow, -⟩
  · rw [applyOutcome, if_pos hdup, scoreOf, hrow]
    exact hcur
  · rw [applyOutcome, if_neg (by simp [hdup]), scoreOf, hrow]
    change o.contributionScore = _
    rw [hscore, hcur, scoreOf]

theorem hasReference_eq_false {u : Uuid} {t ref : String} :
    hasReference u t ref s = false ↔ eventCount s u t ref = 0 := by
  rw [hasReference, eventCount, List.countP_eq_zero, List.any_eq_false]

theorem ContributionEffect.eventCount (h : ContributionEffect env q s s' o) {n : Nat}
    (t ref : String) (hn : eventCount s q.userId t ref ≤ max 1 n) :
    eventCount s' q.userId t ref ≤ max 1 n := by
  rcases h.effect with ⟨-, -, -, -, hev⟩ | ⟨-, hfresh, -, -, e, -, hu, ht, href, -, hrows⟩
  · rwa [Guild.eventCount, hev]
  · rw [Guild.eventCount, hrows, List.countP_append, List.countP_singleton]
    by_cases hmatch : e.eventType = t ∧ e.referenceId = some ref
    · have hzero : Guild.eventCount s q.userId t ref = 0 := by
        rw [← hasReference_eq_false, ← hmatch.1, ht]
        apply hfresh
        rw [← href, hmatch.2]
      rw [Guild.eventCount] at hzero
      rw [hzero]
      split <;> omega
    · rw [if_neg (by simpa [hu] using hmatch)]
      exact hn

section
variable {ι : Type} [DecidableEq ι]

/-- If no call commits on outdated answers, the calls for a user leave the database of
their serial execution, every reported delta is in the score, and no reference is applied
twice. -/
theorem score_ledger_serial (env : Env) (u : Uuid) (calls : ι → LedgerCall)
    (hu : ∀ i, (calls i).request.userId = u) (db : Db) (es : List (ι × Action))
    (s : Sys ι Db RowLock AppError ContributionEventOutcome)
    (hrun : run (start (fun i => (calls i).transaction env) db) es = some s)
    (hreads : ReadCommitted.Along ReadsStand (start (fun i => (calls i).transaction env) db) es) :
    s.db = serial (fun i => (calls i).transaction env) s.log db ∧
      scoreOf s.db u = (results s.status s.log).foldl applyOutcome (scoreOf db u) ∧
      ∀ t ref, eventCount s.db u t ref ≤ max 1 (eventCount db u t ref) := by
  have heffect : ∀ i d d' a, ((calls i).transaction env).run d = (.ok a, d') →
      ContributionEffect env (calls i).request d d' a :=
    fun i d d' a h => run_recordContributionEvent_ok h
  have hdb := run_serial hrun hreads
  have hscore : ∀ i d d' a, ((calls i).transaction env).run d = (.ok a, d') →
      scoreOf d' u = applyOutcome (scoreOf d u) a := by
    intro i d d' a h
    rw [← hu i]
    exact (heffect i d d' a h).score
  refine ⟨hdb, run_fold (m := fun d => scoreOf d u) hscore hrun hreads, fun t ref => ?_⟩
  have hcount : ∀ i d d' a, ((calls i).transaction env).run d = (.ok a, d') →
      eventCount d u t ref ≤ max 1 (eventCount db u t ref) →
      eventCount d' u t ref ≤ max 1 (eventCount db u t ref) := by
    intro i d d' a h
    rw [← hu i]
    exact (heffect i d d' a h).eventCount t ref
  rw [hdb]
  exact serial_induction hcount (le_max_right _ _) s.log

end

/-! ## A lost award -/

def reportCall (reference : String) (eventId : Uuid) : LedgerCall :=
  ⟨awardVerifiedAbuseReport 1 (some reference) (.object []), Duration.seconds 5, Duration.seconds 5,
    eventId⟩

def twoReports (first second : String) (i : Bool) : LedgerCall :=
  if i then reportCall first 7 else reportCall second 8

def visited : Db := (GuildOp.getGuildSnapshot 1 0).apply asciiEnv oneAccount

/-- Both transactions are at their last statement before one of them writes the score. -/
def overlapping : List (Bool × Action) :=
  List.replicate 5 (true, .stmt) ++ List.replicate 5 (false, .stmt) ++
    [(true, .stmt), (true, .commit), (false, .stmt), (false, .commit)]

/-- One award on its own. -/
def aloneReport : List (Bool × Action) := List.replicate 6 (true, .stmt) ++ [(true, .commit)]

/-- The database that a schedule of the two awards ends with. -/
def afterReports (first second : String) (es : List (Bool × Action)) :
    Option (Sys Bool Db RowLock AppError ContributionEventOutcome) :=
  run (start (fun i => (twoReports first second i).transaction asciiEnv) visited) es

theorem score_ledger_serial_alone :
    eventCount ((afterReports "a" "b" aloneReport).get (by decide)).db 1
      "verified_abuse_report" "a" ≤ max 1 0 :=
  (score_ledger_serial asciiEnv 1 (twoReports "a" "b") (by decide) visited aloneReport _
    (Option.some_get _).symm (along_alone (i := true) (by decide) (by
      intro c hc
      cases hc
      trivial))).2.2 _ _

/-- Two awards of 25 points overlap, and the score is 25; with equal references, the
reference is applied twice. -/
theorem score_delta_lost :
    ∃ (env : Env) (u : Uuid) (calls calls' : Bool → LedgerCall) (db : Db)
      (es : List (Bool × Action)) (s s' : Sys Bool Db RowLock AppError ContributionEventOutcome),
      Reachable env db ∧ (∀ i, (calls i).request.userId = u) ∧
      (∀ i, (calls' i).request.userId = u) ∧
      run (start (fun i => (calls i).transaction env) db) es = some s ∧
      run (start (fun i => (calls' i).transaction env) db) es = some s' ∧
      scoreOf s.db u = 25 ∧
      (∀ order : List Bool, order.Perm s.log →
        scoreOf (serial (fun i => (calls i).transaction env) order db) u = 50) ∧
      eventCount db u "verified_abuse_report" "a" = 0 ∧
      eventCount s'.db u "verified_abuse_report" "a" = 2 := by
  have hlog : ((afterReports "a" "b" overlapping).get (by decide)).log = [true, false] := by decide
  have hserial : ∀ order ∈ [true, false].permutations',
      scoreOf (serial (fun i => (twoReports "a" "b" i).transaction asciiEnv) order visited) 1 =
        50 := by
    decide
  refine ⟨asciiEnv, 1, twoReports "a" "b", twoReports "a" "a", visited, overlapping,
    (afterReports "a" "b" overlapping).get (by decide),
    (afterReports "a" "a" overlapping).get (by decide),
    (Reachable.start (fun _ => rfl)).op (.getGuildSnapshot 1 0), by decide, by decide,
    (Option.some_get _).symm, (Option.some_get _).symm, by decide, fun order horder => ?_,
    by decide, by decide⟩
  rw [hlog] at horder
  exact hserial order (List.mem_permutations'.mpr horder)

end SyncServer.Guild
