import Mathlib.Data.List.Permutation
import SyncServer.Guild.Quota
import SyncServer.Transaction.Tracking

/-! # Freezes among human operations

The human operations of one user, interleaved with freezes and unfreezes of that user. A human
operation assesses the row that it read, and locks it only for the update that follows; what an
administrator commits in between is written over, unless both rows are assessed alike.
-/

namespace SyncServer.Guild
open Transaction ReadCommitted

/-! ## The review of a row -/

/-- What the assessment of human activity looks at. -/
structure Review where
  state : ReviewState
  streak : Int
  lastActiveDay : Option Int
  lastHumanActivityAt : Option Int
deriving DecidableEq, Repr

def reviewOf (r : UserGuildStats) : Review :=
  ⟨r.automationReviewState, r.suspiciousActivityStreak, r.lastActiveDay, r.lastHumanActivityAt⟩

def Review.written (v : Review) (a : HumanActivityAssessment) (today now : Int) : Review where
  state := a.automationReviewState
  streak := a.suspiciousActivityStreak
  lastActiveDay := if a.shouldAdvanceActiveDay then some today else v.lastActiveDay
  lastHumanActivityAt := some now

section
variable {r r' row : UserGuildStats} {today now : Int}

theorem assessHumanActivity_congr (h : reviewOf r = reviewOf r') (today now : Int) :
    assessHumanActivity r today now = assessHumanActivity r' today now := by
  simp only [reviewOf, Review.mk.injEq] at h
  obtain ⟨hstate, hstreak, hday, hlast⟩ := h
  simp [assessHumanActivity, canRecoverFromFrozen, suspiciousNewDayAttempt, hstate, hstreak, hday,
    hlast]

theorem reviewOf_activity (p : Policy) (r : UserGuildStats) (today now : Int) :
    reviewOf (activity p r today now) =
      (reviewOf r).written (assessHumanActivity r today now) today now := by
  by_cases h : (assessHumanActivity r today now).shouldAdvanceActiveDay = true
  · simp [activity, reviewOf, Review.written, h]
  · simp [activity, reviewOf, Review.written, h]

@[simp] theorem reviewOf_synced (p : Policy) (r : UserGuildStats) :
    reviewOf (synced p r) = reviewOf r := rfl

theorem reviewOf_freshStats (p q : Policy) (u : Uuid) :
    reviewOf (freshStats p u) = reviewOf (freshStats q u) := rfl

theorem reviewOf_visit {o o' : Option UserGuildStats} (h : o.map reviewOf = o'.map reviewOf)
    (p q : Policy) (u : Uuid) (today now : Int) :
    reviewOf (activity p (currentStats p u o) today now) =
      reviewOf (activity q (currentStats q u o') today now) := by
  have hcurrent : reviewOf (currentStats p u o) = reviewOf (currentStats q u o') := by
    rcases o with _ | r <;> rcases o' with _ | r'
    · rfl
    · cases h
    · cases h
    · simpa [currentStats] using h
  rw [reviewOf_activity, reviewOf_activity, hcurrent, assessHumanActivity_congr hcurrent]

/-- The row that was read and the row that is there lead to the same review. -/
structure SameVerdict (today now : Int) (r row : UserGuildStats) : Prop where
  state : (assessHumanActivity r today now).automationReviewState =
    (assessHumanActivity row today now).automationReviewState
  streak : (assessHumanActivity r today now).suspiciousActivityStreak =
    (assessHumanActivity row today now).suspiciousActivityStreak
  day : row.lastActiveDay ≠ some today → (assessHumanActivity r today now).shouldAdvanceActiveDay =
    (assessHumanActivity row today now).shouldAdvanceActiveDay

theorem SameVerdict.of_review (h : reviewOf r = reviewOf row) (today now : Int) :
    SameVerdict today now r row := by
  have hassess := assessHumanActivity_congr h today now
  exact ⟨by rw [hassess], by rw [hassess], fun _ => by rw [hassess]⟩

theorem SameVerdict.congr (h : SameVerdict today now r row) {row' : UserGuildStats}
    (hrow : reviewOf row = reviewOf row') : SameVerdict today now r row' := by
  have hassess := assessHumanActivity_congr hrow today now
  have hday : row.lastActiveDay = row'.lastActiveDay := congrArg Review.lastActiveDay hrow
  obtain ⟨hstate, hstreak, hadvance⟩ := h
  rw [hassess] at hstate hstreak hadvance
  exact ⟨hstate, hstreak, fun hne => hadvance (hday ▸ hne)⟩

theorem SameVerdict.written (h : SameVerdict today now r row) :
    (reviewOf row).written (assessHumanActivity r today now) today now =
      (reviewOf row).written (assessHumanActivity row today now) today now := by
  obtain ⟨hstate, hstreak, hday⟩ := h
  unfold Review.written
  rw [hstate, hstreak]
  congr 1
  by_cases hne : (reviewOf row).lastActiveDay = some today
  · simp [hne]
  · rw [hday hne]

end

/-! ## The calls -/

/-- A call that freezes or unfreezes a user. -/
inductive FreezeCall where
  | freeze (admin : Option Uuid) (reason : String) (audit : Uuid)
  | unfreeze (admin : Uuid) (reason : String) (audit : Uuid)

namespace FreezeCall

def program (u : Uuid) : FreezeCall → Query Unit
  | freeze admin reason audit => freezeGuildProgression admin u reason audit
  | unfreeze admin reason audit => unfreezeGuildProgression admin u reason audit

/-- What the call does to the row of the user. -/
def columns : FreezeCall → UserGuildStats → UserGuildStats
  | freeze .. => frozenStats
  | unfreeze .. => clearedStats

theorem columns_id (call : FreezeCall) (r : UserGuildStats) :
    (call.columns r).userId = r.userId := by
  cases call <;> rfl

def update (u : Uuid) (call : FreezeCall) : Query Unit :=
  executeUpdateStats u call.columns call.columns_id

def entry (u : Uuid) : FreezeCall → AdminAuditLog
  | freeze (some admin) reason audit =>
    ⟨audit, some admin, "guild.admin.freeze_guild_progression", some (uuidString u),
      Json.ofFields [
        ("reason", .string reason),
        ("target_user_id", .string (uuidString u)),
        ("admin_user_id", .string (uuidString admin))]⟩
  | freeze none reason audit =>
    ⟨audit, none, "guild.system.freeze_guild_progression", some (uuidString u),
      Json.ofFields [("reason", .string reason)]⟩
  | unfreeze admin reason audit =>
    ⟨audit, some admin, "guild.admin.unfreeze_guild_progression", some (uuidString u),
      Json.ofFields [("reason", .string reason)]⟩

theorem program_eq (u : Uuid) (call : FreezeCall) :
    call.program u = (do call.update u; insertAuditLog (call.entry u)) := by
  rcases call with ⟨_ | admin, reason, audit⟩ | ⟨admin, reason, audit⟩ <;> rfl

theorem run_program_ok {u : Uuid} {call : FreezeCall} {d d' : Db}
    (h : (call.program u).run d = (.ok (), d')) :
    statsOf d' u = (statsOf d u).map call.columns := by
  rw [program_eq] at h
  obtain ⟨_, d₁, hupdate, haudit⟩ := Tx.run_bind_eq_ok h
  have hkeep := (keeps_insertAuditLog (π := Db.userGuildStats) (fun _ _ => rfl) _).of_run haudit
  rcases run_executeUpdateStats_cases u call.columns call.columns_id d with
    ⟨e, he⟩ | ⟨d₂, hrun, hrow, -, -⟩
  · rw [update, he] at hupdate
    cases hupdate
  · rw [update, hrun] at hupdate
    cases hupdate
    rw [statsOf, hkeep]
    exact hrow

end FreezeCall

/-! ## The row that an operation reads -/

def rowFor (env : Env) (u : Uuid) (d : Db) : UserGuildStats :=
  (statsOf d u).getD (freshStats (policyOf env d) u)

def rowPart (u : Uuid) (d : Db) : Option UserGuildStats × Bool :=
  (statsOf d u, (d.users.get u).isSome)

/-- When an operation locks the row of the user, the row that it has read is out of date in its
derived columns, so that it is read again, or it is assessed as the committed row is. -/
def RowStands (env : Env) (u : Uuid) (op : HumanOp) (answers : Db → Prop) (d : Db) : Prop :=
  ∃ d₀, answers d₀ ∧ (synced (policyOf env d₀) (rowFor env u d₀) ≠ rowFor env u d₀ ∨
    SameVerdict op.today op.now (rowFor env u d₀) (rowFor env u d))

section
variable {env : Env} {u : Uuid} {op : HumanOp} {d d' : Db} {r ρ : UserGuildStats} {p : Db → Db}
  {v : Db → Prop} {x : Option (Option UserGuildStats × Bool)}
  {C : (Db → Prop) → Db → Prop}

theorem reviewOf_rowFor (h : rowPart u d = rowPart u d') :
    reviewOf (rowFor env u d) = reviewOf (rowFor env u d') := by
  have hrow : statsOf d u = statsOf d' u := congrArg Prod.fst h
  unfold rowFor
  rw [hrow]
  cases statsOf d' u <;> rfl

theorem local_updateStats (u : Uuid) (f : UserGuildStats → UserGuildStats)
    (hf : ∀ r, (f r).userId = r.userId) : (updateStats u f hf).Local (fun d => statsOf d u) := by
  refine Query.local_exec (fun d d' h => ?_)
  have hrow : d.userGuildStats.get u = d'.userGuildStats.get u := h
  rcases hr : d'.userGuildStats.get u with _ | r
  · simp [hrow, hr, Except.map]
  · by_cases hv : (f r).Valid
    · simp [hrow, hr, hv, Except.map, statsOf]
    · simp [hrow, hr, hv, Except.map]

theorem local_insertStats (row : UserGuildStats) :
    (insertStats row).Local (rowPart row.userId) := by
  refine Query.local_exec (fun d d' h => ?_)
  obtain ⟨hrow, huser⟩ := Prod.mk.inj h
  have hinsert : d.userGuildStats.insert row = none ↔ d'.userGuildStats.insert row = none := by
    rw [Table.insert_eq_none, Table.insert_eq_none]
    exact iff_of_eq (congrArg (fun o => o.isSome = true) hrow)
  rcases ht : d.userGuildStats.insert row with _ | t
  · have ht' := hinsert.mp ht
    simp [ht', Except.map, h]
  · rcases ht' : d'.userGuildStats.insert row with _ | t'
    · simp [ht] at hinsert
      exact absurd ht' hinsert
    · by_cases hv : row.Valid
      · by_cases hu : (d'.users.get row.userId).isSome = true
        · simp [hv, hu, huser, Db.userExists, Except.map, rowPart, statsOf,
            Table.get_insert_self ht, Table.get_insert_self ht']
        · simp [hv, hu, huser, Db.userExists, Except.map]
      · simp [hv, Except.map]

theorem statsOf_updateStats {f : UserGuildStats → UserGuildStats}
    {hf : ∀ r, (f r).userId = r.userId} (hr : statsOf d u = some r) (hv : (f r).Valid) :
    statsOf ((updateStats u f hf).run d).2 u = some (f r) := by
  rcases run_updateStats_cases u f hf d with ⟨e, he⟩ | ⟨r', d', hr', -, hrun, hget, -⟩
  · have hok : (updateStats u f hf).run d = (.ok (f r), _) := Query.run_exec_ok.mpr (by
      simp only [show d.userGuildStats.get u = some r from hr]
      exact if_pos hv)
    rw [hok] at he
    cases he
  · cases hr.symm.trans hr'
    rw [hrun]
    exact hget

theorem tracks_updateStats {f : UserGuildStats → UserGuildStats} {hf : ∀ r, (f r).userId = r.userId}
    {P : Option (Option UserGuildStats × Bool) → UserGuildStats → (Db → Db) → (Db → Prop) → Prop}
    (hguarded : ∀ d d', rowPart u d = rowPart u d' → statsOf (p d) u = statsOf (p d') u)
    (h : ∀ d r q w, (∀ y ∈ x, rowPart u d = y) → (x = none → C v d) → statsOf (p d) u = some r →
      (∀ d₁ d₂, rowPart u d₁ = rowPart u d₂ → statsOf (q d₁) u = statsOf (q d₂) u) →
      (∀ d', rowPart u d' = rowPart u d → statsOf (q d') u = some (f r)) →
      P (some (rowPart u d)) (f r) q w) :
    (updateStats u f hf).Tracks (.userGuildStats u) (rowPart u) C P x p v := by
  have hsingle : ∃ l g, updateStats u f hf = Tx.exec l g := ⟨_, _, rfl⟩
  apply Tx.tracks_single hsingle
  intro d a hd hc hok
  rcases run_updateStats_cases u f hf (p d) with ⟨e, he⟩ | ⟨r, d', hr, hv, hrun, -, -⟩
  · simp [he] at hok
  have hlock : RowLock.userGuildStats u ∈ (updateStats u f hf).locks (p d) := by
    change _ ∈ if ((p d).userGuildStats.get u).isSome then [RowLock.userGuildStats u] else []
    simp [show (p d).userGuildStats.get u = some r from hr]
  rw [hrun] at hok
  cases hok
  rw [if_pos hlock]
  refine h d r _ _ hd (hc hlock) hr (fun d₁ d₂ hpart => ?_) (fun d' hpart => ?_)
  · exact (local_updateStats u f hf).2.1 _ _ (hguarded d₁ d₂ hpart)
  · exact statsOf_updateStats ((hguarded d' d hpart).trans hr) hv

/-- What a session knows of the row when it has read it. -/
structure RowRead (env : Env) (u : Uuid) (policy : Policy)
    (x : Option (Option UserGuildStats × Bool)) (r : UserGuildStats) (p : Db → Db)
    (v : Db → Prop) : Prop where
  user : r.userId = u
  guarded : ∀ d d', rowPart u d = rowPart u d' → statsOf (p d) u = statsOf (p d') u
  row : ∀ d, ∀ ρ ∈ statsOf (p d) u, reviewOf ρ = reviewOf (rowFor env u d)
  read : ∀ d, v d → policyOf env d = policy ∧ rowFor env u d = r
  locked : ∀ d, x = some (rowPart u d) → reviewOf r = reviewOf (rowFor env u d)

theorem tracks_ensureUserGuildStats (policy : Policy) :
    (ensureUserGuildStats policy u).Tracks (.userGuildStats u) (rowPart u) C
      (fun x r p v => RowRead env u policy x r p v) none id
      (fun d => True ∧ policyOf env d = policy) := by
  have hrow : ∀ d, ∀ ρ ∈ statsOf ((insertStats (freshStats policy u)).run d).2 u,
      ρ = (statsOf d u).getD (freshStats policy u) := by
    intro d ρ hρ
    rcases run_insertStats_cases (freshStats policy u) d with ⟨e, he⟩ | ⟨d', hrun, hget, -⟩
    · rw [he] at hρ
      simp [show statsOf d u = some ρ from hρ]
    · rw [hrun] at hρ
      exact Option.some.inj (hρ.symm.trans hget)
  have hreview : ∀ d, reviewOf ((statsOf d u).getD (freshStats policy u)) =
      reviewOf (rowFor env u d) := by
    intro d
    unfold rowFor
    cases statsOf d u <;> rfl
  have hsingle : ∃ l f, insertStats (freshStats policy u) = Tx.exec l f := ⟨_, _, rfl⟩
  apply Tx.tracks_bind
  apply Tx.tracks_single hsingle
  intro d₁ _ _ _ _
  apply Tx.tracks_bind
  apply Tx.tracks_query
  intro d₂ hd₂
  apply Tx.tracks_okOr
  intro r hr
  have hr₂ : r = (statsOf d₂ u).getD (freshStats policy u) := hrow d₂ r hr
  constructor
  · exact Table.key_of_get hr
  · intro d d' hpart
    exact congrArg Prod.fst ((local_insertStats (freshStats policy u)).2.1 d d' hpart)
  · intro d ρ hρ
    rw [hrow d ρ hρ, hreview]
  · rintro d ⟨⟨⟨-, hpolicy⟩, -⟩, hsame⟩
    refine ⟨hpolicy, ?_⟩
    rw [rowFor, hpolicy]
    exact (hrow d r (hsame.trans hr)).symm
  · intro d hx
    rw [hr₂, hreview]
    exact reviewOf_rowFor (hd₂ _ hx)

/-- What a session knows before the activity update that it computes from `r`. -/
structure Loaded (env : Env) (u : Uuid) (op : HumanOp) (x : Option (Option UserGuildStats × Bool))
    (r : UserGuildStats) (p : Db → Db) (v : Db → Prop) : Prop where
  user : r.userId = u
  guarded : ∀ d d', rowPart u d = rowPart u d' → statsOf (p d) u = statsOf (p d') u
  row : ∀ d, (∀ y ∈ x, rowPart u d = y) → ∀ ρ ∈ statsOf (p d) u,
    reviewOf ρ = reviewOf (rowFor env u d)
  verdict : ∀ d, (∀ y ∈ x, rowPart u d = y) → (x = none → RowStands env u op v d) →
    SameVerdict op.today op.now r (rowFor env u d)

/-- The derived columns of the row are recomputed: if they were out of date, the row is locked and
read again. -/
theorem tracks_syncDerivedState {policy : Policy} (h : RowRead env u policy x r p v) :
    (syncDerivedState policy r).Tracks (.userGuildStats u) (rowPart u) (RowStands env u op)
      (fun x r p v => Loaded env u op x r p v) x p v := by
  obtain ⟨huser, hguarded, hrow, hread, hlocked⟩ := h
  unfold syncDerivedState
  dsimp only
  split
  · rename_i hsame
    refine ⟨huser, hguarded, fun d _ => hrow d, fun d hd hstands => ?_⟩
    rcases x with _ | y
    · obtain ⟨d₀, hv, hverdict⟩ := hstands rfl
      obtain ⟨hpolicy, hr⟩ := hread d₀ hv
      rw [hpolicy, hr] at hverdict
      exact hverdict.resolve_left (not_not.mpr (synced_eq_self hsame.1 hsame.2))
    · exact .of_review (hlocked d (congrArg some (hd y rfl).symm)) _ _
  · rw [huser]
    apply tracks_updateStats hguarded
    intro d r₁ q w _ _ hr₁ hq hwritten
    have hreview : ∀ d', rowPart u d' = rowPart u d → reviewOf r₁ = reviewOf (rowFor env u d') :=
      fun d' hd' => (hrow d r₁ hr₁).trans (reviewOf_rowFor hd'.symm)
    refine ⟨Table.key_of_get (hwritten d rfl), hq, fun d' hd' ρ hρ => ?_, fun d' hd' _ => ?_⟩
    · cases (hwritten d' (hd' _ rfl)).symm.trans hρ
      exact hreview d' (hd' _ rfl)
    · apply SameVerdict.of_review
      exact hreview d' (hd' _ rfl)

theorem tracks_loadStats (env : Env) (u : Uuid) (op : HumanOp) :
    (loadStats env u).Tracks (.userGuildStats u) (rowPart u) (RowStands env u op)
      (fun x b p v => Loaded env u op x b.2 p v) none id (fun _ => True) := by
  unfold loadStats loadGuildPolicyConn
  apply Tx.tracks_bind
  apply Tx.tracks_query
  intro d _
  apply Tx.tracks_bind
  apply Tx.tracks_mono (tracks_ensureUserGuildStats (policyOf env d))
  intro x r p v hread
  apply Tx.tracks_bind
  exact Tx.tracks_mono (tracks_syncDerivedState hread) (fun _ _ _ _ hloaded => hloaded)

/-- The row has been locked, when the database was `d`, and is `ρ` until the end. -/
structure Written (u : Uuid) (d : Db) (ρ : UserGuildStats)
    (x : Option (Option UserGuildStats × Bool)) (p : Db → Db) : Prop where
  locked : x = some (rowPart u d)
  guarded : ∀ d₁ d₂, rowPart u d₁ = rowPart u d₂ → statsOf (p d₁) u = statsOf (p d₂) u
  row : ∀ d', rowPart u d' = rowPart u d → statsOf (p d') u = some ρ

theorem Written.tracks {α : Type} {t : Query α} (h : Written u d ρ x p)
    (ht : t.Keeps (fun d => statsOf d u)) :
    t.Tracks (.userGuildStats u) (rowPart u) C (fun x _ p _ => Written u d ρ x p) x p v := by
  obtain ⟨rfl, hguarded, hrow⟩ := h
  apply Tx.tracks_mono (ht.tracks (rowPart u d) p v)
  rintro x _ q _ ⟨rfl, hq, -⟩
  refine ⟨rfl, fun d₁ d₂ hpart => ?_, fun d' hpart => ?_⟩
  · exact (hq d₁).trans ((hguarded d₁ d₂ hpart).trans (hq d₂).symm)
  · exact (hq d').trans (hrow d' hpart)

theorem Written.advance (h : Written u d ρ x p) (policy : Policy) (today : Int) :
    (advanceActiveDayIfNeeded policy ρ today).Tracks (.userGuildStats u) (rowPart u) C
      (fun x _ p _ => ∃ ρ', Written u d ρ' x p ∧
        reviewOf ρ' = { reviewOf ρ with lastActiveDay := some today }) x p v := by
  have huser : ρ.userId = u := Table.key_of_get (h.row d rfl)
  unfold advanceActiveDayIfNeeded
  split
  · rename_i hday
    refine ⟨ρ, h, ?_⟩
    rw [← hday]
    rfl
  · obtain ⟨rfl, hguarded, hrow⟩ := h
    rw [huser]
    apply tracks_updateStats hguarded
    intro d₁ r q _ hd₁ _ hr hq hwritten
    have hpart : rowPart u d₁ = rowPart u d := hd₁ _ rfl
    cases (hrow d₁ hpart).symm.trans hr
    exact ⟨_, ⟨congrArg some hpart, hq, fun d' hd' => hwritten d' (hd'.trans hpart.symm)⟩, rfl⟩

/-- The operation has locked the row, and leaves it with the review that its activity update
makes of it. -/
def Reviewed (env : Env) (u : Uuid) (op : HumanOp) (x : Option (Option UserGuildStats × Bool))
    (p : Db → Db) : Prop :=
  ∃ d ρ, Written u d ρ x p ∧ reviewOf ρ = reviewOf
    (activity (policyOf env d) (currentStats (policyOf env d) u (statsOf d u)) op.today op.now)

theorem Loaded.verdict_review (h : Loaded env u op x r p v) (hd : ∀ y ∈ x, rowPart u d = y)
    (hstands : x = none → RowStands env u op v d) :
    (reviewOf (rowFor env u d)).written (assessHumanActivity r op.today op.now) op.today op.now =
      reviewOf (activity (policyOf env d) (currentStats (policyOf env d) u (statsOf d u))
        op.today op.now) := by
  rw [(h.verdict d hd hstands).written, reviewOf_activity]
  rfl

theorem Loaded.tracks (h : Loaded env u op x r p v) (policy : Policy) (audit : Uuid) :
    (recordActivity policy r op.today op.now audit).Tracks (.userGuildStats u) (rowPart u)
      (RowStands env u op) (fun x _ p _ => Reviewed env u op x p) x p v := by
  unfold recordActivity updateHumanActivityState
  rw [h.user]
  apply Tx.tracks_bind
  apply Tx.tracks_bind
  apply tracks_updateStats h.guarded
  intro d r₁ q w hd hstands hr₁ hq hwritten
  have hreview := h.row d hd r₁ hr₁
  have hverdict := h.verdict_review hd hstands
  rw [← hreview] at hverdict
  apply Tx.tracks_bind
  have hwritten' : Written u d _ (some (rowPart u d)) q := ⟨rfl, hq, hwritten⟩
  apply Tx.tracks_mono (hwritten'.tracks (keeps_auditReviewState (fun _ _ => rfl) _ _ _))
  intro x' _ p' v' hw
  change Tx.Tracks _ _ _ _ (if _ then _ else _) x' p' v'
  split
  · rename_i hadvance
    apply Tx.tracks_mono (hw.advance policy op.today)
    rintro x'' _ p'' _ ⟨ρ, hw', hρ⟩
    refine ⟨d, ρ, hw', hρ.trans ?_⟩
    rw [← hverdict]
    simp [Review.written, reviewOf, hadvance]
  · rename_i hadvance
    refine ⟨d, _, hw, ?_⟩
    rw [← hverdict]
    simp [Review.written, reviewOf, hadvance]

theorem tracks_transaction (env : Env) (op : HumanOp) :
    (op.transaction env).Tracks (.userGuildStats op.user) (rowPart op.user)
      (RowStands env op.user op) (fun x _ p _ => Reviewed env op.user op x p) none id
      (fun _ => True) := by
  rw [op.transaction_eq]
  apply Tx.tracks_bind
  apply Tx.tracks_mono (tracks_loadStats env op.user op)
  intro x b p v hloaded
  apply Tx.tracks_bind
  apply Tx.tracks_mono (hloaded.tracks b.1 op.audit)
  rintro x' r p' v' ⟨d, ρ, hw, hρ⟩
  have hrows : (op.checked env b.1 r).Keeps (fun d => statsOf d op.user) :=
    (keeps_checked op).map (fun rows => rows.1.get op.user)
  apply Tx.tracks_mono (hw.tracks hrows)
  intro x'' _ p'' _ hw'
  exact ⟨d, ρ, hw', hρ⟩

end

/-! ## Concurrent calls -/

/-- The statements of a call. -/
inductive Statement (η : Type) where
  | update (q : η)
  | audit (q : η)
deriving DecidableEq, Repr

section
variable {ι η : Type}

/-- The transactions of human operations, and the statements of the calls about `u`. -/
def concurrent (env : Env) (u : Uuid) (ops : ι → HumanOp) (calls : η → FreezeCall) :
    ι ⊕ Statement η → Query Unit
  | .inl i => do
    let _ ← (ops i).transaction env
    pure ()
  | .inr (.update q) => (calls q).update u
  | .inr (.audit q) => insertAuditLog ((calls q).entry u)

/-- The operations, each of them on its own. -/
def alone (env : Env) (u : Uuid) (ops : ι → HumanOp) (calls : η → FreezeCall) :
    ι ⊕ η → Query Unit
  | .inl i => do
    let _ ← (ops i).transaction env
    pure ()
  | .inr q => (calls q).program u

/-- The operations that have been committed: a call counts from its update on. -/
def operations (log : List (ι ⊕ Statement η)) : List (ι ⊕ η) :=
  log.filterMap (fun e => match e with
    | .inl i => some (.inl i)
    | .inr (.update q) => some (.inr q)
    | .inr (.audit _) => none)

/-- What an operation makes of the row of `u`. -/
def rowAfter (policy : Policy) (u : Uuid) (ops : ι → HumanOp) (calls : η → FreezeCall)
    (o : Option UserGuildStats) : ι ⊕ η → Option UserGuildStats
  | .inl i => some (activity policy (currentStats policy u o) (ops i).today (ops i).now)
  | .inr q => o.map (calls q).columns

variable {env : Env} {u : Uuid} {ops : ι → HumanOp} {calls : η → FreezeCall} {d d' : Db}

theorem reviewOf_columns {o o' : Option UserGuildStats} (h : o.map reviewOf = o'.map reviewOf)
    (call : FreezeCall) :
    (o.map call.columns).map reviewOf = (o'.map call.columns).map reviewOf := by
  rcases o with _ | r <;> rcases o' with _ | r'
  · rfl
  · cases h
  · cases h
  · have hreview : reviewOf r = reviewOf r' := Option.some.inj h
    simp only [reviewOf, Review.mk.injEq] at hreview
    cases call <;> simp [FreezeCall.columns, frozenStats, clearedStats, reviewOf, hreview]

/-- Executed on its own, an operation does to the review of the row what `rowAfter` says. -/
theorem reviewOf_alone (hops : ∀ i, (ops i).user = u) (policy : Policy) {e : ι ⊕ η} {a : Unit}
    {o : Option UserGuildStats} (h : (alone env u ops calls e).run d = (.ok a, d'))
    (ho : (statsOf d u).map reviewOf = o.map reviewOf) :
    (statsOf d' u).map reviewOf = (rowAfter policy u ops calls o e).map reviewOf := by
  cases e with
  | inl i =>
    obtain ⟨action, d₁, hrun, hend⟩ := Tx.run_bind_eq_ok h
    cases hend
    have hcommits : (ops i).Commits env d := by
      simp [HumanOp.Commits, hrun, Except.isOk, Except.toBool]
    rcases (ops i).apply_cases env d with ⟨hno, -⟩ | ⟨-, -, hrow⟩
    · exact absurd hcommits hno
    · have hself := hrow.self
      rw [show (GuildOp.human (ops i)).apply env d = d' by
        simp [GuildOp.apply, Tx.atomically, hrun], hops i] at hself
      rw [hself]
      exact congrArg some (reviewOf_visit ho _ policy u _ _)
  | inr q =>
    rw [FreezeCall.run_program_ok h]
    exact reviewOf_columns ho (calls q)

theorem keeps_audit (call : FreezeCall) :
    (insertAuditLog (call.entry u)).Keeps (fun d => (statsOf d u, d.users)) :=
  keeps_insertAuditLog (fun _ _ => rfl) _

theorem rowPart_statement {e : Statement η} {a : Unit}
    (h : (concurrent env u ops calls (.inr e)).run d = (.ok a, d'))
    (hlock : RowLock.userGuildStats u ∉ (concurrent env u ops calls (.inr e)).locks d) :
    rowPart u d' = rowPart u d := by
  cases e with
  | update q =>
    have hnone : statsOf d u = none := by
      by_contra hne
      apply hlock
      change _ ∈ if (statsOf d u).isSome then [RowLock.userGuildStats u] else []
      simp [Option.isSome_iff_ne_none.mpr hne]
    rcases run_executeUpdateStats_cases u (calls q).columns (calls q).columns_id d with
      ⟨e, he⟩ | ⟨d₁, hrun, hrow, -, ⟨t, audits, rfl, -⟩⟩
    · rw [concurrent, FreezeCall.update, he] at h
      cases h
    · rw [concurrent, FreezeCall.update, hrun] at h
      cases h
      simp [rowPart, hrow, hnone]
  | audit q =>
    have hkeep := (keeps_audit (calls q)).of_run h
    simp only [Prod.mk.injEq] at hkeep
    simp [rowPart, hkeep]

/-- The review of the row is that of the committed operations, one after another. -/
def InOrder (policy : Policy) (u : Uuid) (ops : ι → HumanOp) (calls : η → FreezeCall)
    (o : Option UserGuildStats) (d : Db) (log : List (ι ⊕ Statement η)) : Prop :=
  (statsOf d u).map reviewOf =
    ((operations log).foldl (rowAfter policy u ops calls) o).map reviewOf

variable {policy : Policy} {o : Option UserGuildStats} {log : List (ι ⊕ Statement η)}

theorem InOrder.statement (hJ : InOrder policy u ops calls o d log) {e : Statement η} {a : Unit}
    (h : (concurrent env u ops calls (.inr e)).run d = (.ok a, d')) :
    InOrder policy u ops calls o d' (log ++ [.inr e]) := by
  unfold InOrder operations at hJ ⊢
  rw [List.filterMap_append, List.foldl_append]
  cases e with
  | update q =>
    rcases run_executeUpdateStats_cases u (calls q).columns (calls q).columns_id d with
      ⟨e, he⟩ | ⟨d₁, hrun, hrow, -, -⟩
    · rw [concurrent, FreezeCall.update, he] at h
      cases h
    · rw [concurrent, FreezeCall.update, hrun] at h
      cases h
      rw [hrow]
      exact reviewOf_columns hJ (calls q)
  | audit q =>
    have hkeep := (keeps_audit (calls q)).of_run h
    simp only [Prod.mk.injEq] at hkeep
    rw [hkeep.1]
    exact hJ

theorem InOrder.committed (hJ : InOrder policy u ops calls o d log) {i : ι} {p : Db → Db}
    (h : Reviewed env u (ops i) (some (rowPart u d)) p) :
    InOrder policy u ops calls o (p d) (log ++ [.inl i]) := by
  obtain ⟨d₀, ρ, ⟨hlocked, -, hrow⟩, hρ⟩ := h
  have hpart : rowPart u d = rowPart u d₀ := Option.some.inj hlocked
  have hstats : statsOf d u = statsOf d₀ u := congrArg Prod.fst hpart
  unfold InOrder operations at hJ ⊢
  rw [List.filterMap_append, List.foldl_append, hrow d hpart]
  rw [hstats] at hJ
  exact congrArg some (hρ.trans (reviewOf_visit hJ _ policy u _ _))

theorem state_streak_of_review {d d' : Db}
    (h : (statsOf d u).map reviewOf = (statsOf d' u).map reviewOf) :
    stateOf d u = stateOf d' u ∧ streakOf d u = streakOf d' u := by
  unfold stateOf streakOf
  rcases hr : statsOf d u with _ | r <;> rcases hr' : statsOf d' u with _ | r' <;> rw [hr, hr'] at h
  · exact ⟨rfl, rfl⟩
  · cases h
  · cases h
  · have hreview : reviewOf r = reviewOf r' := Option.some.inj h
    exact ⟨congrArg Review.state hreview, congrArg Review.streak hreview⟩

/-- If, whenever a human operation locks the row, the row that it has read is assessed as the
committed row is, the review of the row is that of the committed operations in the order of their
commits, and so are the state and the streak after any execution of them in this order. -/
theorem review_state_serial [DecidableEq ι] [DecidableEq η] (env : Env) (u : Uuid)
    (ops : ι → HumanOp) (hops : ∀ i, (ops i).user = u) (calls : η → FreezeCall) (db : Db)
    (moves : List (Move ι (Statement η))) (s : Sys (ι ⊕ Statement η) Db RowLock AppError Unit)
    (hrun : run (start (concurrent env u ops calls) db) (schedule moves) = some s)
    (hlocks : ReadCommitted.Along
      (LocksUnder (.userGuildStats u) (fun i => RowStands env u (ops i)))
      (start (concurrent env u ops calls) db) (schedule moves)) :
    (statsOf s.db u).map reviewOf = ((operations s.log).foldl
        (rowAfter (policyOf env db) u ops calls) (statsOf db u)).map reviewOf ∧
      ∀ d, Executes (alone env u ops calls) (operations s.log) db d →
        stateOf s.db u = stateOf d u ∧ streakOf s.db u = streakOf d u := by
  have horder : InOrder (policyOf env db) u ops calls (statsOf db u) s.db s.log := by
    have hprog : ∀ i, (concurrent env u ops calls (.inl i)).Tracks (.userGuildStats u) (rowPart u)
        (RowStands env u (ops i)) (fun x _ p _ => Reviewed env u (ops i) x p) none id
        (fun _ => True) := by
      intro i
      apply Tx.tracks_bind
      have htracks := tracks_transaction env (ops i)
      rw [hops i] at htracks
      exact Tx.tracks_mono htracks (fun _ _ _ _ hreviewed => hreviewed)
    apply tracked_run ?_ hprog ?_ ?_ ?_ ?_ rfl hlocks hrun
    · rintro (q | q)
      · exact ⟨_, _, rfl⟩
      · exact ⟨_, _, rfl⟩
    · rintro i a p v ⟨d, ρ, hw, -⟩
      cases hw.locked
    · exact fun e d a d' h hlock => rowPart_statement h hlock
    · exact fun i a p v d log hreviewed hJ => hJ.committed hreviewed
    · exact fun e d a d' log h hJ => hJ.statement h
  refine ⟨horder, fun d hd => state_streak_of_review (horder.trans ?_)⟩
  let J (d : Db) (o : Option UserGuildStats) : Prop := (statsOf d u).map reviewOf = o.map reviewOf
  have hstep : ∀ e d d' a o, (alone env u ops calls e).run d = (.ok a, d') → J d o →
      J d' (rowAfter (policyOf env db) u ops calls o e) :=
    fun e d d' a o h ho => reviewOf_alone hops (policyOf env db) h ho
  exact (hd.induction hstep rfl).symm

end

/-! ## A freeze that is lost -/

/-- An account that was active, and an administrator. -/
def activeAccount : Db := runHuman asciiEnv [activityAt 0 1] accountAndAdmin

def activityAndFreeze : Unit ⊕ Statement Unit → Query Unit :=
  concurrent asciiEnv 1 (fun _ => activityAt 60 2) (fun _ => .freeze (some 2) "spam" 9)

/-- The two statements of the freeze. -/
def freezing : List (Move Unit (Statement Unit)) :=
  [.own (.update ()) .commit, .own (.audit ()) .commit]

/-- The freeze, after the first `n` statements of the activity. -/
def freezeAfter (n : Nat) : List (Move Unit (Statement Unit)) :=
  List.replicate n (.tx () .stmt) ++ freezing ++ List.replicate (4 - n) (.tx () .stmt) ++
    [.tx () .commit]

def afterFreezeAt (n : Nat) : Option (Sys (Unit ⊕ Statement Unit) Db RowLock AppError Unit) :=
  run (start activityAndFreeze activeAccount) (schedule (freezeAfter n))

theorem rowStands_of_answers {env : Env} {u : Uuid} {op : HumanOp} {v : Db → Prop} {d : Db}
    (h : v d) : RowStands env u op v d :=
  ⟨d, h, .inr (.of_review rfl _ _)⟩

theorem answersStand_early : ReadCommitted.Along AnswersStand
    (start activityAndFreeze activeAccount) (schedule (freezeAfter 1)) := by
  let s₀ := start activityAndFreeze activeAccount
  let s₁ := (run s₀ [(.inl (), .stmt)]).get (by decide)
  let s₂ := (run s₁ (schedule [.own (.update ()) .commit])).get (by decide)
  let s₃ := (run s₂ (schedule [.own (.audit ()) .commit])).get (by decide)
  have h₀ : ReadCommitted.Along AnswersStand s₀ [(.inl (), .stmt)] :=
    along_answersStand (i := .inl ()) (by decide) (by intro c hc; cases hc; trivial)
  have h₁ : ReadCommitted.Along AnswersStand s₁ (schedule [.own (.update ()) .commit]) :=
    along_answersStand (i := .inr (.update ())) (by decide) (by intro c hc; cases hc; trivial)
  have h₂ : ReadCommitted.Along AnswersStand s₂ (schedule [.own (.audit ()) .commit]) :=
    along_answersStand (i := .inr (.audit ())) (by decide) (by intro c hc; cases hc; trivial)
  have h₃ : ReadCommitted.Along AnswersStand s₃
      (schedule (List.replicate 3 (.tx () .stmt) ++ [.tx () .commit])) :=
    along_answersStand (i := .inl ()) (by decide) (by intro c hc; cases hc; exact ⟨trivial, rfl⟩)
  exact h₀.append (Option.some_get _).symm
    (h₁.append (Option.some_get _).symm (h₂.append (Option.some_get _).symm h₃))

theorem review_state_serial_early :
    ∃ d, Executes (alone asciiEnv 1 (fun _ => activityAt 60 2)
        (fun _ => .freeze (some 2) "spam" 9)) [.inr (), .inl ()] activeAccount d ∧
      stateOf ((afterFreezeAt 1).get (by decide)).db 1 = stateOf d 1 ∧
      streakOf ((afterFreezeAt 1).get (by decide)).db 1 = streakOf d 1 := by
  have hserial := (review_state_serial asciiEnv 1 (fun _ => activityAt 60 2) (fun _ => rfl)
    (fun _ => .freeze (some 2) "spam" 9) activeAccount (freezeAfter 1)
    ((afterFreezeAt 1).get (by decide)) (Option.some_get _).symm
    (along_locksUnder (fun _ _ _ => rowStands_of_answers) answersStand_early)).2
  have hlog : operations ((afterFreezeAt 1).get (by decide)).log = [.inr (), .inl ()] := by decide
  rw [hlog] at hserial
  have hd : Executes (alone asciiEnv 1 (fun _ => activityAt 60 2)
      (fun _ => .freeze (some 2) "spam" 9)) [.inr (), .inl ()] activeAccount _ :=
    ⟨(), _, Prod.ext (by decide) rfl, (), _, Prod.ext (by decide) rfl, rfl⟩
  exact ⟨_, hd, hserial _ hd⟩

/-- The row has been read before the freeze, and is written after it: it is clear, where any order
of the two leaves it frozen. -/
theorem freeze_overwritten :
    ∃ (env : Env) (u : Uuid) (ops : Unit → HumanOp) (calls : Unit → FreezeCall) (db : Db)
      (moves : List (Move Unit (Statement Unit)))
      (s : Sys (Unit ⊕ Statement Unit) Db RowLock AppError Unit),
      Reachable env db ∧ (∀ i, (ops i).user = u) ∧
      run (start (concurrent env u ops calls) db) (schedule moves) = some s ∧
      stateOf s.db u = .clear ∧ operations s.log = [.inr (), .inl ()] ∧
      ∀ order, order.Perm (operations s.log) →
        ∃ d, Executes (alone env u ops calls) order db d ∧ stateOf d u = .frozen := by
  have hlog : operations ((afterFreezeAt 3).get (by decide)).log = [.inr (), .inl ()] := by decide
  refine ⟨asciiEnv, 1, fun _ => activityAt 60 2, fun _ => .freeze (some 2) "spam" 9, activeAccount,
    freezeAfter 3, (afterFreezeAt 3).get (by decide), runHuman_reachable (.start (fun _ => rfl)) _,
    fun _ => rfl, (Option.some_get _).symm, by decide, hlog, fun order horder => ?_⟩
  rw [hlog, ← List.mem_permutations'] at horder
  have horders : order = [.inr (), .inl ()] ∨ order = [.inl (), .inr ()] := by
    simpa [List.permutations', List.permutations'Aux] using horder
  rcases horders with rfl | rfl
  · exact ⟨_, ⟨(), _, Prod.ext (by decide) rfl, (), _, Prod.ext (by decide) rfl, rfl⟩, by decide⟩
  · exact ⟨_, ⟨(), _, Prod.ext (by decide) rfl, (), _, Prod.ext (by decide) rfl, rfl⟩, by decide⟩

end SyncServer.Guild
