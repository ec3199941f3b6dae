import SyncServer.Transaction.Frame
import SyncServer.Transaction.ReadCommitted

/-! # Transactions among statements of their own

Some clients run transactions, others send statements that are committed at once. `Tracks` says
what becomes of a transaction that locks a guarding row: before the lock whatever the committed
databases are, and afterwards as long as they agree on the part that the row guards.
-/

namespace SyncServer.Transaction

namespace Tx
variable {σ κ ε α β τ ρ : Type} [DecidableEq κ]

/-- The rows that the next statement locks. -/
def locks : Tx σ κ ε α → σ → List κ
  | .done _, _ => []
  | .stmt l _ _ _, d => l d

/-- After the writes `p`, with answers that stand for the databases in `v`, the program ends with
what satisfies `P`. `x` is the guarded part at the lock of the row `g`, if it has been locked; when
it is locked, `C` may be used of the answers so far and the committed database. -/
def Tracks (g : κ) (part : σ → τ) (C : (σ → Prop) → σ → Prop)
    (P : Option τ → α → (σ → σ) → (σ → Prop) → Prop) :
    Tx σ κ ε α → Option τ → (σ → σ) → (σ → Prop) → Prop
  | .done (.ok a), x, p, v => P x a p v
  | .done (.error _), _, _, _ => True
  | .stmt l w a n, x, p, v => ∀ d, (∀ y ∈ x, part d = y) → (g ∈ l (p d) → x = none → C v d) →
      (n (a (p d))).Tracks g part C P (if g ∈ l (p d) then some (part d) else x) (w ∘ p)
        (fun d' => v d' ∧ a (p d') = a (p d))

variable {g : κ} {part : σ → τ} {C : (σ → Prop) → σ → Prop}
  {P P' : Option τ → α → (σ → σ) → (σ → Prop) → Prop} {x : Option τ} {p : σ → σ} {v : σ → Prop}

theorem tracks_bind {t : Tx σ κ ε β} {f : β → Tx σ κ ε α}
    (h : t.Tracks g part C (fun x b p v => (f b).Tracks g part C P x p v) x p v) :
    (t >>= f).Tracks g part C P x p v := by
  induction t generalizing x p v with
  | done r =>
    cases r with
    | ok b => exact h
    | error e => trivial
  | stmt l w a n ih => exact fun d hd hc => ih _ (h d hd hc)

theorem tracks_mono {t : Tx σ κ ε α} (h : t.Tracks g part C P x p v)
    (hP : ∀ x a p v, P x a p v → P' x a p v) : t.Tracks g part C P' x p v := by
  induction t generalizing x p v with
  | done r =>
    cases r with
    | ok a => exact hP x a p v h
    | error e => trivial
  | stmt l w a n ih => exact fun d hd hc => ih _ (h d hd hc)

theorem tracks_query {q : σ → α} (h : ∀ d, (∀ y ∈ x, part d = y) →
    P x (q (p d)) p (fun d' => v d' ∧ q (p d') = q (p d))) :
    (query q : Tx σ κ ε α).Tracks g part C P x p v := by
  intro d hd _
  simpa [Tracks] using h d hd

theorem tracks_exec {l : σ → List κ} {f : σ → Except ε (α × σ)}
    (h : ∀ d a, (∀ y ∈ x, part d = y) → (g ∈ l (p d) → x = none → C v d) →
      outcome f (p d) = .ok a → P (if g ∈ l (p d) then some (part d) else x) a (effect f ∘ p)
        (fun d' => v d' ∧ outcome f (p d') = .ok a)) : (exec l f).Tracks g part C P x p v := by
  intro d hd hc
  rcases ho : outcome f (p d) with e | a
  · trivial
  · exact h d a hd hc ho

theorem tracks_single {t : Tx σ κ ε α} (ht : ∃ l f, t = exec l f)
    (h : ∀ d a, (∀ y ∈ x, part d = y) → (g ∈ t.locks (p d) → x = none → C v d) →
      (t.run (p d)).1 = .ok a → P (if g ∈ t.locks (p d) then some (part d) else x) a
        (fun d' => (t.run (p d')).2) (fun d' => v d' ∧ (t.run (p d')).1 = .ok a)) :
    t.Tracks g part C P x p v := by
  obtain ⟨l, f, rfl⟩ := ht
  exact tracks_exec h

theorem tracks_okOr {e : ε} {o : Option α} (h : ∀ a ∈ o, P x a p v) :
    (okOr e o : Tx σ κ ε α).Tracks g part C P x p v := by
  cases o with
  | none => trivial
  | some a => exact h a rfl

/-- Under the lock a program that keeps `π` leaves it as it was before. -/
theorem Keeps.tracks {π : σ → ρ} {t : Tx σ κ ε α} (h : t.Keeps π) (y : τ) (p : σ → σ)
    (v : σ → Prop) : t.Tracks g part C (fun x _ q v' => x = some y ∧ (∀ d, π (q d) = π (p d)) ∧
      ∀ d, v' d → v d) (some y) p v := by
  induction t generalizing p v with
  | done r =>
    cases r with
    | ok a => exact ⟨rfl, fun d => rfl, fun d hd => hd⟩
    | error e => trivial
  | stmt l w a n ih =>
    intro d hd _
    have hlocked : (if g ∈ l (p d) then some (part d) else some y) = some y := by
      simp [hd y rfl]
    rw [hlocked]
    apply tracks_mono (ih (a (p d)) (h.2 _) (w ∘ p) _)
    rintro x b q v' ⟨rfl, hq, hv'⟩
    exact ⟨rfl, fun d' => (hq d').trans (h.1 (p d')), fun d' hd' => (hv' d' hd').1⟩

end Tx

namespace ReadCommitted
set_option linter.unusedSectionVars false
variable {ι η σ κ ε α β τ : Type} [DecidableEq ι] [DecidableEq η] [DecidableEq κ]

/-- A move of a transaction, or a statement with the commit or the rollback that follows it at
once. -/
inductive Move (ι η : Type) where
  | tx (i : ι) (act : Action)
  | own (q : η) (last : Action)
deriving DecidableEq, Repr

def Move.steps : Move ι η → List ((ι ⊕ η) × Action)
  | tx i act => [(.inl i, act)]
  | own q last => [(.inr q, .stmt), (.inr q, last)]

def schedule (moves : List (Move ι η)) : List ((ι ⊕ η) × Action) := moves.flatMap Move.steps

/-- When transaction `i` locks the row `g`, its answers and the committed database satisfy
`C i`. -/
def LocksUnder (g : κ) (C : ι → (σ → Prop) → σ → Prop) (s : Sys (ι ⊕ η) σ κ ε α)
    (e : (ι ⊕ η) × Action) : Prop :=
  ∀ i c, e = (.inl i, .stmt) → s.status (.inl i) = .active c →
    g ∈ c.rest.locks (c.pending s.db) → s.owner g ≠ some (.inl i) → C i c.agrees s.db

theorem along_locksUnder {g : κ} {C : ι → (σ → Prop) → σ → Prop} (hC : ∀ i v d, v d → C i v d)
    {s : Sys (ι ⊕ η) σ κ ε α} {es : List ((ι ⊕ η) × Action)} (h : Along AnswersStand s es) :
    Along (LocksUnder g C) s es := by
  apply h.mono
  rintro s e hstand i c rfl hc - -
  exact hC i c.agrees s.db (hstand c hc)

section
variable {g : κ} {part : σ → τ} {C : ι → (σ → Prop) → σ → Prop}
  {P : ι → Option τ → α → (σ → σ) → (σ → Prop) → Prop} {program : ι ⊕ η → Tx σ κ ε α}
  {s s' : Sys (ι ⊕ η) σ κ ε α}

/-- Every open transaction is on its way, with the guarded part as it was at its lock, and no
statement of its own is under way. -/
structure Tracked (g : κ) (part : σ → τ) (C : ι → (σ → Prop) → σ → Prop)
    (P : ι → Option τ → α → (σ → σ) → (σ → Prop) → Prop) (program : ι ⊕ η → Tx σ κ ε α)
    (s : Sys (ι ⊕ η) σ κ ε α) : Prop where
  tx : ∀ i c, s.status (.inl i) = .active c → ∃ x,
    c.rest.Tracks g part (C i) (P i) x c.pending c.agrees ∧
      (x = none → s.owner g ≠ some (.inl i)) ∧
      ∀ y ∈ x, s.owner g = some (.inl i) ∧ part s.db = y
  own : ∀ q c, s.status (.inr q) = .active c → c = ⟨program (.inr q), id, fun _ => True⟩
  owner : ∀ q, s.owner g ≠ some (.inr q)

theorem start_tracked (hprog : ∀ i, (program (.inl i)).Tracks g part (C i) (P i) none id
    (fun _ => True)) (db : σ) : Tracked g part C P program (start program db) where
  tx i c hc := by
    cases hc
    exact ⟨none, hprog i, fun _ => by simp [start], by simp⟩
  own q c hc := by
    cases hc
    rfl
  owner q := by simp [start]

/-- A statement of a transaction. -/
theorem Tracked.stmt (h : Tracked g part C P program s) {i : ι} {ρ : Type} {l : σ → List κ}
    {w : σ → σ} {a : σ → ρ} {n : ρ → Tx σ κ ε α} {p : σ → σ} {v : σ → Prop}
    (hst : s.status (.inl i) = .active ⟨.stmt l w a n, p, v⟩)
    (hfree : ∀ k ∈ l (p s.db), s.owner k = none ∨ s.owner k = some (.inl i))
    (hlock : LocksUnder g C s (.inl i, .stmt)) :
    Tracked g part C P program { s with
      owner := fun k => if k ∈ l (p s.db) then some (.inl i) else s.owner k
      status := Function.update s.status (.inl i)
        (.active ⟨n (a (p s.db)), w ∘ p, fun d => v d ∧ a (p d) = a (p s.db)⟩) } where
  tx j c hc := by
    by_cases hij : j = i
    · subst hij
      simp only [Function.update_self] at hc
      cases hc
      obtain ⟨x, htracks, hnone, hsome⟩ := h.tx j _ hst
      refine ⟨_, htracks s.db (fun y hy => (hsome y hy).2)
        (fun hg hx => hlock j _ rfl hst hg (hnone hx)), ?_⟩
      by_cases hg : g ∈ l (p s.db)
      · simp [hg]
      · simpa [hg] using ⟨hnone, hsome⟩
    · have hne : (Sum.inl j : ι ⊕ η) ≠ .inl i := fun he => hij (Sum.inl.inj he)
      simp only [Function.update_of_ne hne] at hc
      obtain ⟨x, htracks, hnone, hsome⟩ := h.tx j c hc
      refine ⟨x, htracks, fun hx => ?_, fun y hy => ⟨?_, (hsome y hy).2⟩⟩
      · by_cases hg : g ∈ l (p s.db)
        · simpa [hg] using fun he => hij he.symm
        · simpa [hg] using hnone hx
      · -- a row that is locked is not free for another transaction
        have hg : g ∉ l (p s.db) := by
          intro hg
          have howner := (hsome y hy).1
          rcases hfree g hg with hf | hf <;> rw [hf] at howner
          · cases howner
          · exact hij (Sum.inl.inj (Option.some.inj howner)).symm
        simpa [hg] using (hsome y hy).1
  own q c hc := h.own q c (by simpa using hc)
  owner q := by
    by_cases hg : g ∈ l (p s.db)
    · simp [hg]
    · simpa [hg] using h.owner q

omit [DecidableEq κ] in
theorem release_ne {owner : κ → Option (ι ⊕ η)} {i j : ι ⊕ η} {k : κ} (h : owner k ≠ some j) :
    release owner i k ≠ some j := by
  unfold release
  split
  · simp
  · exact h

/-- The end of `i`, which changes the guarded part only if nobody else has locked the row. -/
theorem Tracked.ended (h : Tracked g part C P program s) {i : ι} {db : σ}
    {st : Status σ κ ε α} (hst : ∀ c, st ≠ .active c) (log : List (ι ⊕ η))
    (hpart : ∀ j, j ≠ i → s.owner g = some (.inl j) → part db = part s.db) :
    Tracked g part C P program
      ⟨db, release s.owner (.inl i), Function.update s.status (.inl i) st, log⟩ where
  tx j c hc := by
    by_cases hij : j = i
    · subst hij
      simp only [Function.update_self] at hc
      exact absurd hc (hst c)
    · have hne : (Sum.inl j : ι ⊕ η) ≠ .inl i := fun he => hij (Sum.inl.inj he)
      simp only [Function.update_of_ne hne] at hc
      obtain ⟨x, htracks, hnone, hsome⟩ := h.tx j c hc
      refine ⟨x, htracks, fun hx => release_ne (hnone hx), fun y hy => ?_⟩
      obtain ⟨howner, hy⟩ := hsome y hy
      exact ⟨release_of_ne howner hne, (hpart j hij howner).trans hy⟩
  own q c hc := h.own q c (by simpa using hc)
  owner q := release_ne (h.owner q)

/-- A statement of its own, with the end that follows it. -/
theorem Tracked.own_ended (h : Tracked g part C P program s) {q : η} {l : σ → List κ} {db : σ}
    {st : Status σ κ ε α} (hst : ∀ c, st ≠ .active c) (log : List (ι ⊕ η))
    (hfree : ∀ k ∈ l s.db, s.owner k = none ∨ s.owner k = some (.inr q))
    (hpart : g ∉ l s.db → part db = part s.db) :
    Tracked g part C P program
      ⟨db, release (fun k => if k ∈ l s.db then some (.inr q) else s.owner k) (.inr q),
        Function.update s.status (.inr q) st, log⟩ := by
  -- at the end the owner of the row is who it was before
  have howner : release (fun k => if k ∈ l s.db then some (.inr q) else s.owner k) (.inr q) g =
      s.owner g := by
    unfold release
    by_cases hg : g ∈ l s.db
    · have hnone := (hfree g hg).resolve_right (h.owner q)
      simp [hg, hnone]
    · simpa [hg] using fun he => absurd he (h.owner q)
  constructor
  · intro i c hc
    simp only [ne_eq, reduceCtorEq, not_false_eq_true, Function.update_of_ne] at hc
    obtain ⟨x, htracks, hnone, hsome⟩ := h.tx i c hc
    refine ⟨x, htracks, fun hx => ?_, fun y hy => ?_⟩
    · simpa only [howner] using hnone hx
    · obtain ⟨hi, hy⟩ := hsome y hy
      refine ⟨howner.trans hi, (hpart fun hg => ?_).trans hy⟩
      rcases hfree g hg with hf | hf <;> rw [hf] at hi <;> cases hi
  · intro r c hc
    by_cases hrq : r = q
    · subst hrq
      simp only [Function.update_self] at hc
      exact absurd hc (hst c)
    · have hne : (Sum.inr r : ι ⊕ η) ≠ .inr q := fun he => hrq (Sum.inr.inj he)
      simp only [Function.update_of_ne hne] at hc
      exact h.own r c hc
  · intro r
    simpa only [howner] using h.owner r

/-- A statement of its own and its end: it is committed, or leaves the database as it was. -/
theorem own_cases {q : η} {last : Action} {s₁ s₂ : Sys (ι ⊕ η) σ κ ε α}
    (hsingle : ∃ l f, program (.inr q) = Tx.exec l f)
    (hown : ∀ c, s.status (.inr q) = .active c → c = ⟨program (.inr q), id, fun _ => True⟩)
    (hs₁ : step s (.inr q, .stmt) = some s₁) (hs₂ : step s₁ (.inr q, last) = some s₂) :
    ∃ db st log, (∀ c, st ≠ .active c) ∧
      (∀ k ∈ (program (.inr q)).locks s.db, s.owner k = none ∨ s.owner k = some (.inr q)) ∧
      s₂ = ⟨db, release (fun k => if k ∈ (program (.inr q)).locks s.db then some (.inr q)
        else s.owner k) (.inr q), Function.update s.status (.inr q) st, log⟩ ∧
      ((∃ a, (program (.inr q)).run s.db = (.ok a, db) ∧ log = s.log ++ [.inr q]) ∨
        db = s.db ∧ log = s.log) := by
  obtain ⟨l, f, hexec⟩ := hsingle
  rw [hexec] at hown ⊢
  obtain ⟨ρ, l', w, a, n, p, v, -, hst, hfree, rfl⟩ | ⟨r, p, v, hact, -⟩ | ⟨c, hact, -⟩ :=
    step_cases hs₁
  swap
  · cases hact
  swap
  · cases hact
  cases hown _ hst
  obtain ⟨ρ, l', w, a, n, p, v, -, hst', -⟩ | ⟨r, p, v, -, hst', rfl⟩ | ⟨c, -, -, rfl⟩ :=
    step_cases hs₂
  · simp at hst'
  · simp only [Function.update_self, Status.active.injEq, Session.mk.injEq, Tx.done.injEq] at hst'
    obtain ⟨hr, rfl, -⟩ := hst'
    refine ⟨Tx.effect f s.db, .committed r, _, by simp, hfree, ?_, .inl ⟨r, ?_, rfl⟩⟩
    · rw [Function.update_idem]
      rfl
    · rw [Tx.run_exec]
      exact Prod.ext hr rfl
  · refine ⟨s.db, .rolledBack, s.log, by simp, hfree, ?_, .inr ⟨rfl, rfl⟩⟩
    rw [Function.update_idem]
    rfl

/-- Whatever the committed transactions and statements keep of the database and the log holds at the
end of every schedule in which the row is locked under `C`. -/
theorem tracked_run {J : σ → List (ι ⊕ η) → Prop}
    (hown : ∀ q, ∃ l f, program (.inr q) = Tx.exec l f)
    (hprog : ∀ i, (program (.inl i)).Tracks g part (C i) (P i) none id (fun _ => True))
    (hfree : ∀ i a p v, ¬ P i none a p v)
    (hpart : ∀ q d a d', (program (.inr q)).run d = (.ok a, d') →
      g ∉ (program (.inr q)).locks d → part d' = part d)
    (htx : ∀ i a p v d log, P i (some (part d)) a p v → J d log → J (p d) (log ++ [.inl i]))
    (hstmt : ∀ q d a d' log, (program (.inr q)).run d = (.ok a, d') → J d log →
      J d' (log ++ [.inr q]))
    {db : σ} (h0 : J db []) {moves : List (Move ι η)}
    (hlocks : Along (LocksUnder g C) (start program db) (schedule moves))
    (h : run (start program db) (schedule moves) = some s) : J s.db s.log := by
  suffices hmoves : ∀ (moves : List (Move ι η)) (s₀ : Sys (ι ⊕ η) σ κ ε α),
      Tracked g part C P program s₀ → J s₀.db s₀.log →
      Along (LocksUnder g C) s₀ (schedule moves) → run s₀ (schedule moves) = some s →
      J s.db s.log from hmoves moves _ (start_tracked hprog db) h0 hlocks h
  intro moves
  induction moves with
  | nil =>
    intro s₀ _ hJ _ hrun
    cases hrun
    exact hJ
  | cons move moves ih =>
    intro s₀ hinv hJ hlocks hrun
    cases move with
    | tx i act =>
      obtain ⟨s₁, hs, hrun⟩ := run_cons.mp hrun
      have hrest := hlocks.2 s₁ hs
      obtain ⟨ρ, l, w, a, n, p, v, rfl, hst, hfree', rfl⟩ | ⟨r, p, v, rfl, hst, rfl⟩ |
        ⟨c, rfl, hst, rfl⟩ := step_cases hs
      · exact ih _ (hinv.stmt hst hfree' hlocks.1) hJ hrest hrun
      · obtain ⟨x, hP, hnone, hsome⟩ := hinv.tx i _ hst
        rcases x with _ | y
        · exact absurd hP (hfree i r p v)
        obtain ⟨howner, rfl⟩ := hsome y rfl
        refine ih _ (hinv.ended (by simp) _ fun j hij hj => ?_) (htx i r p v _ _ hP hJ) hrest hrun
        exact absurd (Sum.inl.inj (Option.some.inj (hj.symm.trans howner))) hij
      · exact ih _ (hinv.ended (by simp) _ fun _ _ _ => rfl) hJ hrest hrun
    | own q last =>
      obtain ⟨s₁, hs₁, hrun⟩ := run_cons.mp hrun
      obtain ⟨s₂, hs₂, hrun⟩ := run_cons.mp hrun
      have hrest := (hlocks.2 s₁ hs₁).2 s₂ hs₂
      obtain ⟨db', st, log, hactive, hfree', rfl, hend⟩ := own_cases (hown q) (hinv.own q) hs₁ hs₂
      have hinv' : part db' = part s₀.db ∨ g ∈ (program (.inr q)).locks s₀.db := by
        rcases hend with ⟨a, hok, -⟩ | ⟨rfl, -⟩
        · by_cases hg : g ∈ (program (.inr q)).locks s₀.db
          · exact .inr hg
          · exact .inl (hpart q _ a _ hok hg)
        · exact .inl rfl
      apply ih _ (hinv.own_ended hactive log hfree' fun hg => hinv'.resolve_right hg) ?_ hrest hrun
      rcases hend with ⟨a, hok, rfl⟩ | ⟨rfl, rfl⟩
      · exact hstmt q _ a _ _ hok hJ
      · exact hJ

end
end ReadCommitted
end SyncServer.Transaction
