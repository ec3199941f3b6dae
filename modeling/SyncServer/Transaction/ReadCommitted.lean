import SyncServer.Transaction.Program

/-! # Interleaved transactions at READ COMMITTED

Any number of transactions run one statement at a time. A statement sees the
committed database with the transaction's own writes on top, and waits for the
rows it locks; locks are kept until the transaction ends. Commit publishes the
writes. A transaction may be rolled back at any point.
-/

namespace SyncServer.Transaction.ReadCommitted
set_option linter.unusedSectionVars false
variable {ι σ κ ε α : Type} [DecidableEq ι] [DecidableEq κ]

/-- An open transaction: what is left of its program, its uncommitted writes, and
the databases on which its statements would have given the answers they gave. -/
structure Session (σ κ ε α : Type) : Type 1 where
  rest : Tx σ κ ε α
  pending : σ → σ
  agrees : σ → Prop

inductive Status (σ κ ε α : Type) : Type 1 where
  | active (session : Session σ κ ε α)
  | committed (result : α)
  | rolledBack

/-- The committed database, the row locks, every transaction, and the commit order. -/
structure Sys (ι σ κ ε α : Type) : Type 1 where
  db : σ
  owner : κ → Option ι
  status : ι → Status σ κ ε α
  log : List ι

inductive Action where
  | stmt
  | commit
  | rollback
deriving DecidableEq, Repr

def start (program : ι → Tx σ κ ε α) (db : σ) : Sys ι σ κ ε α where
  db := db
  owner _ := none
  status i := .active ⟨program i, id, fun _ => True⟩
  log := []

/-- Ending a transaction gives up all of its rows. -/
def release (owner : κ → Option ι) (i : ι) : κ → Option ι :=
  fun k => if owner k = some i then none else owner k

omit [DecidableEq κ] in
theorem release_of_ne {owner : κ → Option ι} {i j : ι} {k : κ} (h : owner k = some j)
    (hij : j ≠ i) : release owner i k = some j := by
  simp [release, h, hij]

/-- One move of transaction `i`; `none` when it is not possible, or has to wait. -/
def step (s : Sys ι σ κ ε α) : ι × Action → Option (Sys ι σ κ ε α)
  | (i, act) =>
    match s.status i, act with
    | .active ⟨.stmt l w a n, p, v⟩, .stmt =>
      if ∀ k ∈ l (p s.db), s.owner k = none ∨ s.owner k = some i then
        some { s with
          owner := fun k => if k ∈ l (p s.db) then some i else s.owner k
          status := Function.update s.status i
            (.active ⟨n (a (p s.db)), w ∘ p, fun d => v d ∧ a (p d) = a (p s.db)⟩) }
      else none
    | .active ⟨.done (.ok a), p, _⟩, .commit =>
      some {
        db := p s.db
        owner := release s.owner i
        status := Function.update s.status i (.committed a)
        log := s.log ++ [i] }
    | .active _, .rollback =>
      some { s with
        owner := release s.owner i
        status := Function.update s.status i .rolledBack }
    | _, _ => none

def run (s : Sys ι σ κ ε α) : List (ι × Action) → Option (Sys ι σ κ ε α)
  | [] => some s
  | e :: es => (step s e).bind (fun s' => run s' es)

/-- All that a move can do. -/
theorem step_cases {s s' : Sys ι σ κ ε α} {i : ι} {act : Action}
    (h : step s (i, act) = some s') :
    (∃ (ρ : Type) (l : σ → List κ) (w : σ → σ) (a : σ → ρ) (n : ρ → Tx σ κ ε α) (p : σ → σ)
        (v : σ → Prop),
      act = .stmt ∧ s.status i = .active ⟨.stmt l w a n, p, v⟩ ∧
      (∀ k ∈ l (p s.db), s.owner k = none ∨ s.owner k = some i) ∧
      s' = { s with
        owner := fun k => if k ∈ l (p s.db) then some i else s.owner k
        status := Function.update s.status i
          (.active ⟨n (a (p s.db)), w ∘ p, fun d => v d ∧ a (p d) = a (p s.db)⟩) }) ∨
    (∃ (r : α) (p : σ → σ) (v : σ → Prop),
      act = .commit ∧ s.status i = .active ⟨.done (.ok r), p, v⟩ ∧
      s' = {
        db := p s.db
        owner := release s.owner i
        status := Function.update s.status i (.committed r)
        log := s.log ++ [i] }) ∨
    (∃ session : Session σ κ ε α,
      act = .rollback ∧ s.status i = .active session ∧
      s' = { s with
        owner := release s.owner i
        status := Function.update s.status i .rolledBack }) := by
  rcases hs : s.status i with ⟨rest, p, v⟩ | r | _
  · cases act with
    | stmt =>
      cases rest with
      | done r => cases r <;> simp [step, hs] at h
      | stmt l w a n =>
        simp only [step, hs, Option.ite_none_right_eq_some, Option.some.injEq] at h
        exact .inl ⟨_, l, w, a, n, p, v, rfl, rfl, h.1, h.2.symm⟩
    | commit =>
      cases rest with
      | done r =>
        cases r with
        | ok r =>
          simp only [step, hs, Option.some.injEq] at h
          exact .inr (.inl ⟨r, p, v, rfl, rfl, h.symm⟩)
        | error e => simp [step, hs] at h
      | stmt l w a n => simp [step, hs] at h
    | rollback =>
      simp only [step, hs, Option.some.injEq] at h
      exact .inr (.inr ⟨⟨rest, p, v⟩, rfl, rfl, h.symm⟩)
  · cases act <;> simp [step, hs] at h
  · cases act <;> simp [step, hs] at h

theorem run_cons {s s' : Sys ι σ κ ε α} {e : ι × Action} {es : List (ι × Action)} :
    run s (e :: es) = some s' ↔ ∃ t, step s e = some t ∧ run t es = some s' := by
  simp [run, Option.bind_eq_some_iff]

/-- Every move of a schedule is made in a state that satisfies `C`. -/
def Along (C : Sys ι σ κ ε α → ι × Action → Prop) (s : Sys ι σ κ ε α) :
    List (ι × Action) → Prop
  | [] => True
  | e :: es => C s e ∧ ∀ t, step s e = some t → Along C t es

/-- What holds at the start and is kept by every move made under `C` holds at the end. -/
theorem run_induction {C : Sys ι σ κ ε α → ι × Action → Prop} {P : Sys ι σ κ ε α → Prop}
    (hstep : ∀ s e s', C s e → P s → step s e = some s' → P s')
    {s s' : Sys ι σ κ ε α} {es : List (ι × Action)}
    (h0 : P s) (hc : Along C s es) (h : run s es = some s') : P s' := by
  induction es generalizing s with
  | nil => cases h; exact h0
  | cons e es ih =>
    obtain ⟨t, ht, hrun⟩ := run_cons.mp h
    exact ih (hstep s e t hc.1 h0 ht) (hc.2 t ht) hrun

theorem run_append {s t : Sys ι σ κ ε α} {es es' : List (ι × Action)} (h : run s es = some t) :
    run s (es ++ es') = run t es' := by
  induction es generalizing s with
  | nil =>
    cases h
    rfl
  | cons e es ih =>
    obtain ⟨t', ht', hrun⟩ := run_cons.mp h
    rw [List.cons_append, run, ht', Option.bind_some, ih hrun]

theorem Along.at {C : Sys ι σ κ ε α → ι × Action → Prop} {s t : Sys ι σ κ ε α}
    {es es' : List (ι × Action)} {e : ι × Action} (h : Along C s (es ++ e :: es'))
    (hrun : run s es = some t) : C t e := by
  induction es generalizing s with
  | nil =>
    cases hrun
    exact h.1
  | cons e' es ih =>
    obtain ⟨t', ht', hrun⟩ := run_cons.mp hrun
    exact ih (h.2 t' ht') hrun

theorem active_of_step {s s' : Sys ι σ κ ε α} {e : ι × Action} (h : step s e = some s') {i : ι}
    {c : Session σ κ ε α} (hc : s'.status i = .active c) : ∃ c', s.status i = .active c' := by
  obtain ⟨j, act⟩ := e
  obtain ⟨ρ, l, w, a, n, p, v, -, hst, -, rfl⟩ | ⟨r, p, v, -, hst, rfl⟩ | ⟨c', -, hst, rfl⟩ :=
    step_cases h
  all_goals
    by_cases hij : i = j
    · exact hij ▸ ⟨_, hst⟩
    · simp only [Function.update_of_ne hij] at hc
      exact ⟨c, hc⟩

theorem run_log {s s' : Sys ι σ κ ε α} {es : List (ι × Action)} (h : run s es = some s') :
    ∃ more, s'.log = s.log ++ more ∧ ∀ i ∈ more, ∃ c, s.status i = .active c := by
  induction es generalizing s with
  | nil =>
    cases h
    exact ⟨[], by simp, by simp⟩
  | cons e es ih =>
    obtain ⟨t, ht, hrun⟩ := run_cons.mp h
    obtain ⟨more, hlog, hmore⟩ := ih hrun
    have hback : ∀ i ∈ more, ∃ c, s.status i = .active c := by
      intro i hi
      obtain ⟨c, hc⟩ := hmore i hi
      exact active_of_step ht hc
    obtain ⟨j, act⟩ := e
    obtain ⟨ρ, l, w, a, n, p, v, -, hst, -, rfl⟩ | ⟨r, p, v, -, hst, rfl⟩ | ⟨c', -, hst, rfl⟩ :=
      step_cases ht
    · exact ⟨more, hlog, hback⟩
    · refine ⟨j :: more, by simpa using hlog, fun i hi => ?_⟩
      rcases List.mem_cons.mp hi with rfl | hi
      · exact ⟨_, hst⟩
      · exact hback i hi
    · exact ⟨more, hlog, hback⟩

theorem along_of_forall {C : Sys ι σ κ ε α → ι × Action → Prop} (h : ∀ s e, C s e)
    (s : Sys ι σ κ ε α) (es : List (ι × Action)) : Along C s es := by
  induction es generalizing s with
  | nil => trivial
  | cons e es ih => exact ⟨h s e, fun t _ => ih t⟩

theorem along_true (s : Sys ι σ κ ε α) (es : List (ι × Action)) :
    Along (fun _ _ => True) s es := along_of_forall (fun _ _ => trivial) s es

/-! ## Replay

The session of a transaction is a partial execution of its program. On any
database that gives the same answers the whole program does exactly what the
session did and then what is left of it. -/

/-- `session` is reached from `program` by executing some of its statements. -/
inductive Path (program : Tx σ κ ε α) : Session σ κ ε α → Prop where
  | refl : Path program ⟨program, id, fun _ => True⟩
  | step {ρ : Type} {l : σ → List κ} {w : σ → σ} {a : σ → ρ} {n : ρ → Tx σ κ ε α}
      {p : σ → σ} {v : σ → Prop} (d : σ) (h : Path program ⟨.stmt l w a n, p, v⟩) :
      Path program ⟨n (a (p d)), w ∘ p, fun d' => v d' ∧ a (p d') = a (p d)⟩

theorem Path.replay {program : Tx σ κ ε α} {c : Session σ κ ε α} (h : Path program c)
    {d : σ} (hd : c.agrees d) : program.run d = c.rest.run (c.pending d) := by
  induction h with
  | refl => rfl
  | step d₀ _ ih =>
    rw [ih hd.1]
    simp only [Tx.run_stmt, Function.comp_apply, hd.2]

/-- The state of every transaction is a partial execution of its own program. -/
def Consistent (program : ι → Tx σ κ ε α) (s : Sys ι σ κ ε α) : Prop :=
  ∀ i c, s.status i = .active c → Path (program i) c

theorem start_consistent (program : ι → Tx σ κ ε α) (db : σ) :
    Consistent program (start program db) := by
  intro i c h
  cases h
  exact .refl

theorem step_consistent {program : ι → Tx σ κ ε α} {s s' : Sys ι σ κ ε α} {e : ι × Action}
    (hc : Consistent program s) (h : step s e = some s') : Consistent program s' := by
  obtain ⟨i, act⟩ := e
  intro j c hj
  obtain ⟨ρ, l, w, a, n, p, v, -, hs, -, rfl⟩ | ⟨r, p, v, -, hs, rfl⟩ | ⟨c', -, hs, rfl⟩ :=
    step_cases h
  all_goals
    by_cases hij : j = i
    · subst hij
      simp only [Function.update_self] at hj
      cases hj
      try exact .step s.db (hc j _ hs)
    · simp only [Function.update_of_ne hij] at hj
      exact hc j c hj

/-! ## Serial executions -/

/-- Execute whole transactions one after another. -/
def serial (program : ι → Tx σ κ ε α) (order : List ι) (db : σ) : σ :=
  order.foldl (fun d i => ((program i).atomically d).2) db

@[simp] theorem serial_nil (program : ι → Tx σ κ ε α) (db : σ) :
    serial program [] db = db := rfl

@[simp] theorem serial_append (program : ι → Tx σ κ ε α) (l l' : List ι) (db : σ) :
    serial program (l ++ l') db = serial program l' (serial program l db) := by
  simp [serial]

@[simp] theorem serial_singleton (program : ι → Tx σ κ ε α) (i : ι) (db : σ) :
    serial program [i] db = ((program i).atomically db).2 := rfl

theorem serial_induction {program : ι → Tx σ κ ε α} {P : σ → Prop}
    (hP : ∀ i d d' a, (program i).run d = (.ok a, d') → P d → P d') {db : σ} (h : P db)
    (order : List ι) : P (serial program order db) := by
  induction order generalizing db with
  | nil => exact h
  | cons i order ih =>
    rw [serial, List.foldl_cons]
    apply ih
    rcases Tx.atomically_snd_cases (program i) db with ⟨a, hrun⟩ | hs
    · exact hP i _ _ a hrun h
    · rw [hs]
      exact h

/-- From `d` the transactions, executed in this order, all commit and lead to `d'`. -/
def Executes (program : ι → Tx σ κ ε α) : List ι → σ → σ → Prop
  | [], d, d' => d' = d
  | i :: order, d, d' => ∃ a d₁, (program i).run d = (.ok a, d₁) ∧ Executes program order d₁ d'

/-- What each transaction makes of `b` is what all of them make of it, one after another. -/
theorem Executes.induction {β : Type} {program : ι → Tx σ κ ε α} {J : σ → β → Prop}
    {f : β → ι → β} (hf : ∀ i d d' a b, (program i).run d = (.ok a, d') → J d b → J d' (f b i))
    {order : List ι} {d d' : σ} {b : β} (h : Executes program order d d') (hJ : J d b) :
    J d' (order.foldl f b) := by
  induction order generalizing d b with
  | nil =>
    cases h
    exact hJ
  | cons i order ih =>
    obtain ⟨a, d₁, hrun, hrest⟩ := h
    exact ih hrest (hf i d d₁ a b hrun hJ)

/-- At its commit a transaction would still get every answer it got. -/
def ReadsStand (s : Sys ι σ κ ε α) (e : ι × Action) : Prop :=
  e.2 = .commit → ∀ c, s.status e.1 = .active c → c.agrees s.db

theorem run_serial {program : ι → Tx σ κ ε α} {db : σ} {es : List (ι × Action)}
    {s : Sys ι σ κ ε α} (h : run (start program db) es = some s)
    (hr : Along ReadsStand (start program db) es) : s.db = serial program s.log db := by
  refine (run_induction (C := ReadsStand)
    (P := fun s => Consistent program s ∧ s.db = serial program s.log db) ?_
    ⟨start_consistent program db, rfl⟩ hr h).2
  rintro s ⟨i, act⟩ s' hread ⟨hc, hdb⟩ hs
  refine ⟨step_consistent hc hs, ?_⟩
  obtain ⟨ρ, l, w, a, n, p, v, -, hst, -, rfl⟩ | ⟨r, p, v, rfl, hst, rfl⟩ | ⟨c, -, hst, rfl⟩ :=
    step_cases hs
  · exact hdb
  · have hrun : (program i).run s.db = (.ok r, p s.db) := (hc i _ hst).replay (hread rfl _ hst)
    rw [serial_append, serial_singleton, ← hdb, Tx.atomically_ok hrun]
  · exact hdb

/-! ## Results of a serial execution -/

/-- The results of the transactions of a log. -/
def results (status : ι → Status σ κ ε α) (log : List ι) : List α :=
  log.filterMap (fun i => match status i with
    | .committed a => some a
    | _ => none)

/-- Every transaction of the log has committed. -/
def LogCommitted (status : ι → Status σ κ ε α) (log : List ι) : Prop :=
  ∀ i ∈ log, ∃ a, status i = .committed a

section
variable {status : ι → Status σ κ ε α} {log : List ι} {i : ι} {c : Session σ κ ε α}

omit [DecidableEq κ] in
theorem update_eq_of_log (hl : LogCommitted status log) (hi : status i = .active c)
    (x : Status σ κ ε α) : ∀ j ∈ log, Function.update status i x j = status j := by
  intro j hj
  apply Function.update_of_ne
  rintro rfl
  obtain ⟨a, ha⟩ := hl j hj
  rw [hi] at ha
  cases ha

omit [DecidableEq κ] in
theorem results_update (hl : LogCommitted status log) (hi : status i = .active c)
    (x : Status σ κ ε α) : results (Function.update status i x) log = results status log := by
  have h := update_eq_of_log hl hi x
  unfold results
  clear hl
  induction log with
  | nil => rfl
  | cons j log ih =>
    rw [List.filterMap_cons, List.filterMap_cons, h j List.mem_cons_self,
      ih (fun k hk => h k (List.mem_cons_of_mem _ hk))]

omit [DecidableEq κ] in
theorem LogCommitted.update (hl : LogCommitted status log) (hi : status i = .active c)
    (x : Status σ κ ε α) : LogCommitted (Function.update status i x) log := by
  intro j hj
  rw [update_eq_of_log hl hi x j hj]
  exact hl j hj

omit [DecidableEq κ] in
theorem results_commit (hl : LogCommitted status log) (hi : status i = .active c) (a : α) :
    results (Function.update status i (.committed a)) (log ++ [i]) = results status log ++ [a] := by
  rw [← results_update hl hi (.committed a), results, List.filterMap_append]
  simp [results]

omit [DecidableEq κ] in
theorem LogCommitted.commit (hl : LogCommitted status log) (hi : status i = .active c) (a : α) :
    LogCommitted (Function.update status i (.committed a)) (log ++ [i]) := by
  intro j hj
  rw [List.mem_append, List.mem_singleton] at hj
  rcases hj with hj | rfl
  · exact hl.update hi _ j hj
  · exact ⟨a, Function.update_self ..⟩

end

/-- If each transaction alone changes a measure of the database by a function of its
result, then so do transactions that never commit on outdated answers. -/
theorem run_fold {β : Type} {program : ι → Tx σ κ ε α} {m : σ → β} {g : β → α → β}
    (hm : ∀ i d d' a, (program i).run d = (.ok a, d') → m d' = g (m d) a)
    {db : σ} {es : List (ι × Action)} {s : Sys ι σ κ ε α}
    (h : run (start program db) es = some s) (hr : Along ReadsStand (start program db) es) :
    m s.db = (results s.status s.log).foldl g (m db) := by
  refine (run_induction (C := ReadsStand) (P := fun s => Consistent program s ∧
    LogCommitted s.status s.log ∧ m s.db = (results s.status s.log).foldl g (m db)) ?_
    ⟨start_consistent program db, by simp [LogCommitted, start], rfl⟩ hr h).2.2
  rintro s ⟨i, act⟩ s' hread ⟨hc, hl, hdb⟩ hs
  refine ⟨step_consistent hc hs, ?_⟩
  obtain ⟨ρ, l, w, a, n, p, v, -, hst, -, rfl⟩ | ⟨r, p, v, rfl, hst, rfl⟩ | ⟨c, -, hst, rfl⟩ :=
    step_cases hs
  · exact ⟨hl.update hst _, hdb.trans (by rw [results_update hl hst])⟩
  · have hrun : (program i).run s.db = (.ok r, p s.db) := (hc i _ hst).replay (hread rfl _ hst)
    refine ⟨hl.commit hst r, ?_⟩
    rw [results_commit hl hst, List.foldl_append, ← hdb]
    exact hm i _ _ _ hrun
  · exact ⟨hl.update hst _, hdb.trans (by rw [results_update hl hst])⟩

theorem Along.mono {C C' : Sys ι σ κ ε α → ι × Action → Prop} (hC : ∀ s e, C s e → C' s e)
    {es : List (ι × Action)} {s : Sys ι σ κ ε α} (h : Along C s es) : Along C' s es := by
  induction es generalizing s with
  | nil => trivial
  | cons e es ih => exact ⟨hC s e h.1, fun t ht => ih (h.2 t ht)⟩

theorem Along.append {C : Sys ι σ κ ε α → ι × Action → Prop} {es es' : List (ι × Action)}
    {s t : Sys ι σ κ ε α} (h : Along C s es) (hrun : run s es = some t) (h' : Along C t es') :
    Along C s (es ++ es') := by
  induction es generalizing s with
  | nil =>
    cases hrun
    exact h'
  | cons e es ih =>
    obtain ⟨t', ht', hrun⟩ := run_cons.mp hrun
    refine ⟨h.1, fun t₁ ht₁ => ?_⟩
    cases ht'.symm.trans ht₁
    exact ih (h.2 t' ht') hrun

/-- Every answer that the transaction has got is still the answer of the committed database. -/
def AnswersStand (s : Sys ι σ κ ε α) (e : ι × Action) : Prop :=
  ∀ c, s.status e.1 = .active c → c.agrees s.db

theorem along_answersStand {i : ι} {es : List (ι × Action)} (hes : ∀ e ∈ es, e.1 = i)
    {s : Sys ι σ κ ε α} (h : ∀ c, s.status i = .active c → c.agrees s.db) :
    Along AnswersStand s es := by
  induction es generalizing s with
  | nil => trivial
  | cons e es ih =>
    obtain ⟨j, act⟩ := e
    obtain rfl : j = i := hes _ List.mem_cons_self
    refine ⟨h, fun t ht => ih (fun e he => hes e (List.mem_cons_of_mem _ he)) ?_⟩
    intro c hc
    obtain ⟨ρ, l, w, a, n, p, v, -, hst, -, rfl⟩ | ⟨r, p, v, -, hst, rfl⟩ | ⟨c', -, hst, rfl⟩ :=
      step_cases ht
    all_goals
      simp only [Function.update_self] at hc
      cases hc
    exact ⟨h _ hst, rfl⟩

theorem along_alone {i : ι} {es : List (ι × Action)} (hes : ∀ e ∈ es, e.1 = i)
    {s : Sys ι σ κ ε α} (h : ∀ c, s.status i = .active c → c.agrees s.db) :
    Along ReadsStand s es :=
  (along_answersStand hes h).mono (fun _ _ hstand _ c hc => hstand c hc)

end SyncServer.Transaction.ReadCommitted
