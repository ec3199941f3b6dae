import SyncServer.Transaction.Frame
import SyncServer.Transaction.ReadCommitted

/-! # Transactions serialised by one row lock

A guarded transaction first reads without locks, and then enters a body whose
first statement locks a fixed row. Whatever the unlocked part saw, the body
works on the data as they are at the commit: until then every other guarded
transaction waits for the row, and the unguarded ones do not touch what the
body reads.
-/

namespace SyncServer.Transaction

namespace Tx
variable {σ κ ε α β : Type}

/-- The program begins with a statement that locks row `g`, unless it fails at once. -/
def StartsLocked (g : κ) : Tx σ κ ε α → Prop
  | .done _ => False
  | .stmt l _ a n => ∀ d, g ∈ l d ∨ ∃ e, n (a d) = .done (.error e)

theorem startsLocked_bind {g : κ} {t : Tx σ κ ε α} {f : α → Tx σ κ ε β} (h : t.StartsLocked g) :
    (t >>= f).StartsLocked g := by
  cases t with
  | done r => cases h
  | stmt l w a n =>
    intro d
    rcases h d with hl | ⟨e, he⟩
    · exact .inl hl
    · exact .inr ⟨e, congrArg (· >>= f) he⟩

theorem startsLocked_exec {g : κ} {l : σ → List κ} {f : σ → Except ε (α × σ)}
    (h : ∀ d, g ∈ l d ∨ ∃ e, outcome f d = .error e) : (exec l f).StartsLocked g := by
  intro d
  rcases h d with hl | ⟨e, he⟩
  · exact .inl hl
  · exact .inr ⟨e, congrArg done he⟩

/-- On databases with `I` the program makes writes with `W` only and returns nothing but
results with `P`. -/
def Does (I : σ → Prop) (W : (σ → σ) → Prop) (P : α → Prop) : Tx σ κ ε α → Prop
  | .done (.ok a) => P a
  | .done (.error _) => True
  | .stmt _ w a n => W w ∧ ∀ d, I d → (n (a d)).Does I W P

theorem does_bind {I : σ → Prop} {W : (σ → σ) → Prop} {P : α → Prop} {Q : β → Prop}
    {t : Tx σ κ ε α} {f : α → Tx σ κ ε β} (ht : t.Does I W P)
    (hf : ∀ a, P a → (f a).Does I W Q) : (t >>= f).Does I W Q := by
  induction t with
  | done r =>
    cases r with
    | ok a => exact hf a ht
    | error e => trivial
  | stmt l w a n ih => exact ⟨ht.1, fun d hd => ih (a d) (ht.2 d hd)⟩

theorem does_query {I : σ → Prop} {W : (σ → σ) → Prop} {P : α → Prop} (hw : W id) {q : σ → α}
    (h : ∀ d, I d → P (q d)) : (query q : Tx σ κ ε α).Does I W P := ⟨hw, h⟩

theorem does_exec {I : σ → Prop} {W : (σ → σ) → Prop} {P : α → Prop}
    {f : σ → Except ε (α × σ)} (hw : W (effect f))
    (h : ∀ d, I d → ∀ a, outcome f d = .ok a → P a) (l : σ → List κ) :
    (exec l f).Does I W P := by
  refine ⟨hw, fun d hd => ?_⟩
  rcases ho : outcome f d with e | a
  · trivial
  · exact h d hd a ho

theorem does_okOr {I : σ → Prop} {W : (σ → σ) → Prop} {P : α → Prop} (e : ε) {o : Option α}
    (h : ∀ a ∈ o, P a) : (okOr e o : Tx σ κ ε α).Does I W P := by
  cases o with
  | none => trivial
  | some a => exact h a rfl

end Tx

namespace ReadCommitted
set_option linter.unusedSectionVars false
variable {ι σ κ ε α β τ : Type} [DecidableEq ι] [DecidableEq κ]

/-- The protected part `part` of the database, what no transaction changes of it, the
guarding row, and the writes that a transaction may make before it has locked that row. -/
structure Guard (σ κ τ : Type) where
  row : κ
  part : σ → τ
  fixed : σ → Prop
  early : (σ → σ) → Prop
  fixed_part : ∀ d d', part d = part d' → fixed d → fixed d'
  early_id : early id
  early_comp : ∀ w w', early w → early w' → early (w ∘ w')
  early_part : ∀ w, early w → ∀ d d', part d = part d' → part (w d) = part (w d')
  early_fixed : ∀ w, early w → ∀ d, fixed d → fixed (w d)

variable (G : Guard σ κ τ) (good : β → Prop)

/-- What the locked part of a guarded transaction has to satisfy. -/
structure Body (body : β → Tx σ κ ε α) : Prop where
  locks : ∀ b, good b → (body b).StartsLocked G.row
  reads : ∀ b, (body b).Local G.part
  keeps : ∀ b, (body b).Writes (fun w => ∀ d, G.fixed d → G.fixed (w d))

/-- `program` is an unlocked reading part followed by a body that starts with the lock. -/
structure Guarded (program : Tx σ κ ε α) (pre : Tx σ κ ε β) (body : β → Tx σ κ ε α) : Prop
    extends Body G good body where
  eq : program = pre >>= body
  reading : pre.Does G.fixed G.early good

/-- A program that never changes the protected part, and has no results but `idle` ones. -/
def Harmless (idle : α → Prop) (program : Tx σ κ ε α) : Prop :=
  program.Does (fun _ => True) (fun w => ∀ d, G.part (w d) = G.part d) idle

/-- The guarded transaction `c` has not reached its body yet, or has failed. -/
def Outside (body : β → Tx σ κ ε α) (c : Session σ κ ε α) : Prop :=
  (∃ e, c.rest = .done (.error e)) ∨
    ∃ pre : Tx σ κ ε β, c.rest = pre >>= body ∧ pre.Does G.fixed G.early good ∧
      G.early c.pending

/-- The guarded transaction `c` has entered its body after the writes `p`, and has got as
far as `c'` in it, with answers that stand for database `db`. -/
structure Entered (body : β → Tx σ κ ε α) (db : σ) (c : Session σ κ ε α) (b : β) (p : σ → σ)
    (c' : Session σ κ ε α) : Prop where
  good : good b
  early : G.early p
  path : Path (body b) c'
  rest : c.rest = c'.rest
  pending : c.pending = c'.pending ∘ p
  agrees : c'.agrees (p db)
  reads : c'.rest.Local G.part
  keeps : c'.rest.Writes (fun w => ∀ d, G.fixed d → G.fixed (w d))
  fixed : ∀ d, G.fixed d → G.fixed (c'.pending d)
  agrees_part : ∀ d d', G.part d = G.part d' → c'.agrees d → c'.agrees d'
  pending_part : ∀ d d', G.part d = G.part d' → G.part (c'.pending d) = G.part (c'.pending d')

def Inside (body : β → Tx σ κ ε α) (db : σ) (c : Session σ κ ε α) : Prop :=
  ∃ b p c', Entered G good body db c b p c'

variable {G} {good} {idle : α → Prop}
variable {program : ι → Tx σ κ ε α} {pre : ι → Tx σ κ ε β} {body : ι → β → Tx σ κ ε α}
  {guarded : ι → Prop}

/-- Everyone in a body holds the guarding row; the unguarded never change the
protected part. -/
structure GuardInv (G : Guard σ κ τ) (good : β → Prop) (idle : α → Prop)
    (body : ι → β → Tx σ κ ε α) (guarded : ι → Prop) (s : Sys ι σ κ ε α) : Prop where
  fixed : G.fixed s.db
  inside : ∀ i c, guarded i → s.status i = .active c →
    Outside G good (body i) c ∨ (Inside G good (body i) s.db c ∧ s.owner G.row = some i)
  outside : ∀ i c, ¬ guarded i → s.status i = .active c →
    Harmless G idle c.rest ∧ ∀ d, G.part (c.pending d) = G.part d

theorem start_guardInv (hg : ∀ i, guarded i → Guarded G good (program i) (pre i) (body i))
    (hh : ∀ i, ¬ guarded i → Harmless G idle (program i)) {db : σ} (hdb : G.fixed db) :
    GuardInv G good idle body guarded (start program db) where
  fixed := hdb
  inside i c hi hc := by
    cases hc
    exact .inl (.inr ⟨pre i, (hg i hi).eq, (hg i hi).reading, G.early_id⟩)
  outside i c hi hc := by
    cases hc
    exact ⟨hh i hi, fun _ => rfl⟩

theorem Entered.first {ρ : Type} {l : σ → List κ} {w : σ → σ} {a : σ → ρ} {n : ρ → Tx σ κ ε α}
    {p : σ → σ} {v : σ → Prop} {body : β → Tx σ κ ε α} {b : β} (hbody : Body G good body)
    (hb : body b = .stmt l w a n) (hgood : good b) (hp : G.early p) (db : σ) :
    Inside G good body db ⟨n (a (p db)), w ∘ p, v⟩ := by
  have hloc := hbody.reads b
  have hkeep := hbody.keeps b
  rw [hb] at hloc hkeep
  have hpath : Path (body b) ⟨.stmt l w a n, id, fun _ => True⟩ := hb ▸ Path.refl
  refine ⟨b, p, _, hgood, hp, hpath.step (p db), rfl, rfl, ⟨trivial, rfl⟩, hloc.2.2 _, hkeep.2 _,
    hkeep.1, ?_, hloc.2.1⟩
  rintro d d' hd ⟨-, he⟩
  exact ⟨trivial, (hloc.1 d d' hd).symm.trans he⟩

theorem Outside.stmt {ρ : Type} {l : σ → List κ} {w : σ → σ} {a : σ → ρ} {n : ρ → Tx σ κ ε α}
    {p : σ → σ} {v v' : σ → Prop} {body : β → Tx σ κ ε α} (hbody : Body G good body)
    (h : Outside G good body ⟨.stmt l w a n, p, v⟩) {db : σ} (hdb : G.fixed db) :
    Outside G good body ⟨n (a (p db)), w ∘ p, v'⟩ ∨
      (Inside G good body db ⟨n (a (p db)), w ∘ p, v'⟩ ∧ G.row ∈ l (p db)) := by
  obtain ⟨e, he⟩ | ⟨pre, hrest, hdoes, hp⟩ := h
  · cases he
  cases pre with
  | done r =>
    cases r with
    | error e => cases hrest
    | ok b =>
      have hb : body b = .stmt l w a n := hrest.symm
      have hlock := hbody.locks b hdoes
      rw [hb] at hlock
      rcases hlock (p db) with hrow | hfail
      · exact .inr ⟨Entered.first hbody hb hdoes hp db, hrow⟩
      · exact .inl (.inl hfail)
  | stmt l' w' a' n' =>
    cases hrest
    have hcomp : G.early (w ∘ p) := G.early_comp w p hdoes.1 hp
    exact .inl (.inr ⟨n' (a (p db)), rfl, hdoes.2 _ (G.early_fixed p hp db hdb), hcomp⟩)

theorem Inside.stmt {ρ : Type} {l : σ → List κ} {w : σ → σ} {a : σ → ρ} {n : ρ → Tx σ κ ε α}
    {p : σ → σ} {v v' : σ → Prop} {body : β → Tx σ κ ε α} {db : σ}
    (h : Inside G good body db ⟨.stmt l w a n, p, v⟩) :
    Inside G good body db ⟨n (a (p db)), w ∘ p, v'⟩ := by
  obtain ⟨b, p₀, ⟨rest, q, v₀⟩, h⟩ := h
  cases h.rest
  cases h.pending
  refine ⟨b, p₀, _, h.good, h.early, h.path.step (p₀ db), rfl, rfl, ⟨h.agrees, rfl⟩,
    h.reads.2.2 _, h.keeps.2 _, fun d hd => h.keeps.1 _ (h.fixed d hd), ?_, ?_⟩
  · rintro d d' hd ⟨h₁, h₂⟩
    exact ⟨h.agrees_part d d' hd h₁, (h.reads.1 _ _ (h.pending_part d d' hd)).symm.trans h₂⟩
  · exact fun d d' hd => h.reads.2.1 _ _ (h.pending_part d d' hd)

theorem Inside.of_part {body : β → Tx σ κ ε α} {db db' : σ} {c : Session σ κ ε α}
    (h : Inside G good body db c) (hd : G.part db' = G.part db) : Inside G good body db' c := by
  obtain ⟨b, p, c', h⟩ := h
  exact ⟨b, p, c', { h with
    agrees := h.agrees_part _ _ (G.early_part p h.early _ _ hd.symm) h.agrees }⟩

theorem Outside.not_done {body : β → Tx σ κ ε α} (hbody : Body G good body)
    {r : α} {p : σ → σ} {v : σ → Prop} : ¬ Outside G good body ⟨.done (.ok r), p, v⟩ := by
  rintro (⟨e, he⟩ | ⟨pre, hrest, hdoes, -⟩)
  · cases he
  cases pre with
  | done x =>
    cases x with
    | error e => cases hrest
    | ok b =>
      have hb : body b = .done (.ok r) := hrest.symm
      have hlock := hbody.locks b hdoes
      rw [hb] at hlock
      exact hlock
  | stmt l w a n => cases hrest

theorem Inside.commit {body : β → Tx σ κ ε α} {db : σ} {r : α} {p : σ → σ} {v : σ → Prop}
    (h : Inside G good body db ⟨.done (.ok r), p, v⟩) (hdb : G.fixed db) :
    G.fixed (p db) ∧ ∃ b p₀, good b ∧ G.early p₀ ∧ (body b).run (p₀ db) = (.ok r, p db) := by
  obtain ⟨b, p₀, c', h⟩ := h
  have hp : p = c'.pending ∘ p₀ := h.pending
  refine ⟨?_, b, p₀, h.good, h.early, ?_⟩
  · rw [hp]
    exact h.fixed _ (G.early_fixed p₀ h.early db hdb)
  · rw [h.path.replay h.agrees, ← h.rest, hp]
    rfl

/-- Transaction `i` ends, and nobody else's protected data change. -/
theorem GuardInv.finish {s : Sys ι σ κ ε α} {i : ι} {db' : σ} {log' : List ι}
    {st : Status σ κ ε α} (h : GuardInv G good idle body guarded s) (hst : ∀ c, st ≠ .active c)
    (hfix : G.fixed db')
    (hd : ∀ j, j ≠ i → s.owner G.row = some j → G.part db' = G.part s.db) :
    GuardInv G good idle body guarded
      ⟨db', release s.owner i, Function.update s.status i st, log'⟩ where
  fixed := hfix
  inside j c hj hc := by
    by_cases hij : j = i
    · subst hij
      exact absurd (Function.update_self j st s.status ▸ hc) (hst c)
    · simp only [Function.update_of_ne hij] at hc
      exact (h.inside j c hj hc).imp_right
        (fun ⟨hin, hown⟩ => ⟨hin.of_part (hd j hij hown), release_of_ne hown hij⟩)
  outside j c hj hc := by
    by_cases hij : j = i
    · subst hij
      exact absurd (Function.update_self j st s.status ▸ hc) (hst c)
    · simp only [Function.update_of_ne hij] at hc
      exact h.outside j c hj hc

theorem step_guardInv (hbody : ∀ i, guarded i → Body G good (body i))
    {s s' : Sys ι σ κ ε α} {e : ι × Action} (h : GuardInv G good idle body guarded s)
    (hs : step s e = some s') : GuardInv G good idle body guarded s' := by
  obtain ⟨i, act⟩ := e
  obtain ⟨ρ, l, w, a, n, p, v, -, hst, hfree, rfl⟩ | ⟨r, p, v, -, hst, rfl⟩ | ⟨c₀, -, hst, rfl⟩ :=
    step_cases hs
  · -- a statement: only the session of `i` moves, and only free rows get a new owner
    constructor
    · exact h.fixed
    · intro j c hj hc
      by_cases hij : j = i
      · subst hij
        simp only [Function.update_self] at hc
        cases hc
        rcases h.inside j _ hj hst with hout | ⟨hin, hown⟩
        · rcases hout.stmt (hbody j hj) h.fixed with hout | ⟨hin, hlock⟩
          · exact .inl hout
          · exact .inr ⟨hin, if_pos hlock⟩
        · exact .inr ⟨hin.stmt, by simp [hown]⟩
      · simp only [Function.update_of_ne hij] at hc
        refine (h.inside j c hj hc).imp_right (fun ⟨hin, hown⟩ => ⟨hin, ?_⟩)
        have hnot : G.row ∉ l (p s.db) := by
          intro hmem
          rcases hfree _ hmem with hf | hf
          · simp [hf] at hown
          · exact hij (Option.some.inj (hown.symm.trans hf))
        simp [hnot, hown]
    · intro j c hj hc
      by_cases hij : j = i
      · subst hij
        simp only [Function.update_self] at hc
        cases hc
        obtain ⟨hw, hp⟩ := h.outside j _ hj hst
        exact ⟨hw.2 _ trivial, fun d => (hw.1 _).trans (hp d)⟩
      · simp only [Function.update_of_ne hij] at hc
        exact h.outside j c hj hc
  · -- a commit: if anybody else owns the guarding row then `i` is unguarded
    by_cases hi : guarded i
    · rcases h.inside i _ hi hst with hout | ⟨hin, howni⟩
      · exact absurd hout (Outside.not_done (hbody i hi))
      · refine h.finish (fun c => by simp) (hin.commit h.fixed).1 (fun j hij hown => ?_)
        exact absurd (Option.some.inj (hown.symm.trans howni)) hij
    · have hpart := (h.outside i _ hi hst).2 s.db
      exact h.finish (fun c => by simp) (G.fixed_part _ _ hpart.symm h.fixed) (fun _ _ _ => hpart)
  · exact h.finish (fun c => by simp) h.fixed (fun _ _ _ => rfl)

theorem GuardInv.commit_cases (hbody : ∀ i, guarded i → Body G good (body i))
    {s s' : Sys ι σ κ ε α} {i : ι} (h : GuardInv G good idle body guarded s)
    (hs : step s (i, .commit) = some s') :
    ∃ c r, s.status i = .active c ∧ s'.status = Function.update s.status i (.committed r) ∧
      s'.log = s.log ++ [i] ∧
      ((guarded i ∧ ∃ b p, good b ∧ G.early p ∧ (body i b).run (p s.db) = (.ok r, s'.db)) ∨
        (¬ guarded i ∧ idle r ∧ G.part s'.db = G.part s.db)) := by
  obtain ⟨ρ, l, w, a, n, p, v, hact, -⟩ | ⟨r, p, v, -, hst, rfl⟩ | ⟨c₀, hact, -⟩ := step_cases hs
  · cases hact
  · refine ⟨_, r, hst, rfl, rfl, ?_⟩
    by_cases hi : guarded i
    · rcases h.inside i _ hi hst with hout | ⟨hin, -⟩
      · exact absurd hout (Outside.not_done (hbody i hi))
      · exact .inl ⟨hi, (hin.commit h.fixed).2⟩
    · obtain ⟨hharmless, hpart⟩ := h.outside i _ hi hst
      exact .inr ⟨hi, hharmless, hpart s.db⟩
  · cases hact

/-- What every body keeps when it runs on its own, and every harmless commit keeps, holds in
every state of an interleaving. -/
theorem guarded_run {I : σ → List α → Prop}
    (hg : ∀ i, guarded i → Guarded G good (program i) (pre i) (body i))
    (hh : ∀ i, ¬ guarded i → Harmless G idle (program i))
    (hbody : ∀ i b p d d' r as, guarded i → good b → G.early p → G.fixed d →
      (body i b).run (p d) = (.ok r, d') → I d as → I d' (as ++ [r]))
    (hidle : ∀ d d' r as, idle r → G.part d' = G.part d → I d as → I d' (as ++ [r]))
    {db : σ} (hdb : G.fixed db) (h0 : I db []) {es : List (ι × Action)} {s : Sys ι σ κ ε α}
    (h : run (start program db) es = some s) :
    GuardInv G good idle body guarded s ∧ LogCommitted s.status s.log ∧
      I s.db (results s.status s.log) := by
  refine run_induction (C := fun _ _ => True) (P := fun s => GuardInv G good idle body guarded s ∧
    LogCommitted s.status s.log ∧ I s.db (results s.status s.log)) ?_
    ⟨start_guardInv hg hh hdb, by simp [LogCommitted, start], h0⟩ (along_true _ _) h
  rintro s ⟨i, act⟩ s' - ⟨hinv, hl, hI⟩ hs
  have hinv' := step_guardInv (fun i hi => (hg i hi).toBody) hinv hs
  refine ⟨hinv', ?_⟩
  rcases act with _ | _ | _
  · obtain ⟨ρ, l, w, a, n, p, v, -, hst, -, rfl⟩ | ⟨r, p, v, hact, -⟩ | ⟨c, hact, -⟩ := step_cases hs
    · exact ⟨hl.update hst _, by rwa [results_update hl hst]⟩
    · cases hact
    · cases hact
  · obtain ⟨c, r, hst, hstatus, hlog, hcase⟩ :=
      hinv.commit_cases (fun i hi => (hg i hi).toBody) hs
    rw [hstatus, hlog, results_commit hl hst]
    refine ⟨hl.commit hst r, ?_⟩
    rcases hcase with ⟨hi, b, p, hb, hp, hrun⟩ | ⟨-, hr, hpart⟩
    · exact hbody i b p _ _ r _ hi hb hp hinv.fixed hrun hI
    · exact hidle _ _ r _ hr hpart hI
  · obtain ⟨ρ, l, w, a, n, p, v, hact, -⟩ | ⟨r, p, v, hact, -⟩ | ⟨c, -, hst, rfl⟩ := step_cases hs
    · cases hact
    · cases hact
    · exact ⟨hl.update hst _, by rwa [results_update hl hst]⟩

end ReadCommitted
end SyncServer.Transaction
