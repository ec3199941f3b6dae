import SyncServer.Transaction.Frame
import SyncServer.Transaction.ReadCommitted

/-! # Programs whose database changes between their statements

A statement of an open transaction sees the committed database of the moment, with the
writes of the transaction on top. `Ends I P t p` says what becomes of `t` whatever the
committed databases are, as long as they satisfy `I`.
-/

namespace SyncServer.Transaction

namespace Tx
variable {σ κ ε α β : Type}

/-- After the writes `p`, and with every committed database in `I`, the program ends with a
result and writes that satisfy `P`. -/
def Ends (I : σ → Prop) (P : Except ε α → (σ → σ) → Prop) : Tx σ κ ε α → (σ → σ) → Prop
  | .done r, p => P r p
  | .stmt _ w a n, p => ∀ d, I d → (n (a (p d))).Ends I P (w ∘ p)

variable {I : σ → Prop} {P P' : Except ε α → (σ → σ) → Prop} {Q : Except ε β → (σ → σ) → Prop}
  {p : σ → σ}

@[simp] theorem ends_done (r : Except ε α) : (done r : Tx σ κ ε α).Ends I P p ↔ P r p := Iff.rfl

theorem ends_stmt {ρ : Type} {l : σ → List κ} {w : σ → σ} {a : σ → ρ} {n : ρ → Tx σ κ ε α} :
    (stmt l w a n).Ends I P p ↔ ∀ d, I d → (n (a (p d))).Ends I P (w ∘ p) := Iff.rfl

@[simp] theorem ends_pure (a : α) : (pure a : Tx σ κ ε α).Ends I P p ↔ P (.ok a) p := Iff.rfl

@[simp] theorem ends_throw (e : ε) : (throw e : Tx σ κ ε α).Ends I P p ↔ P (.error e) p := Iff.rfl

@[simp] theorem ends_query (q : σ → α) :
    (query q : Tx σ κ ε α).Ends I P p ↔ ∀ d, I d → P (.ok (q (p d))) p := Iff.rfl

@[simp] theorem ends_exec (l : σ → List κ) (f : σ → Except ε (α × σ)) :
    (exec l f).Ends I P p ↔ ∀ d, I d → P (outcome f (p d)) (effect f ∘ p) := Iff.rfl

@[simp] theorem ends_okOr (e : ε) (o : Option α) :
    (okOr e o : Tx σ κ ε α).Ends I P p ↔ P (o.elim (.error e) .ok) p := by
  cases o <;> rfl

theorem ends_mono {t : Tx σ κ ε α} (h : t.Ends I P p) (hP : ∀ r q, P r q → P' r q) :
    t.Ends I P' p := by
  induction t generalizing p with
  | done r => exact hP r p h
  | stmt l w a n ih => exact fun d hd => ih (a (p d)) (h d hd)

theorem ends_bind {t : Tx σ κ ε α} {f : α → Tx σ κ ε β} :
    (t >>= f).Ends I Q p ↔ t.Ends I (fun r q => match r with
      | .ok a => (f a).Ends I Q q
      | .error e => Q (.error e) q) p := by
  induction t generalizing p with
  | done r => cases r <;> rfl
  | stmt l w a n ih => exact forall₂_congr (fun d _ => ih (a (p d)))

theorem ends_query_bind {q : σ → α} {f : α → Tx σ κ ε β} :
    (query q >>= f).Ends I Q p ↔ ∀ d, I d → (f (q (p d))).Ends I Q p := Iff.rfl

theorem ends_okOr_bind {e : ε} {o : Option α} {f : α → Tx σ κ ε β} :
    (okOr e o >>= f).Ends I Q p ↔ o.elim (Q (.error e) p) (fun a => (f a).Ends I Q p) := by
  cases o <;> rfl

theorem ends_done_bind {r : Except ε α} {f : α → Tx σ κ ε β} :
    ((done r : Tx σ κ ε α) >>= f).Ends I Q p ↔ match r with
      | .ok a => (f a).Ends I Q p
      | .error e => Q (.error e) p := by
  cases r <;> rfl

theorem Keeps.ends {τ : Type} {π : σ → τ} {t : Tx σ κ ε α} (h : t.Keeps π) (p : σ → σ) :
    t.Ends I (fun _ q => ∀ d, π (q d) = π (p d)) p := by
  induction t generalizing p with
  | done r => exact fun d => rfl
  | stmt l w a n ih =>
    intro d _
    apply ends_mono (ih (a (p d)) (h.2 _) (w ∘ p))
    exact fun _ q hq d' => (hq d').trans (h.1 (p d'))

theorem ends_of_keeps {t : Tx σ κ ε α} (h : t.Keeps id) (p : σ → σ) :
    t.Ends I (fun _ q => q = p) p :=
  ends_mono (h.ends p) (fun _ _ hq => funext hq)

-- the elaborator must not execute the program to see whether `Ends` is an implication
attribute [irreducible] Ends

/-- A rule for sequences: the first part satisfies `P`, the second leads from `P` to `Q`. -/
theorem Ends.bind {t : Tx σ κ ε α} {f : α → Tx σ κ ε β} (h : t.Ends I P p)
    (hok : ∀ a q, P (.ok a) q → (f a).Ends I Q q)
    (herror : ∀ e q, P (.error e) q → Q (.error e) q) :
    (t >>= f).Ends I Q p := by
  rw [ends_bind]
  apply ends_mono h
  intro r q hr
  cases r with
  | ok a => exact hok a q hr
  | error e => exact herror e q hr

end Tx

namespace ReadCommitted
set_option linter.unusedSectionVars false
variable {ι σ κ ε α : Type} [DecidableEq ι] [DecidableEq κ]

/-- What the transactions commit keeps `I`, and each open one will end with `P`. -/
structure EndsInv (I : σ → Prop) (P : ι → Except ε α → (σ → σ) → Prop) (s : Sys ι σ κ ε α) :
    Prop where
  db : I s.db
  sessions : ∀ i c, s.status i = .active c → c.rest.Ends I (P i) c.pending

variable {I : σ → Prop} {P : ι → Except ε α → (σ → σ) → Prop} {s s' : Sys ι σ κ ε α}

theorem start_endsInv {program : ι → Tx σ κ ε α} {db : σ} (hdb : I db)
    (h : ∀ i, (program i).Ends I (P i) id) : EndsInv I P (start program db) where
  db := hdb
  sessions i c hc := by
    cases hc
    exact h i

theorem step_endsInv (hI : ∀ i a p d, P i (.ok a) p → I d → I (p d)) {e : ι × Action}
    (h : EndsInv I P s) (hs : step s e = some s') : EndsInv I P s' := by
  obtain ⟨i, act⟩ := e
  obtain ⟨ρ, l, w, a, n, p, v, -, hst, -, rfl⟩ | ⟨r, p, v, -, hst, rfl⟩ | ⟨c', -, hst, rfl⟩ :=
    step_cases hs
  all_goals
    constructor
    · first
      | exact h.db
      | exact hI i r p _ ((Tx.ends_done _).mp (h.sessions i _ hst)) h.db
    · intro j c hc
      by_cases hij : j = i
      · subst hij
        simp only [Function.update_self] at hc
        cases hc
        try exact Tx.ends_stmt.mp (h.sessions j _ hst) s.db h.db
      · simp only [Function.update_of_ne hij] at hc
        exact h.sessions j c hc

/-! ## Records of what was committed -/

section
variable {β : Type} {R : ι → α → β → Prop} {apply : β → σ → σ} {db : σ} {history : List (ι × β)}

/-- `history` lists the committed transactions in the order of their commits, each with a
record `v` of its writes `apply v`. -/
structure Published (R : ι → α → β → Prop) (apply : β → σ → σ) (db : σ) (s : Sys ι σ κ ε α)
    (history : List (ι × β)) : Prop where
  log : history.map Prod.fst = s.log
  nodup : s.log.Nodup
  record : ∀ e ∈ history, ∃ a, s.status e.1 = .committed a ∧ R e.1 a e.2
  committed : ∀ i a, s.status i = .committed a → ∃ v, (i, v) ∈ history ∧ R i a v
  db : s.db = history.foldl (fun d e => apply e.2 d) db

theorem start_published (R : ι → α → β → Prop) (apply : β → σ → σ) (program : ι → Tx σ κ ε α)
    (db : σ) : Published R apply db (start program db) [] where
  log := rfl
  nodup := List.nodup_nil
  record e he := by cases he
  committed i a h := by cases h
  db := rfl

theorem Published.move (h : Published R apply db s history) {i : ι} {c : Session σ κ ε α}
    (hi : s.status i = .active c) {st : Status σ κ ε α} (hst : ∀ a, st ≠ .committed a)
    (owner : κ → Option ι) :
    Published R apply db { s with owner := owner, status := Function.update s.status i st }
      history where
  log := h.log
  nodup := h.nodup
  record e he := by
    obtain ⟨a, ha, hR⟩ := h.record e he
    have hne : e.1 ≠ i := by
      rintro rfl
      rw [hi] at ha
      cases ha
    exact ⟨a, (Function.update_of_ne hne _ _).trans ha, hR⟩
  committed j a hj := by
    by_cases hij : j = i
    · subst hij
      simp only [Function.update_self] at hj
      exact absurd hj (hst a)
    · simp only [Function.update_of_ne hij] at hj
      exact h.committed j a hj
  db := h.db

theorem Published.commit (h : Published R apply db s history) {i : ι} {c : Session σ κ ε α}
    (hi : s.status i = .active c) {a : α} {v : β} (hR : R i a v) (owner : κ → Option ι) :
    Published R apply db
      ⟨apply v s.db, owner, Function.update s.status i (.committed a), s.log ++ [i]⟩
      (history ++ [(i, v)]) where
  log := by simp [h.log]
  nodup := by
    apply List.nodup_append.mpr
    refine ⟨h.nodup, by simp, ?_⟩
    rintro j hj k hk rfl
    obtain rfl := List.mem_singleton.mp hk
    rw [← h.log] at hj
    obtain ⟨e, he, rfl⟩ := List.mem_map.mp hj
    obtain ⟨b, hb, -⟩ := h.record e he
    rw [hi] at hb
    cases hb
  record e he := by
    by_cases hei : e.1 = i
    · rcases List.mem_append.mp he with he | he
      · obtain ⟨b, hb, -⟩ := h.record e he
        rw [hei, hi] at hb
        cases hb
      · obtain rfl := List.mem_singleton.mp he
        exact ⟨a, Function.update_self .., hR⟩
    · rcases List.mem_append.mp he with he | he
      · simp only [Function.update_of_ne hei]
        exact h.record e he
      · obtain rfl := List.mem_singleton.mp he
        exact absurd rfl hei
  committed j b hj := by
    by_cases hij : j = i
    · subst hij
      simp only [Function.update_self] at hj
      cases hj
      exact ⟨v, by simp, hR⟩
    · simp only [Function.update_of_ne hij] at hj
      obtain ⟨w, hw, hRw⟩ := h.committed j b hj
      exact ⟨w, List.mem_append_left _ hw, hRw⟩
  db := by simp [h.db]

/-- Whatever a commit made under `C` keeps of the database and the history holds at the end
of every schedule whose moves are made under `C`. -/
theorem published_run {C : Sys ι σ κ ε α → ι × Action → Prop} {J : σ → List (ι × β) → Prop}
    {program : ι → Tx σ κ ε α} (hends : ∀ i, (program i).Ends I (P i) id)
    (hI : ∀ i a p d, P i (.ok a) p → I d → I (p d))
    (hP : ∀ i a p, P i (.ok a) p → ∃ v, R i a v ∧ ∀ d, I d → p d = apply v d)
    (hJ : ∀ s history i a v p w, Published R apply db s history → I s.db → C s (i, .commit) →
      s.status i = .active ⟨.done (.ok a), p, w⟩ → R i a v → J s.db history →
      J (apply v s.db) (history ++ [(i, v)]))
    (hdb : I db) (h0 : J db []) {es : List (ι × Action)} (hc : Along C (start program db) es)
    (h : run (start program db) es = some s) :
    EndsInv I P s ∧ ∃ history, Published R apply db s history ∧ J s.db history := by
  apply run_induction (C := C) (P := fun s => EndsInv I P s ∧
    ∃ history, Published R apply db s history ∧ J s.db history) ?_
    ⟨start_endsInv hdb hends, [], start_published R apply program db, h0⟩ hc h
  rintro s ⟨i, act⟩ s' hC ⟨hinv, history, hpub, hJs⟩ hs
  apply And.intro (step_endsInv hI hinv hs)
  obtain ⟨ρ, l, w, a, n, p, v, rfl, hst, -, rfl⟩ | ⟨r, p, v, rfl, hst, rfl⟩ | ⟨c, rfl, hst, rfl⟩ :=
    step_cases hs
  · exact ⟨history, hpub.move hst (by simp) _, hJs⟩
  · obtain ⟨v', hR, hp⟩ := hP i r p ((Tx.ends_done _).mp (hinv.sessions i _ hst))
    rw [hp s.db hinv.db]
    exact ⟨_, hpub.commit hst hR _, hJ s history i r v' p v hpub hinv.db hC hst hR hJs⟩
  · exact ⟨history, hpub.move hst (by simp) _, hJs⟩

end

/-- Whether a schedule keeps to a condition can be computed. -/
instance decidableAlong (C : Sys ι σ κ ε α → ι × Action → Prop) [∀ s e, Decidable (C s e)] :
    ∀ (es : List (ι × Action)) (s : Sys ι σ κ ε α), Decidable (Along C s es)
  | [], _ => .isTrue trivial
  | e :: es, s =>
    match h : step s e with
    | none => decidable_of_iff (C s e) ⟨fun hc => ⟨hc, by simp [h]⟩, fun hc => hc.1⟩
    | some t =>
      have := decidableAlong C es t
      decidable_of_iff (C s e ∧ Along C t es) ⟨fun hc => ⟨hc.1, by simp [h, hc.2]⟩,
        fun hc => ⟨hc.1, hc.2 t h⟩⟩

end ReadCommitted
end SyncServer.Transaction
