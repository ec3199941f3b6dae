import SyncServer.Transaction.Program

/-! # What a program writes and reads

`Writes W` bounds the writes of a program, `Local π` says that it works on a part
of the database only. Both are proved statement by statement.
-/

namespace SyncServer.Transaction

namespace Tx
variable {σ κ ε α β τ : Type}

/-- All writes of the program satisfy `W`. -/
def Writes (W : (σ → σ) → Prop) : Tx σ κ ε α → Prop
  | .done _ => True
  | .stmt _ w _ n => W w ∧ ∀ r, (n r).Writes W

/-- Answers and writes depend on the part `π` of the database only. -/
def Local (π : σ → τ) : Tx σ κ ε α → Prop
  | .done _ => True
  | .stmt _ w a n => (∀ d d', π d = π d' → a d = a d') ∧
      (∀ d d', π d = π d' → π (w d) = π (w d')) ∧ ∀ r, (n r).Local π

theorem writes_bind {W : (σ → σ) → Prop} {t : Tx σ κ ε α} {f : α → Tx σ κ ε β}
    (ht : t.Writes W) (hf : ∀ a, (f a).Writes W) : (t >>= f).Writes W := by
  induction t with
  | done r =>
    cases r with
    | ok a => exact hf a
    | error e => trivial
  | stmt l w a n ih => exact ⟨ht.1, fun r => ih r (ht.2 r)⟩

theorem writes_mono {W W' : (σ → σ) → Prop} (hW : ∀ w, W w → W' w) {t : Tx σ κ ε α}
    (h : t.Writes W) : t.Writes W' := by
  induction t with
  | done r => trivial
  | stmt l w a n ih => exact ⟨hW w h.1, fun r => ih r (h.2 r)⟩

theorem writes_and {W W' : (σ → σ) → Prop} {t : Tx σ κ ε α} (h : t.Writes W) (h' : t.Writes W') :
    t.Writes (fun w => W w ∧ W' w) := by
  induction t with
  | done r => trivial
  | stmt l w a n ih => exact ⟨⟨h.1, h'.1⟩, fun r => ih r (h.2 r) (h'.2 r)⟩

theorem writes_done (W : (σ → σ) → Prop) (r : Except ε α) : (done r : Tx σ κ ε α).Writes W :=
  trivial

theorem writes_query {W : (σ → σ) → Prop} (h : W id) (q : σ → α) :
    (query q : Tx σ κ ε α).Writes W := ⟨h, fun _ => trivial⟩

theorem writes_exec {W : (σ → σ) → Prop} {f : σ → Except ε (α × σ)} (h : W (effect f))
    (l : σ → List κ) : (exec l f).Writes W := ⟨h, fun _ => trivial⟩

theorem writes_okOr (W : (σ → σ) → Prop) (e : ε) (o : Option α) :
    (okOr e o : Tx σ κ ε α).Writes W := by
  cases o <;> trivial

theorem writes_attempt {W : (σ → σ) → Prop} {t : Tx σ κ ε α} (h : t.Writes W) :
    t.attempt.Writes W := by
  induction t with
  | done r => trivial
  | stmt l w a n ih => exact ⟨h.1, fun r => ih r (h.2 r)⟩

theorem writes_asStatement {R : σ → σ → Prop} (hrefl : ∀ s, R s s) {t : Tx σ κ ε α}
    (h : ∀ s a s', t.run s = (.ok a, s') → R s s') :
    t.asStatement.Writes (fun w => ∀ s, R s (w s)) := by
  refine writes_exec (fun s => ?_) _
  rcases hrun : t.run s with ⟨_ | a, s'⟩
  · simpa [effect, hrun] using hrefl s
  · simpa [effect, hrun] using h s a s' hrun

theorem writes_onPart {W : (τ → τ) → Prop} {W' : (σ → σ) → Prop} {get : σ → τ}
    {set : σ → τ → σ} (hW : ∀ w, W w → W' (fun s => set s (w (get s)))) {t : Tx τ κ ε α}
    (h : t.Writes W) : (t.onPart get set).Writes W' := by
  induction t with
  | done r => trivial
  | stmt l w a n ih => exact ⟨hW w h.1, fun r => ih r (h.2 r)⟩

theorem Writes.run {I : σ → Prop} {t : Tx σ κ ε α} (h : t.Writes (fun w => ∀ d, I d → I (w d)))
    {s : σ} (hs : I s) : I (t.run s).2 := by
  induction t generalizing s with
  | done r => exact hs
  | stmt l w a n ih => exact ih (a s) (h.2 (a s)) (h.1 s hs)

theorem Writes.rel {R : σ → σ → Prop} (hrefl : ∀ s, R s s)
    (htrans : ∀ {s s' s''}, R s s' → R s' s'' → R s s'') {t : Tx σ κ ε α}
    (h : t.Writes (fun w => ∀ s, R s (w s))) (s : σ) : R s (t.run s).2 := by
  induction t generalizing s with
  | done r => exact hrefl s
  | stmt l w a n ih => exact htrans (h.1 s) (ih (a s) (h.2 (a s)) (w s))

theorem rel_bind {R : σ → σ → Prop} (htrans : ∀ {s s' s''}, R s s' → R s' s'' → R s s'')
    {t : Tx σ κ ε α} {f : α → Tx σ κ ε β} {s : σ} (ht : R s (t.run s).2)
    (hf : ∀ a s', t.run s = (.ok a, s') → R s' ((f a).run s').2) : R s ((t >>= f).run s).2 := by
  rw [run_bind]
  rcases hrun : t.run s with ⟨_ | a, s'⟩
  · simpa [hrun] using ht
  · rw [hrun] at ht
    exact htrans ht (hf a s' hrun)

theorem local_bind {π : σ → τ} {t : Tx σ κ ε α} {f : α → Tx σ κ ε β}
    (ht : t.Local π) (hf : ∀ a, (f a).Local π) : (t >>= f).Local π := by
  induction t with
  | done r =>
    cases r with
    | ok a => exact hf a
    | error e => trivial
  | stmt l w a n ih => exact ⟨ht.1, ht.2.1, fun r => ih r (ht.2.2 r)⟩

theorem local_query {π : σ → τ} {q : σ → α} (h : ∀ d d', π d = π d' → q d = q d') :
    (query q : Tx σ κ ε α).Local π := ⟨h, fun _ _ h => h, fun _ => trivial⟩

theorem local_exec {π : σ → τ} {f : σ → Except ε (α × σ)}
    (ha : ∀ d d', π d = π d' → outcome f d = outcome f d')
    (hw : ∀ d d', π d = π d' → π (effect f d) = π (effect f d'))
    (l : σ → List κ) : (exec l f).Local π := ⟨ha, hw, fun _ => trivial⟩

theorem local_okOr (π : σ → τ) (e : ε) (o : Option α) :
    (okOr e o : Tx σ κ ε α).Local π := by
  cases o <;> trivial

/-- A program that leaves `c` alone and works on the part `π` also works on `π` beside `c`. -/
theorem local_beside {υ : Type} {π : σ → τ} {c : σ → υ} {t : Tx σ κ ε α} (hπ : t.Local π)
    (hc : t.Writes (fun w => ∀ d, c (w d) = c d)) {ω : Type} (g : υ → ω) :
    t.Local (fun d => (π d, g (c d))) := by
  induction t with
  | done r => trivial
  | stmt l w a n ih =>
    refine ⟨fun d d' h => hπ.1 d d' (congrArg Prod.fst h), fun d d' h => ?_,
      fun r => ih r (hπ.2.2 r) (hc.2 r)⟩
    simp only [Prod.mk.injEq, hc.1] at h ⊢
    exact ⟨hπ.2.1 d d' h.1, h.2⟩

/-- No write of the program changes `π`. -/
def Keeps (π : σ → τ) (t : Tx σ κ ε α) : Prop := t.Writes (fun w => ∀ d, π (w d) = π d)

theorem keeps_bind {π : σ → τ} {t : Tx σ κ ε α} {f : α → Tx σ κ ε β} (ht : t.Keeps π)
    (hf : ∀ a, (f a).Keeps π) : (t >>= f).Keeps π := writes_bind ht hf

theorem keeps_next {π : σ → τ} {ρ : Type} {locks : σ → List κ} {write : σ → σ} {answer : σ → ρ}
    {next : ρ → Tx σ κ ε α} (h : (stmt locks write answer next).Keeps π) (x : ρ) :
    (next x).Keeps π := h.2 x

theorem keeps_query (π : σ → τ) (q : σ → α) : (query q : Tx σ κ ε α).Keeps π :=
  writes_query (fun _ => rfl) q

theorem keeps_done (π : σ → τ) (r : Except ε α) : (done r : Tx σ κ ε α).Keeps π := trivial

theorem keeps_pure (π : σ → τ) (a : α) : (pure a : Tx σ κ ε α).Keeps π := trivial

theorem keeps_throw (π : σ → τ) (e : ε) : (throw e : Tx σ κ ε α).Keeps π := trivial

theorem keeps_attempt {π : σ → τ} {t : Tx σ κ ε α} (h : t.Keeps π) : t.attempt.Keeps π :=
  writes_attempt h

theorem keeps_okOr (π : σ → τ) (e : ε) (o : Option α) : (okOr e o : Tx σ κ ε α).Keeps π :=
  writes_okOr _ e o

theorem Keeps.map {π : σ → τ} {t : Tx σ κ ε α} (h : t.Keeps π) {υ : Type} (g : τ → υ) :
    t.Keeps (fun s => g (π s)) :=
  writes_mono (fun _ hw d => congrArg g (hw d)) h

theorem Keeps.run {π : σ → τ} {t : Tx σ κ ε α} (h : t.Keeps π) (s : σ) :
    π (t.run s).2 = π s := by
  induction t generalizing s with
  | done r => rfl
  | stmt l w a n ih => exact (ih (a s) (h.2 (a s)) (w s)).trans (h.1 s)

theorem Keeps.of_run {π : σ → τ} {t : Tx σ κ ε α} (h : t.Keeps π) {s s' : σ}
    {r : Except ε α} (hr : t.run s = (r, s')) : π s' = π s := by
  simpa [hr] using h.run s

theorem run_bind_keeps {π : σ → τ} (t : Tx σ κ ε α) {f : α → Tx σ κ ε β}
    (hf : ∀ a, (f a).Keeps π) (s : σ) : π ((t >>= f).run s).2 = π (t.run s).2 := by
  rw [run_bind]
  rcases t.run s with ⟨_ | a, s'⟩
  · rfl
  · exact (hf a).run s'

theorem Keeps.asStatement {π : σ → τ} {t : Tx σ κ ε α} (h : t.Keeps π) :
    t.asStatement.Keeps π :=
  writes_asStatement (R := fun s s' => π s' = π s) (fun _ => rfl) (fun _ _ _ hr => h.of_run hr)

theorem Keeps.atomically {π : σ → τ} {t : Tx σ κ ε α} (h : t.Keeps π) (s : σ) :
    π (t.atomically s).2 = π s := by
  rcases t.atomically_snd_cases s with ⟨a, ha⟩ | hs
  · have := h.run s
    rwa [ha] at this
  · rw [hs]

end Tx
end SyncServer.Transaction
