import SyncServer.Transaction.Frame

/-! # Interleaved programs without transactions

Any number of programs run one statement at a time, and every statement is committed at
once. The programs may be given as trees, or as the phases that they go through; the
second is a faithful picture of the first.
-/

namespace SyncServer.Transaction

/-- The next statement of a program. -/
def Tx.step {σ κ ε α : Type} : Tx σ κ ε α → σ → Option (Tx σ κ ε α × σ)
  | .done _, _ => none
  | .stmt _ w a n, d => some (n (a d), w d)

/-- Programs by their phases: what is left to do in a phase, and how a statement moves on. -/
structure Phases.{u} (φ : Type u) (σ κ ε α : Type) where
  program : φ → Tx σ κ ε α
  next : φ → σ → Option (φ × σ)
  step_program : ∀ f d, (program f).step d = (next f d).map (Prod.map program id)

namespace Autocommit
universe u
variable {ι σ η : Type} {ρ : Type u} [DecidableEq ι]

/-- The database, and what is left of every program. -/
structure Sys (ι σ : Type) (ρ : Type u) : Type u where
  db : σ
  rest : ι → ρ

/-- One statement of program `i`. -/
def step (next : ρ → σ → Option (ρ × σ)) (s : Sys ι σ ρ) (i : ι) : Option (Sys ι σ ρ) :=
  (next (s.rest i) s.db).map (fun x => ⟨x.2, Function.update s.rest i x.1⟩)

def run (next : ρ → σ → Option (ρ × σ)) (s : Sys ι σ ρ) : List ι → Option (Sys ι σ ρ)
  | [] => some s
  | i :: is => (step next s i).bind (fun s' => run next s' is)

variable {next : ρ → σ → Option (ρ × σ)} {s s' : Sys ι σ ρ} {i : ι} {is : List ι}

theorem step_eq_some : step next s i = some s' ↔
    ∃ c d, next (s.rest i) s.db = some (c, d) ∧ s' = ⟨d, Function.update s.rest i c⟩ := by
  simp only [step, Option.map_eq_some_iff, Prod.exists, eq_comm (b := s')]

theorem rest_of_step (h : step next s i = some s') :
    next (s.rest i) s.db = some (s'.rest i, s'.db) ∧ ∀ j, j ≠ i → s'.rest j = s.rest j := by
  obtain ⟨c, d, hnext, rfl⟩ := step_eq_some.mp h
  exact ⟨by simpa using hnext, fun j hj => Function.update_of_ne hj _ _⟩

theorem run_cons : run next s (i :: is) = some s' ↔
    ∃ t, step next s i = some t ∧ run next t is = some s' := by
  simp [run, Option.bind_eq_some_iff]

theorem run_append {js : List ι} : run next s (is ++ js) = some s' ↔
    ∃ t, run next s is = some t ∧ run next t js = some s' := by
  induction is generalizing s with
  | nil => simp [run]
  | cons i is ih =>
    rw [List.cons_append, run_cons]
    simp only [ih, run_cons]
    constructor
    · rintro ⟨t, ht, u, hu, hrun⟩
      exact ⟨u, ⟨t, ht, hu⟩, hrun⟩
    · rintro ⟨u, ⟨t, ht, hu⟩, hrun⟩
      exact ⟨t, ht, u, hu, hrun⟩

theorem rest_of_not_mem (h : run next s is = some s') (hi : i ∉ is) : s'.rest i = s.rest i := by
  induction is generalizing s with
  | nil =>
    cases h
    rfl
  | cons j is ih =>
    obtain ⟨hij, hi⟩ := not_or.mp (mt List.mem_cons.mpr hi)
    obtain ⟨t, ht, hrun⟩ := run_cons.mp h
    obtain ⟨c, d, -, rfl⟩ := step_eq_some.mp ht
    exact (ih hrun hi).trans (Function.update_of_ne hij _ _)

/-- What the statements of a run show to an observer who looks before each of them. -/
def trace (next : ρ → σ → Option (ρ × σ)) (observe : ρ → σ → Option η) (s : Sys ι σ ρ) :
    List ι → List η
  | [] => []
  | i :: is =>
    (observe (s.rest i) s.db).toList ++
      ((step next s i).map (fun s' => trace next observe s' is)).getD []

/-- Every statement of a schedule is made in a state that satisfies `C`. -/
def Along (next : ρ → σ → Option (ρ × σ)) (C : Sys ι σ ρ → ι → Prop) (s : Sys ι σ ρ) :
    List ι → Prop
  | [] => True
  | i :: is => C s i ∧ ∀ t ∈ step next s i, Along next C t is

instance decidableAlong (next : ρ → σ → Option (ρ × σ)) (C : Sys ι σ ρ → ι → Prop)
    [∀ s i, Decidable (C s i)] : ∀ s is, Decidable (Along next C s is)
  | _, [] => isTrue trivial
  | s, i :: is =>
    have := fun t => decidableAlong next C t is
    inferInstanceAs (Decidable (_ ∧ ∀ t ∈ step next s i, Along next C t is))

theorem Along.of_append {C : Sys ι σ ρ → ι → Prop} {js : List ι}
    (h : Along next C s (is ++ js)) (hrun : run next s is = some s') :
    Along next C s is ∧ Along next C s' js := by
  induction is generalizing s with
  | nil =>
    cases hrun
    exact ⟨trivial, h⟩
  | cons i is ih =>
    obtain ⟨t, ht, hrun⟩ := run_cons.mp hrun
    obtain ⟨his, hjs⟩ := ih (h.2 t ht) hrun
    refine ⟨⟨h.1, fun t' ht' => ?_⟩, hjs⟩
    rw [Option.mem_def, ht, Option.some.injEq] at ht'
    rwa [← ht']

theorem along_of_forall {C : Sys ι σ ρ → ι → Prop} (h : ∀ s i, C s i) (s : Sys ι σ ρ)
    (is : List ι) : Along next C s is := by
  induction is generalizing s with
  | nil => trivial
  | cons i is ih => exact ⟨h s i, fun t _ => ih t⟩

/-- What statements made under `C` keep holds at the end. -/
theorem run_invariant {C : Sys ι σ ρ → ι → Prop} {P : Sys ι σ ρ → Prop}
    (hstep : ∀ s i s', C s i → P s → step next s i = some s' → P s') (h0 : P s)
    (hc : Along next C s is) (h : run next s is = some s') : P s' := by
  induction is generalizing s with
  | nil =>
    cases h
    exact h0
  | cons i is ih =>
    obtain ⟨t, ht, hrun⟩ := run_cons.mp h
    exact ih (hstep s i t hc.1 h0 ht) (hc.2 t ht) hrun

/-- What statements made under `C` keep, together with what was observed, holds at the end. -/
theorem run_induction {C : Sys ι σ ρ → ι → Prop} {P : Sys ι σ ρ → List η → Prop}
    {observe : ρ → σ → Option η}
    (hstep : ∀ s i s' l, C s i → P s l → step next s i = some s' →
      P s' (l ++ (observe (s.rest i) s.db).toList))
    {l : List η} (h0 : P s l) (hc : Along next C s is) (h : run next s is = some s') :
    P s' (l ++ trace next observe s is) := by
  induction is generalizing s l with
  | nil =>
    cases h
    simpa [trace] using h0
  | cons i is ih =>
    obtain ⟨t, ht, hrun⟩ := run_cons.mp h
    have := ih (hstep s i t l hc.1 h0 ht) (hc.2 t ht) hrun
    simpa [trace, ht] using this

theorem run_writes {κ ε α : Type} {I : σ → Prop} {s s' : Sys ι σ (Tx σ κ ε α)}
    (h : ∀ i, (s.rest i).Writes (fun w => ∀ d, I d → I (w d))) (h0 : I s.db)
    (hrun : run Tx.step s is = some s') : I s'.db := by
  induction is generalizing s with
  | nil =>
    cases hrun
    exact h0
  | cons i is ih =>
    obtain ⟨t, ht, hrest⟩ := run_cons.mp hrun
    obtain ⟨hnext, hothers⟩ := rest_of_step ht
    have hi := h i
    cases hprogram : s.rest i with
    | done r =>
      rw [hprogram] at hnext
      cases hnext
    | stmt locks write answer next =>
      rw [hprogram] at hnext hi
      obtain ⟨hphase, hdb⟩ := Prod.mk.inj (Option.some.inj hnext)
      refine ih (fun j => ?_) (hdb ▸ hi.1 _ h0) hrest
      by_cases hj : j = i
      · subst hj
        exact hphase ▸ hi.2 _
      · exact hothers j hj ▸ h j

variable {φ : Type u} {κ ε α : Type} (M : Phases φ σ κ ε α)

/-- The programs that are left in the given phases. -/
def programs (s : Sys ι σ φ) : Sys ι σ (Tx σ κ ε α) := ⟨s.db, fun i => M.program (s.rest i)⟩

theorem step_programs (s : Sys ι σ φ) (i : ι) :
    step Tx.step (programs M s) i = (step M.next s i).map (programs M) := by
  simp only [step, programs, M.step_program, Option.map_map]
  congr 1
  funext x
  simp only [Function.comp_apply, Prod.map, programs, id_eq, Sys.mk.injEq, true_and]
  funext j
  by_cases hj : j = i
  · subst hj
    simp
  · simp [Function.update_of_ne hj]

theorem run_programs (s : Sys ι σ φ) (is : List ι) :
    run Tx.step (programs M s) is = (run M.next s is).map (programs M) := by
  induction is generalizing s with
  | nil => rfl
  | cons i is ih =>
    rw [run, run, step_programs]
    cases step M.next s i with
    | none => rfl
    | some t => exact ih t

end Autocommit
end SyncServer.Transaction
