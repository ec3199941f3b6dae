import Mathlib.Data.List.Induction
import Mathlib.Tactic.Common

/-! # What was said last

Events give values to keys, and end them. What holds after a list of events is what was given and
has not been ended since.
-/

namespace SyncServer.LastWord
variable {ε κ ν : Type}

/-- What an event gives to a key, and what of a key it ends. -/
structure Rules (ε κ ν : Type) where
  gives : ε → κ → ν → Prop
  ends : ε → κ → ν → Prop

/-- The key was given the value, and no event has ended it since. -/
def Rules.Holds (rules : Rules ε κ ν) (events : List ε) (k : κ) (v : ν) : Prop :=
  ∃ before e after, events = before ++ e :: after ∧ rules.gives e k v ∧
    ∀ e' ∈ after, ¬ rules.ends e' k v

variable {rules : Rules ε κ ν} {events : List ε} {e : ε} {k : κ} {v v' : ν}

theorem Rules.not_holds_nil : ¬ rules.Holds [] k v := by
  rintro ⟨before, e, after, h, -⟩
  cases before <;> simp at h

theorem Rules.holds_concat :
    rules.Holds (events ++ [e]) k v ↔
      rules.gives e k v ∨ rules.Holds events k v ∧ ¬ rules.ends e k v := by
  constructor
  · rintro ⟨before, e', after, h, hgives, hends⟩
    rcases List.eq_nil_or_concat after with rfl | ⟨front, last, rfl⟩
    · have hlast := (List.append_inj' h rfl).2
      cases hlast
      exact .inl hgives
    · rw [List.concat_eq_append] at h hends
      rw [← List.cons_append, ← List.append_assoc] at h
      obtain ⟨hfront, hlast⟩ := List.append_inj' h rfl
      cases hlast
      refine .inr ⟨⟨before, e', front, hfront, hgives, fun e'' he => ?_⟩, hends _ (by simp)⟩
      exact hends e'' (List.mem_append_left _ he)
  · rintro (hgives | ⟨⟨before, e', after, rfl, hgives, hends⟩, hlast⟩)
    · exact ⟨events, e, [], rfl, hgives, by simp⟩
    · refine ⟨before, e', after ++ [e], by simp, hgives, fun e'' he => ?_⟩
      rcases List.mem_append.mp he with he | he
      · exact hends e'' he
      · rw [List.mem_singleton.mp he]
        exact hlast

theorem Rules.Holds.unique (hgives : ∀ e k v v', rules.gives e k v → rules.gives e k v' → v = v')
    (hends : ∀ e k v v', rules.gives e k v → v ≠ v' → rules.ends e k v')
    (h : rules.Holds events k v) (h' : rules.Holds events k v') : v = v' := by
  induction events using List.reverseRecOn with
  | nil => exact absurd h not_holds_nil
  | append_singleton events e ih =>
    rw [holds_concat] at h h'
    by_contra hne
    rcases h with h | ⟨h, hend⟩ <;> rcases h' with h' | ⟨h', hend'⟩
    · exact hne (hgives e k v v' h h')
    · exact hend' (hends e k v v' h hne)
    · exact hend (hends e k v' v h' (Ne.symm hne))
    · exact hne (ih h h')

end SyncServer.LastWord
