import Mathlib.Algebra.Group.Int.Defs
import Mathlib.Algebra.Group.Nat.Defs
import Mathlib.Tactic.Common

/-! # Machine integers and the clock

An `i32` is the integer it stands for; arithmetic of a release build wraps.
An instant is the number of microseconds since the epoch (the resolution of
`timestamptz`), a date is a number of days, a duration is in microseconds.
-/

namespace SyncServer

/-- The wrap-around of 32-bit arithmetic. -/
def i32 (x : Int) : Int := x.bmod (2 ^ 32)

def i32Max : Int := 2147483647

def i32Min : Int := -2147483648

/-- `i32::saturating_add`. -/
def saturatingAdd (a b : Int) : Int := max i32Min (min i32Max (a + b))

/-- `i32::saturating_sub`. -/
def saturatingSub (a b : Int) : Int := max i32Min (min i32Max (a - b))

/-- `Ord::clamp`. -/
def clamp (x lo hi : Int) : Int := if x < lo then lo else if hi < x then hi else x

theorem i32_of_range {x : Int} (h₁ : i32Min ≤ x) (h₂ : x ≤ i32Max) : i32 x = x := by
  unfold i32Min i32Max at *
  exact Int.bmod_eq_of_le (by omega) (by omega)

theorem i32_le_of_nonneg {x : Int} (h : 0 ≤ x) : i32 x ≤ x := by
  unfold i32 Int.bmod
  dsimp only
  split <;> omega

/-- The values of an `i32`. -/
def IsI32 (x : Int) : Prop := i32Min ≤ x ∧ x ≤ i32Max

instance (x : Int) : Decidable (IsI32 x) := inferInstanceAs (Decidable (_ ∧ _))

theorem isI32_i32 (x : Int) : IsI32 (i32 x) := by
  unfold IsI32 i32 Int.bmod i32Min i32Max
  dsimp only
  split <;> omega

theorem i32_le_of_gt {x : Int} (h : i32Max < x) : i32 x ≤ x - 2 ^ 32 := by
  unfold i32 Int.bmod
  unfold i32Max at h
  dsimp only
  split <;> omega

theorem clamp_of_range {x lo hi : Int} (h₁ : lo ≤ x) (h₂ : x ≤ hi) : clamp x lo hi = x := by
  unfold clamp
  rw [if_neg (by omega), if_neg (by omega)]

namespace Duration

def seconds (n : Int) : Int := n * 1000000

def minutes (n : Int) : Int := n * 60000000

def hours (n : Int) : Int := n * 3600000000

def days (n : Int) : Int := n * 86400000000

end Duration

/-- The UTC day of an instant. -/
def dateNaive (t : Int) : Int := t / 86400000000

/-- The first instant of a UTC day. -/
def midnight (d : Int) : Int := d * 86400000000

theorem dateNaive_mono {t t' : Int} (h : t ≤ t') : dateNaive t ≤ dateNaive t' := by
  unfold dateNaive
  omega

theorem midnight_le_iff {d t : Int} : midnight d ≤ t ↔ d ≤ dateNaive t := by
  unfold midnight dateNaive
  omega

/-- The first and the last date that `chrono` represents. -/
def dateMin : Int := -96465292

def dateMax : Int := 95026236

/-- `NaiveDate - Duration::days(n)`, which panics outside the range of dates. -/
def dateSubDays (d n : Int) : Option Int :=
  if dateMin ≤ d - n ∧ d - n ≤ dateMax then some (d - n) else none

/-- `DateTime - Duration`, which panics outside the range of dates. -/
def timeSub (t d : Int) : Option Int :=
  if dateMin ≤ dateNaive (t - d) ∧ dateNaive (t - d) ≤ dateMax then some (t - d) else none

/-- `DateTime + Duration`, which panics outside the range of dates. -/
def timeAdd (t d : Int) : Option Int := timeSub t (-d)

/-- The instants that `chrono` represents. -/
def IsInstant (t : Int) : Prop := dateMin ≤ dateNaive t ∧ dateNaive t ≤ dateMax

instance (t : Int) : Decidable (IsInstant t) := inferInstanceAs (Decidable (_ ∧ _))

theorem dateNaive_sub_days (t n : Int) : dateNaive (t - Duration.days n) = dateNaive t - n := by
  unfold dateNaive Duration.days
  omega

theorem dateNaive_add_days (t n : Int) : dateNaive (t + Duration.days n) = dateNaive t + n := by
  unfold dateNaive Duration.days
  omega

theorem dateSubDays_eq_some {d d' n : Int} (h : dateSubDays d n = some d') : d' = d - n := by
  simp only [dateSubDays, Option.ite_none_right_eq_some, Option.some.injEq] at h
  exact h.2.symm

theorem timeSub_eq_some {t d t' : Int} (h : timeSub t d = some t') : t' = t - d := by
  simp only [timeSub, Option.ite_none_right_eq_some, Option.some.injEq] at h
  exact h.2.symm

/-- `seconds_until_next_utc_day`. -/
def secondsUntilNextUtcDay (now : Int) : Int :=
  max ((midnight (dateNaive now + 1) - now) / 1000000) 1

end SyncServer
