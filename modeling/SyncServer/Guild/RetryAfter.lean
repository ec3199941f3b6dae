import Mathlib.Algebra.Ring.Divisibility.Basic
import Mathlib.Tactic.Ring
import SyncServer.Guild.Freeze
import SyncServer.Guild.Gate

/-! # When to try again

An action that is refused for the day comes with a number of seconds to wait. The number is cut to
whole seconds, so a client that waits exactly so long comes too early unless the clock shows a
whole second, or less than one is left of the day.
-/

namespace SyncServer.Guild
open Transaction

/-! ## Clocks -/

/-- The UTC day of an instant on a clock with `unit` ticks a second. -/
def dayAt (unit t : Int) : Int := t / (86400 * unit)

def nextDayAt (unit t : Int) : Int := (dayAt unit t + 1) * (86400 * unit)

/-- `seconds_until_next_utc_day` on a clock with `unit` ticks a second. -/
def secondsUntilNextUtcDayAt (unit now : Int) : Int := max ((nextDayAt unit now - now) / unit) 1

/-- The clock shows a whole second, or the last of the day. -/
def OnTime (unit now : Int) : Prop := now % unit = 0 ∨ nextDayAt unit now - now < unit

instance (unit now : Int) : Decidable (OnTime unit now) :=
  inferInstanceAs (Decidable (now % unit = 0 ∨ nextDayAt unit now - now < unit))

theorem dayAt_micro (t : Int) : dayAt 1000000 t = dateNaive t := rfl

theorem secondsUntilNextUtcDayAt_micro (now : Int) :
    secondsUntilNextUtcDayAt 1000000 now = secondsUntilNextUtcDay now := rfl

theorem left_emod_eq_zero_iff (unit now : Int) :
    (nextDayAt unit now - now) % unit = 0 ↔ now % unit = 0 := by
  have hmul : unit ∣ nextDayAt unit now := ⟨(dayAt unit now + 1) * 86400, by
    rw [nextDayAt]
    ring⟩
  rw [← Int.dvd_iff_emod_eq_zero, ← Int.dvd_iff_emod_eq_zero]
  exact dvd_sub_right hmul

section
variable {unit : Int} (hunit : 0 < unit) (now : Int)
include hunit

theorem lt_nextDayAt : now < nextDayAt unit now :=
  Int.lt_ediv_add_one_mul_self now (by omega)

theorem dayAt_lt_iff (t : Int) : dayAt unit now < dayAt unit t ↔ nextDayAt unit now ≤ t :=
  Int.add_one_le_iff.symm.trans (Int.le_ediv_iff_mul_le (by omega))

theorem secondsUntilNextUtcDayAt_iff :
    dayAt unit now < dayAt unit (now + unit * secondsUntilNextUtcDayAt unit now) ↔
      OnTime unit now := by
  have hpos := lt_nextDayAt hunit now
  rw [dayAt_lt_iff hunit, OnTime, ← left_emod_eq_zero_iff unit, secondsUntilNextUtcDayAt]
  have hdiv := Int.mul_ediv_add_emod (nextDayAt unit now - now) unit
  have hmod := Int.emod_nonneg (nextDayAt unit now - now) hunit.ne'
  rw [show nextDayAt unit now ≤ now + unit * max ((nextDayAt unit now - now) / unit) 1 ↔
    nextDayAt unit now - now ≤ unit * max ((nextDayAt unit now - now) / unit) 1 from
      ⟨fun h => by omega, fun h => by omega⟩]
  have hleft : 0 < nextDayAt unit now - now := by omega
  generalize nextDayAt unit now - now = left at *
  rcases lt_or_ge left unit with hlt | hge
  · -- less than a second is left, and a second is waited
    rw [Int.ediv_eq_zero_of_lt hleft.le hlt]
    simp only [Int.max_eq_right (show (0 : Int) ≤ 1 by decide), Int.mul_one]
    exact iff_of_true hlt.le (.inr hlt)
  · have hone : 1 ≤ left / unit := Int.le_ediv_of_mul_le hunit (by omega)
    rw [Int.max_eq_left hone]
    constructor
    · intro h
      exact .inl (by omega)
    · rintro (h | h)
      · omega
      · omega

end

/-! ## Refusals -/

namespace HumanOp

/-- The seconds to wait, if the operation is refused for the day. -/
def retryAfter (env : Env) (s : Db) : HumanOp → Option Int
  | recordHumanActivity .. => none
  | sendMessageWithGuild m now audit =>
    match ((Guild.sendMessageWithGuild env m now audit).run s).1 with
    | .ok (.limited _ retryAfterSeconds) => some retryAfterSeconds
    | _ => none
  | runAttachmentActionWithGuild u mimeType operation now audit =>
    match ((Guild.runAttachmentActionWithGuild env u mimeType operation.program now audit).run
      s).1 with
    | .ok (.limited _ retryAfterSeconds) => some retryAfterSeconds
    | _ => none
  | resolveContactWithGuild u now audit =>
    match ((Guild.resolveContactWithGuild env u now audit).run s).1 with
    | .ok (.limited _ retryAfterSeconds) => some retryAfterSeconds
    | _ => none

end HumanOp

section
variable {env : Env} {p : Policy} {stats : UserGuildStats} {s s' : Db} {now r : Int}
  {guild : GuildSnapshot}

theorem humanOperation_eq_ok {α : Type} {user : Uuid} {today now : Int} {audit : Uuid}
    {rest : Policy → UserGuildStats → Query α} {a : α}
    (h : (humanOperation env user today now audit rest).run s = (.ok a, s')) :
    ∃ policy stats s₁, (rest policy stats).run s₁ = (.ok a, s') := by
  obtain ⟨loaded, s₁, -, h⟩ := Tx.run_bind_eq_ok h
  obtain ⟨stats, s₂, -, h⟩ := Tx.run_bind_eq_ok h
  exact ⟨loaded.1, stats, s₂, h⟩

theorem retryAfter_sendMessageChecked {m : NewMessage}
    (h : (sendMessageChecked env p stats m now).run s = (.ok (.limited guild r), s')) :
    r = secondsUntilNextUtcDay now := by
  rcases run_sendMessageChecked_ok h with ⟨hres, -⟩ | ⟨-, saved, s₁, hres, -⟩ <;> cases hres
  rfl

theorem retryAfter_attachmentActionChecked {T : Type} {user : Uuid} {mimeType : String}
    {operation : Query T}
    (h : (attachmentActionChecked env p stats user mimeType operation now).run s =
      (.ok (.limited guild r), s')) : r = secondsUntilNextUtcDay now := by
  rcases run_attachmentActionChecked_ok h with ⟨-, hres | hres⟩ | ⟨-, value, s₁, hres, -⟩ <;>
    cases hres
  rfl

theorem retryAfter_resolveContactChecked {user : Uuid}
    (h : (resolveContactChecked env p stats user now).run s = (.ok (.limited guild r), s')) :
    r = secondsUntilNextUtcDay now := by
  rcases run_resolveContactChecked_ok h with ⟨hres, -⟩ | ⟨-, -, hres, -⟩ <;> cases hres
  rfl

theorem HumanOp.retryAfter_eq {op : HumanOp} (h : op.retryAfter env s = some r) :
    r = secondsUntilNextUtcDay op.now := by
  cases op with
  | recordHumanActivity u t now audit => cases h
  | sendMessageWithGuild m now audit =>
    rw [retryAfter] at h
    split at h
    · rename_i guild r₀ hrun
      cases h
      obtain ⟨p, stats, s₁, hrun⟩ := humanOperation_eq_ok (Prod.ext hrun rfl)
      exact retryAfter_sendMessageChecked hrun
    · cases h
  | runAttachmentActionWithGuild u mimeType operation now audit =>
    rw [retryAfter] at h
    split at h
    · rename_i guild r₀ hrun
      cases h
      obtain ⟨p, stats, s₁, hrun⟩ := humanOperation_eq_ok (Prod.ext hrun rfl)
      exact retryAfter_attachmentActionChecked hrun
    · cases h
  | resolveContactWithGuild u now audit =>
    rw [retryAfter] at h
    split at h
    · rename_i guild r₀ hrun
      cases h
      obtain ⟨p, stats, s₁, hrun⟩ := humanOperation_eq_ok (Prod.ext hrun rfl)
      exact retryAfter_resolveContactChecked hrun
    · cases h

/-- A client that waits as long as it is told comes on a later day exactly if it was refused on
time; and this is so on a clock of any resolution. -/
theorem retry_after_iff {op : HumanOp} (h : op.retryAfter env s = some r) :
    (dateNaive op.now < dateNaive (op.now + Duration.seconds r) ↔ OnTime 1000000 op.now) ∧
      ∀ unit now : Int, 0 < unit →
        (dayAt unit now < dayAt unit (now + unit * secondsUntilNextUtcDayAt unit now) ↔
          OnTime unit now) := by
  refine ⟨?_, fun unit now hunit => secondsUntilNextUtcDayAt_iff hunit now⟩
  rw [op.retryAfter_eq h, Duration.seconds, Int.mul_comm]
  exact secondsUntilNextUtcDayAt_iff (by decide) op.now

end

/-! ## Samples -/

/-- The account has sent all its messages of the day. -/
def messagesUsedUp : Db :=
  { accountAndAdmin with dailyActionCounters := ⟨[⟨1, .outboundMessage, 0, 50⟩], by decide⟩ }

def lateMessage (now : Int) : HumanOp := .sendMessageWithGuild ⟨11, 1, 2, "hello", now⟩ now 21

/-- One second before midnight a second is enough. -/
theorem retry_after_last_second :
    dateNaive 86399000000 < dateNaive (86399000000 + Duration.seconds 1) :=
  (retry_after_iff (show (lateMessage 86399000000).retryAfter asciiEnv messagesUsedUp = some 1
    by decide)).1.mpr (by decide)

/-- A second and a half before midnight the client is told to wait a second, and comes on the same
day. -/
theorem retry_after_too_early :
    (lateMessage 86398500000).retryAfter asciiEnv messagesUsedUp = some 1 ∧
      dateNaive (86398500000 + Duration.seconds 1) = dateNaive 86398500000 := by
  constructor <;> decide

end SyncServer.Guild
