/-
When the signing key is replaced by itself.

The schedule waits until the key is due and the last attempt is far enough back, and then
for the quiet window of the day. The zone is a fixed offset from UTC.
-/

import Mathlib.Order.Bounds.Basic
import Syndra.Claims.Config

namespace Syndra.Claims.QuietWindow

def minute : Int := 60 * second

def day : Int := 1440 * minute

theorem minute_eq : minute = (60000000000 : Int) := by rfl

theorem day_eq : day = (86400000000000 : Int) := by rfl

def autoAttemptGap : Int := 20 * 60 * minute

/-- The window's start and end are minutes after local midnight. -/
structure AutoRotateConfig where
  threshold : Int
  lead : Int
  start : Nat
  end_ : Nat
  startInDay : start < 1440
  endInDay : end_ < 1440
  differ : start ≠ end_

namespace AutoRotateConfig

variable (offset : Int) (c : AutoRotateConfig)

def inWindow (t : Int) : Bool :=
  let m := (t + offset) % day / minute
  if c.start < c.end_ then c.start ≤ m ∧ m < c.end_ else c.start ≤ m ∨ m < c.end_

def windowFrom (t : Int) : Int :=
  if c.inWindow offset t then t
  else
    let start := (t + offset) / day * day + c.start * minute - offset
    if t < start then start else start + day

end AutoRotateConfig

/-- Ninety days, five days' lead and the window 03:00-05:00. -/
def defaultConfig : AutoRotateConfig :=
  { threshold := 90 * day, lead := 5 * day, start := 180, end_ := 300
    startInDay := by decide, endInDay := by decide, differ := by decide }

def nextAutoAttempt (offset now : Int) (lastReplaced lastAuto : Option Int)
    (c : AutoRotateConfig) : Int :=
  let earliest := lastReplaced.elim now fun at_ => max now (at_ + (c.threshold - c.lead))
  let earliest := lastAuto.elim earliest fun at_ => max earliest (at_ + autoAttemptGap)
  c.windowFrom offset earliest

/-- The window in nanoseconds since local midnight. -/
theorem inWindow_iff (offset : Int) (c : AutoRotateConfig) (t : Int) :
    c.inWindow offset t = true ↔
      c.start < c.end_ ∧ c.start * minute ≤ (t + offset) % day ∧
          (t + offset) % day < c.end_ * minute ∨
        ¬c.start < c.end_ ∧ (c.start * minute ≤ (t + offset) % day ∨
          (t + offset) % day < c.end_ * minute) := by
  have positive : 0 < minute := by decide
  rw [← Int.le_ediv_iff_mul_le positive,← Int.ediv_lt_iff_lt_mul positive]
  unfold AutoRotateConfig.inWindow
  dsimp only
  split <;> simp [*]

theorem windowFrom_least (offset : Int) (c : AutoRotateConfig) (t : Int) :
    IsLeast {instant | c.inWindow offset instant = true ∧ t ≤ instant} (c.windowFrom offset t) := by
  have window := inWindow_iff offset c
  have startInDay := c.startInDay
  have endInDay := c.endInDay
  have differ := c.differ
  unfold AutoRotateConfig.windowFrom
  split
  next inside => exact ⟨⟨inside,le_refl t⟩,fun instant meets => meets.2⟩
  next outside =>
    rw [window] at outside
    dsimp only
    split
    all_goals
      simp only [day_eq,minute_eq] at *
      refine ⟨⟨(window _).mpr (by omega),by omega⟩,fun instant meets => ?_⟩
      have inside := (window instant).mp meets.1
      have after := meets.2
      omega

/-- Both give the first instant of the window that is not before any of their bounds. -/
theorem nextAutoAttempt_least (offset now : Int) (lastReplaced lastAuto : Option Int)
    (c : AutoRotateConfig) :
    IsLeast {instant | c.inWindow offset instant = true ∧ now ≤ instant}
        (c.windowFrom offset now) ∧
      IsLeast {instant | c.inWindow offset instant = true ∧ now ≤ instant ∧
          (∀ at_ ∈ lastReplaced, at_ + (c.threshold - c.lead) ≤ instant) ∧
          ∀ at_ ∈ lastAuto, at_ + autoAttemptGap ≤ instant}
        (nextAutoAttempt offset now lastReplaced lastAuto c) := by
  refine ⟨windowFrom_least offset c now,?_⟩
  have least := windowFrom_least offset c
  unfold nextAutoAttempt
  cases lastReplaced with
  | none =>
    cases lastAuto with
    | none => simpa using least now
    | some auto => simpa [max_le_iff] using least (max now (auto + autoAttemptGap))
  | some replaced =>
    cases lastAuto with
    | none => simpa using least (max now (replaced + (c.threshold - c.lead)))
    | some auto =>
      simpa [and_assoc] using
        least (max (max now (replaced + (c.threshold - c.lead))) (auto + autoAttemptGap))

/-- Due at six in the morning, the key is replaced at three the day after. -/
theorem nextAutoAttempt_default :
    IsLeast {instant | defaultConfig.inWindow 0 instant = true ∧ 0 ≤ instant ∧
        (∀ at_ ∈ some (360 * minute - 85 * day), at_ + (90 * day - 5 * day) ≤ instant) ∧
        ∀ at_ ∈ none, at_ + autoAttemptGap ≤ instant}
      (day + 180 * minute) :=
  (nextAutoAttempt_least 0 0 (some (360 * minute - 85 * day)) none defaultConfig).2

end Syndra.Claims.QuietWindow
