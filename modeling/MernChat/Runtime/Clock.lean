import Mathlib.Data.Int.Basic
import Mathlib.Tactic.SplitIfs

/-!
# Timestamps and dates

PostgreSQL keeps `TIMESTAMPTZ` values to the microsecond; a JavaScript `Date` counts
milliseconds, and holds no value outside the range of dates. Both are integers here, counted
from the epoch. The repositories read every timestamp column as `new Date(String(row.column))`:
the driver's parser has already made the column a `Date`, whose text form, here in UTC, prints
whole seconds.

## Main definitions

* `JsDate`: a date, which may be invalid
* `pgDate`: the `Date` the driver makes of a timestamp
* `dateOfString`: `new Date(String(d))`
* `readTimestamp`: the date a repository stores for a timestamp column

## Main results

* `readTimestamp_of_modern`: reading a timestamp truncates it to the second
-/

namespace MernChat

/-- A `Date`: its time value, or none when the date is invalid. -/
abbrev JsDate := Option Int

/-- The last millisecond a date can hold. -/
def MAX_TIME : Int := 8640000000000000

/-- The date of a time value. -/
def timeClip (ms : Int) : JsDate := if -MAX_TIME ≤ ms ∧ ms ≤ MAX_TIME then some ms else none

/-- The driver's parser keeps milliseconds. -/
def pgDate (t : Int) : JsDate := timeClip (t / 1000)

def DAY : Int := 86400000

/-- The first day of the years 0, 50 and 100, counted from the epoch. -/
def YEAR_0 : Int := -719528

def YEAR_50 : Int := -701265

def YEAR_100 : Int := -683003

/-- `new Date(String(d))`: the text form of a date has no fraction of a second. The parser takes
the years from 0 to 49 for 2000 to 2049, those from 50 to 99 for 1950 to 1999, and rejects the
years before. -/
def dateOfString (d : JsDate) : JsDate :=
  d.bind fun ms =>
    let s := ms / 1000 * 1000
    if s < YEAR_0 * DAY then none
    else if s < YEAR_50 * DAY then some (s + 730485 * DAY)
    else if s < YEAR_100 * DAY then some (s + 693960 * DAY)
    else some s

/-- `new Date(String(row.column))`. -/
def readTimestamp (t : Int) : JsDate := dateOfString (pgDate t)

/-- A `Date` passed as a query parameter. -/
def pgTimestamp (ms : Int) : Int := ms * 1000

/-- The first millisecond of the timestamps, day 0 of the Julian count. -/
def MIN_TIMESTAMP : Int := -2440588 * DAY

/-- A timestamp of the years from 100 on, in the range of dates. -/
def ModernTimestamp (t : Int) : Prop := YEAR_100 * DAY * 1000 ≤ t ∧ t / 1000 ≤ MAX_TIME

instance (t : Int) : Decidable (ModernTimestamp t) :=
  inferInstanceAs (Decidable (_ ∧ _))

/-- **Reading a timestamp truncates it to the second.** -/
theorem readTimestamp_of_modern {t : Int} (h : ModernTimestamp t) :
    readTimestamp t = some (t / 1000000 * 1000) := by
  obtain ⟨h₁, h₂⟩ := h
  simp only [YEAR_100, DAY, MAX_TIME] at h₁ h₂
  have hclip : pgDate t = some (t / 1000) := by
    unfold pgDate timeClip
    rw [if_pos]
    simp only [MAX_TIME]
    omega
  have hs : t / 1000 / 1000 * 1000 = t / 1000000 * 1000 := by omega
  have hyear : YEAR_100 * DAY ≤ t / 1000000 * 1000 := by
    simp only [YEAR_100, DAY]
    omega
  simp only [readTimestamp, hclip, dateOfString, Option.bind_some, hs]
  rw [if_neg, if_neg, if_neg]
  · exact Int.not_lt.mpr hyear
  · simp only [YEAR_50, YEAR_100, DAY] at hyear ⊢
    omega
  · simp only [YEAR_0, YEAR_100, DAY] at hyear ⊢
    omega

/-- What is read is a date, of the year 0 at the earliest. -/
theorem readTimestamp_bounds {t ms : Int} (h : readTimestamp t = some ms) :
    YEAR_0 * DAY ≤ ms ∧ ms ≤ MAX_TIME ∧ ms % 1000 = 0 := by
  obtain ⟨d, hd, h⟩ := Option.bind_eq_some_iff.mp h
  unfold pgDate timeClip at hd
  split_ifs at hd with hclip
  obtain rfl := Option.some.inj hd
  simp only at h
  split_ifs at h with h₀ h₅₀ h₁₀₀ <;> obtain rfl := Option.some.inj h <;>
    simp only [YEAR_0, YEAR_50, YEAR_100, DAY, MAX_TIME] at * <;> omega

end MernChat
