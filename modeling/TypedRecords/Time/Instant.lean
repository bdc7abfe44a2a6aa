/-
Instants in UTC.

An instant is a count of seconds since 1970 with a fraction in nanoseconds.  A second count has no
room for leap seconds, so the fraction does: from one thousand million nanoseconds on it stands for
the second numbered 60, which only follows a second numbered 59.
-/
import TypedRecords.Time.Calendar

namespace TypedRecords.Time

/-- A point in time, to the nanosecond. -/
structure Instant where
  seconds : Int
  nanos : Nat
  nanos_lt : nanos < 2000000000
  leap : 1000000000 ≤ nanos → seconds % 60 = 59
deriving DecidableEq

namespace Instant

/-- The instant with these parts, when the fraction is one. -/
def ofParts? (seconds : Int) (nanos : Nat) : Option Instant :=
  if h : nanos < 2000000000 ∧ (1000000000 ≤ nanos → seconds % 60 = 59) then
    some ⟨seconds, nanos, h.1, h.2⟩
  else none

/-- 1 January 1970, midnight. -/
def epoch : Instant := ⟨0, 0, by decide, by decide⟩

instance : Inhabited Instant := ⟨epoch⟩

/-- The date of an instant. -/
def date (t : Instant) : Date := Date.ofDays (t.seconds / 86400)

/-- Seconds since midnight. -/
def secondOfDay (t : Instant) : Nat := (t.seconds % 86400).toNat

/-- The second within the minute, 60 for a leap second. -/
def secondOfMinute (t : Instant) : Nat :=
  t.secondOfDay % 60 + t.nanos / 1000000000

/-- The nanoseconds within the second. -/
def nanoOfSecond (t : Instant) : Nat := t.nanos % 1000000000

/-- Timestamps have this year. -/
def yearInRange (year : Int) : Bool := -262143 ≤ year && year ≤ 262142

/-- The instant falls in a year that timestamps have. -/
def inRange (t : Instant) : Bool := yearInRange t.date.year

theorem secondOfMinute_le (t : Instant) : t.secondOfMinute ≤ 60 := by
  unfold secondOfMinute secondOfDay
  have h := t.nanos_lt
  omega

end Instant

end TypedRecords.Time
