/-
The Gregorian calendar, extended in both directions.

Days are counted from 1 January 1970.  A year's first day is found by counting the leap years
before it; the year of a day is the one whose first day is the last not after it, which a division
by the mean length of a year misses by at most one.
-/
namespace TypedRecords.Time

/-- A day of the calendar. -/
structure Date where
  year : Int
  month : Nat
  day : Nat
deriving DecidableEq

/-- Every fourth year is a leap year, save the centuries that 400 does not divide. -/
def isLeapYear (year : Int) : Bool :=
  year % 4 = 0 && (year % 100 ≠ 0 || year % 400 = 0)

/-- The lengths of a year's months in order. -/
def monthLengths (year : Int) : List Nat :=
  [31, if isLeapYear year then 29 else 28, 31, 30, 31, 30, 31, 31, 30, 31, 30, 31]

/-- The days from 1 January of year 1 to 1 January of `year`. -/
def daysBeforeYear (year : Int) : Int :=
  let past := year - 1
  365 * past + past / 4 - past / 100 + past / 400

/-- The days from 1 January of year 1 to 1 January 1970. -/
def epochDays : Int := 719162

/-- The year that holds a day counted from 1 January of year 1. -/
def yearOfDay (day : Int) : Int :=
  let guess := day * 400 / 146097 + 1
  if day < daysBeforeYear guess then guess - 1
  else if daysBeforeYear (guess + 1) ≤ day then guess + 1
  else guess

/-- Walks the months from `month` on to the one that holds the `day`-th day, counted from zero;
gives the month and the day in it, counted from one. -/
def findMonth (month day : Nat) : List Nat → Nat × Nat
  | [] => (month, day + 1)
  | length :: rest =>
    if day < length then (month, day + 1) else findMonth (month + 1) (day - length) rest

namespace Date

/-- The month and the day exist in that year. -/
def Valid (d : Date) : Prop :=
  1 ≤ d.month ∧ d.month ≤ 12 ∧ 1 ≤ d.day ∧ d.day ≤ (monthLengths d.year).getD (d.month - 1) 0

instance (d : Date) : Decidable d.Valid := by unfold Valid; infer_instance

/-- The days from 1 January to the first day of the date's month. -/
def daysBeforeMonth (d : Date) : Nat :=
  ((monthLengths d.year).take (d.month - 1)).foldl (· + ·) 0

/-- The days from 1 January 1970 to this date. -/
def toDays (d : Date) : Int :=
  daysBeforeYear d.year - epochDays + d.daysBeforeMonth + (d.day - 1)

/-- The date a number of days after 1 January 1970. -/
def ofDays (days : Int) : Date :=
  let day := days + epochDays
  let year := yearOfDay day
  let (month, dayOfMonth) := findMonth 1 (day - daysBeforeYear year).toNat (monthLengths year)
  ⟨year, month, dayOfMonth⟩

end Date

/-- Consecutive years differ by the length of the first. -/
theorem daysBeforeYear_succ (year : Int) :
    daysBeforeYear (year + 1) = daysBeforeYear year + (if isLeapYear year then 366 else 365) := by
  by_cases h : isLeapYear year = true
  · rw [if_pos h]
    simp [isLeapYear] at h
    simp only [daysBeforeYear]
    omega
  · rw [if_neg h]
    simp [isLeapYear] at h
    simp only [daysBeforeYear]
    omega

/-- The mean length of a year misses the year of a day by at most one. -/
theorem yearOfDay_guess (day : Int) :
    daysBeforeYear (day * 400 / 146097) ≤ day ∧
      day < daysBeforeYear (day * 400 / 146097 + 3) := by
  simp only [daysBeforeYear]
  omega

/-- The year found begins no later than the day and ends after it. -/
theorem yearOfDay_bounds (day : Int) :
    daysBeforeYear (yearOfDay day) ≤ day ∧ day < daysBeforeYear (yearOfDay day + 1) := by
  have h := yearOfDay_guess day
  unfold yearOfDay
  generalize day * 400 / 146097 = g at h ⊢
  dsimp only
  split
  · rename_i hlt
    refine ⟨?_, ?_⟩
    · rw [show g + 1 - 1 = g by omega]; exact h.1
    · rw [show g + 1 - 1 + 1 = g + 1 by omega]; exact hlt
  · rename_i hge
    split
    · rename_i hle
      exact ⟨hle, by rw [show g + 1 + 1 + 1 = g + 3 by omega]; exact h.2⟩
    · rename_i hgt
      exact ⟨by omega, by omega⟩

example : Date.ofDays 0 = ⟨1970, 1, 1⟩ := by decide +kernel
example : Date.toDays ⟨2000, 3, 1⟩ = 11017 := by decide +kernel
example : Date.ofDays (-719528) = ⟨0, 1, 1⟩ := by decide +kernel

end TypedRecords.Time
