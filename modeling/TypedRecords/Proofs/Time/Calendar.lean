/-
Days of the calendar and back.

The year found for a day begins no later and ends after it, so what is left is a day within the
year.  Walking the months takes the lengths of those before off it, so what is left at the end is a
day within the month.  Every day is hence the day of the date found for it.
-/
import Mathlib.Algebra.GroupWithZero.Nat
import TypedRecords.Time.Calendar

namespace TypedRecords.Time

/-- The walk stops at the month that holds the day, after the lengths of those before it. -/
theorem exists_findMonth_eq {day : Nat} {lengths : List Nat} (month : Nat)
    (h : day < lengths.sum) : ∃ i rest, i < lengths.length ∧ rest < lengths.getD i 0 ∧
      day = (lengths.take i).sum + rest ∧ findMonth month day lengths = (month + i, rest + 1) := by
  induction lengths generalizing month day with
  | nil => simp at h
  | cons length lengths ih =>
      by_cases hday : day < length
      · refine ⟨0, day, by simp, by simpa using hday, by simp, ?_⟩
        rw [findMonth, if_pos hday]
        rfl
      · rw [List.sum_cons] at h
        obtain ⟨i, rest, hi, hrest, heq, hfind⟩ :=
          ih (month + 1) (show day - length < lengths.sum by omega)
        refine ⟨i + 1, rest, by simpa using hi, by simpa using hrest, ?_, ?_⟩
        · rw [List.take_succ_cons, List.sum_cons]
          omega
        · rw [findMonth, if_neg hday, hfind, Nat.add_assoc, Nat.add_comm 1 i]

theorem sum_monthLengths (year : Int) :
    (monthLengths year).sum = if isLeapYear year then 366 else 365 := by
  unfold monthLengths
  split <;> rfl

theorem getD_monthLengths_le (year : Int) (i : Nat) : (monthLengths year).getD i 0 ≤ 31 := by
  have hall : ∀ length ∈ monthLengths year, length ≤ 31 := by
    unfold monthLengths
    split <;> decide
  rw [List.getD_eq_getElem?_getD]
  cases hlength : (monthLengths year)[i]? with
  | none => exact Nat.zero_le 31
  | some length => exact hall length (List.mem_of_getElem? hlength)

namespace Date

/-- The date found for a day is one that exists, and it is that day's. -/
theorem valid_ofDays_and_toDays_ofDays (days : Int) :
    (ofDays days).Valid ∧ (ofDays days).toDays = days := by
  obtain ⟨hlow, hhigh⟩ := yearOfDay_bounds (days + epochDays)
  rw [daysBeforeYear_succ] at hhigh
  generalize hyear : yearOfDay (days + epochDays) = year at hlow hhigh
  have hwithin : (days + epochDays - daysBeforeYear year).toNat < (monthLengths year).sum := by
    rw [sum_monthLengths]
    split at hhigh <;> rename_i hleap
    · rw [if_pos hleap]
      omega
    · rw [if_neg hleap]
      omega
  obtain ⟨i, rest, hi, hrest, heq, hfind⟩ := exists_findMonth_eq 1 hwithin
  have hdate : ofDays days = ⟨year, 1 + i, rest + 1⟩ := by
    rw [ofDays]
    dsimp only
    rw [hyear, hfind]
  have hmonths : (monthLengths year).length = 12 := rfl
  rw [hdate]
  refine ⟨⟨?_, ?_, ?_, ?_⟩, ?_⟩
  · show 1 ≤ 1 + i
    omega
  · show 1 + i ≤ 12
    omega
  · show 1 ≤ rest + 1
    omega
  · show rest + 1 ≤ (monthLengths year).getD (1 + i - 1) 0
    rw [Nat.add_sub_cancel_left]
    exact hrest
  · rw [toDays, daysBeforeMonth]
    dsimp only
    rw [Nat.add_sub_cancel_left, ← List.sum_eq_foldl]
    omega

theorem valid_ofDays (days : Int) : (ofDays days).Valid :=
  (valid_ofDays_and_toDays_ofDays days).1

theorem toDays_ofDays (days : Int) : (ofDays days).toDays = days :=
  (valid_ofDays_and_toDays_ofDays days).2

end Date

end TypedRecords.Time
