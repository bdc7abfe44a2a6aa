/-
Timestamps read back.

A timestamp is written as numbers of fixed width with marks between.  A number of fixed width reads
back wherever it stands, so the reader gets the date and the clock that were written, and the days
of the date and the seconds of the clock add up to the instant, its fraction cut off.
-/
import TypedRecords.Proofs.Text.Digits
import TypedRecords.Proofs.Time.Calendar
import TypedRecords.Time.Rfc3339

namespace TypedRecords.Time

open Text (fixedDigits padded)

/-! ### Numbers of fixed width -/

theorem isDigit_of_mem_padded {width n : Nat} (hwidth : 0 < width) (h : n < 10 ^ width) :
    ∀ c ∈ padded width n, c.isDigit = true := by
  intro c hc
  rw [Text.padded_eq hwidth h] at hc
  obtain ⟨d, hd, rfl⟩ := List.mem_map.mp hc
  simp [Nat.isDigit_digitChar, Text.lt_of_mem_fixedDigits (by decide) hd]

theorem length_padded {width n : Nat} (hwidth : 0 < width) (h : n < 10 ^ width) :
    (padded width n).length = width := by
  rw [Text.padded_eq hwidth h, List.length_map, Text.fixedDigits_length]

/-- A padded number reads back, whatever stands behind it. -/
theorem readNumber_padded {width n : Nat} (hwidth : 0 < width) (h : n < 10 ^ width)
    (rest : List Char) : readNumber width width (padded width n ++ rest) = some (n, rest) := by
  have hdigits : ((padded width n ++ rest).take width).takeWhile Char.isDigit
      = padded width n := by
    rw [List.take_left' (length_padded hwidth h), ← List.append_nil (padded width n),
      List.takeWhile_append_of_pos (isDigit_of_mem_padded hwidth h)]
    rfl
  have hvalues : (padded width n).mapM Text.digitValue? = some (fixedDigits 10 width n) := by
    rw [Text.padded_eq hwidth h]
    exact Text.mapM_digitValue? width n
  rw [readNumber, hdigits, length_padded hwidth h, if_neg (Nat.lt_irrefl width), hvalues, Option.map_some,
    Text.ofDigits_fixedDigits, Nat.mod_eq_of_lt h, List.drop_left' (length_padded hwidth h)]

theorem readField_padded {width n : Nat} (hwidth : 0 < width) (h : n < 10 ^ width)
    (rest : List Char) : readField false width (padded width n ++ rest) = some (n, rest) :=
  readNumber_padded hwidth h rest

theorem readYear_padded {n : Nat} (h : n < 10 ^ 4) (rest : List Char) :
    readYear false (padded 4 n ++ rest) = some ((n : Int), rest) := by
  simp only [readYear, skip, Bool.false_eq_true, if_false, readField_padded (by decide) h]
  rfl

theorem readMark_cons (c : Char) (cs : List Char) : readMark c (c :: cs) = some cs :=
  if_pos rfl

theorem bind_of_eq_some {α β : Type} {x : Option α} {a : α} (h : x = some a)
    (f : α → Option β) : (x >>= f) = f a := by
  rw [h]
  rfl

namespace Instant

/-! ### The parts of a clock -/

/-- The instant with its fraction of a second cut off; a leap second stays one. -/
def cut (t : Instant) : Instant where
  seconds := t.seconds
  nanos := t.nanos / 1000000000 * 1000000000
  nanos_lt := by have h := t.nanos_lt; omega
  leap h := t.leap (by omega)

/-- Instants with a year of four digits. -/
def HasPlainYear (t : Instant) : Prop := 0 ≤ t.date.year ∧ t.date.year ≤ 9999

theorem secondOfDay_lt (t : Instant) : t.secondOfDay < 86400 := by
  unfold secondOfDay
  omega

/-- The numbers of a clock have two digits. -/
theorem two_digits (t : Instant) :
    t.date.month < 10 ^ 2 ∧ t.date.day < 10 ^ 2 ∧ t.secondOfDay / 3600 < 10 ^ 2 ∧
      t.secondOfDay / 60 % 60 < 10 ^ 2 ∧ t.secondOfMinute < 10 ^ 2 := by
  obtain ⟨-, hmonth, -, hday⟩ : t.date.Valid := Date.valid_ofDays (t.seconds / 86400)
  have hdays := getD_monthLengths_le t.date.year (t.date.month - 1)
  have hclock := t.secondOfDay_lt
  have hsecond := t.secondOfMinute_le
  refine ⟨?_, ?_, ?_, ?_, ?_⟩ <;> omega

/-- The reader gets the parts that were written. -/
theorem readTimestamp_clockText {t : Instant} (h : t.HasPlainYear) :
    readTimestamp false (t.clockText ++ ['Z'])
      = ofClock? t.date (t.secondOfDay / 3600) (t.secondOfDay / 60 % 60) t.secondOfMinute 0 0 := by
  have hyear : yearText t.date.year = padded 4 t.date.year.natAbs := if_pos h
  have hnat : (t.date.year.natAbs : Int) = t.date.year := Int.natAbs_of_nonneg h.1
  have hyear4 : t.date.year.natAbs < 10 ^ 4 := by have hhigh := h.2; omega
  obtain ⟨hmonth, hday, hhour, hminute, hsecond⟩ := t.two_digits
  have htext : t.clockText ++ ['Z'] = padded 4 t.date.year.natAbs ++ '-' :: (padded 2 t.date.month
      ++ '-' :: (padded 2 t.date.day ++ 'T' :: (padded 2 (t.secondOfDay / 3600) ++ ':' ::
        (padded 2 (t.secondOfDay / 60 % 60) ++ ':' :: (padded 2 t.secondOfMinute ++ ['Z']))))) := by
    rw [clockText, Date.text, hyear]
    simp only [List.append_assoc, List.cons_append]
  have hclock (cs : List Char) :
      (readMark 'T' ('T' :: cs) <|> readMark 't' ('T' :: cs) <|> readMark ' ' ('T' :: cs))
        = some cs := rfl
  have hfraction : readFraction ['Z'] = some (0, ['Z']) := rfl
  have hoffset : readOffset false ['Z'] = some (0, []) := rfl
  rw [htext]
  -- each step takes one number or mark off the front and leaves the rest
  refine (bind_of_eq_some (readYear_padded hyear4 _) _).trans ?_
  refine (bind_of_eq_some (readMark_cons '-' _) _).trans ?_
  refine (bind_of_eq_some (readField_padded Nat.two_pos hmonth _) _).trans ?_
  refine (bind_of_eq_some (readMark_cons '-' _) _).trans ?_
  refine (bind_of_eq_some (readField_padded Nat.two_pos hday _) _).trans ?_
  refine (bind_of_eq_some (hclock _) _).trans ?_
  refine (bind_of_eq_some (readField_padded Nat.two_pos hhour _) _).trans ?_
  refine (bind_of_eq_some (readMark_cons ':' _) _).trans ?_
  refine (bind_of_eq_some (readField_padded Nat.two_pos hminute _) _).trans ?_
  refine (bind_of_eq_some (readMark_cons ':' _) _).trans ?_
  refine (bind_of_eq_some (readField_padded Nat.two_pos hsecond _) _).trans ?_
  refine (bind_of_eq_some hfraction _).trans ?_
  refine (bind_of_eq_some hoffset _).trans ?_
  show ofClock? ⟨(t.date.year.natAbs : Int), t.date.month, t.date.day⟩ _ _ _ 0 0 = _
  rw [hnat]

/-! ### Their sum -/

theorem secondOfDay_eq (t : Instant) : (t.secondOfDay : Int) = t.seconds % 86400 :=
  Int.toNat_of_nonneg (Int.emod_nonneg _ (by decide))

/-- The second within the minute is 60 in a leap second, and that of the day's count otherwise. -/
theorem second_cases (t : Instant) :
    (t.secondOfMinute = t.secondOfDay % 60 ∧ t.secondOfMinute < 60 ∧ t.nanos < 1000000000) ∨
      (t.secondOfMinute = 60 ∧ t.secondOfDay % 60 = 59 ∧ 1000000000 ≤ t.nanos) := by
  have hday := t.secondOfDay_eq
  have hnanos := t.nanos_lt
  unfold secondOfMinute
  by_cases hleap : 1000000000 ≤ t.nanos
  · have hsecond := t.leap hleap
    right
    omega
  · left
    omega

theorem ofParts?_cut (t : Instant) :
    ofParts? t.seconds (if t.secondOfMinute = 60 then 1000000000 else 0) = some t.cut := by
  have hnanos : (if t.secondOfMinute = 60 then 1000000000 else 0) = t.cut.nanos := by
    have hlt := t.nanos_lt
    show _ = t.nanos / 1000000000 * 1000000000
    rcases t.second_cases with ⟨-, hsecond, hfraction⟩ | ⟨hsecond, -, hfraction⟩
    · rw [if_neg (by omega)]
      omega
    · rw [if_pos hsecond]
      omega
  rw [hnanos]
  exact dif_pos ⟨t.cut.nanos_lt, t.cut.leap⟩

/-- The days of the date and the seconds of the clock make up the instant. -/
theorem ofClock?_clock {t : Instant} (h : t.inRange = true) :
    ofClock? t.date (t.secondOfDay / 3600) (t.secondOfDay / 60 % 60) t.secondOfMinute 0 0
      = some t.cut := by
  have hdate : t.date.Valid := Date.valid_ofDays (t.seconds / 86400)
  have hdays : t.date.toDays = t.seconds / 86400 := Date.toDays_ofDays (t.seconds / 86400)
  have hday := t.secondOfDay_eq
  have hclock := t.secondOfDay_lt
  have hseconds : t.date.toDays * 86400 + (t.secondOfDay / 3600 : Nat) * 3600
      + (t.secondOfDay / 60 % 60 : Nat) * 60 + (min t.secondOfMinute 59 : Nat) - 0 = t.seconds := by
    rcases t.second_cases with ⟨hsecond, hlt, -⟩ | ⟨hsecond, hlast, -⟩ <;> omega
  rw [ofClock?, if_pos ⟨hdate, h, by omega, by omega, t.secondOfMinute_le, by decide⟩]
  dsimp only
  rw [hseconds, Nat.zero_add, ofParts?_cut, Option.filter_some]
  exact if_pos h

/-- **A timestamp reads back**, its fraction of a second cut off. -/
theorem ofText?_toTheSecond {t : Instant} (h : t.HasPlainYear) :
    ofText? t.toTheSecond = some t.cut := by
  have hrange : t.inRange = true := by
    obtain ⟨hlow, hhigh⟩ := h
    rw [inRange, yearInRange, Bool.and_eq_true, decide_eq_true_eq, decide_eq_true_eq]
    omega
  rw [ofText?, toTheSecond, String.toList_ofList, readTimestamp_clockText h, ofClock?_clock hrange]

theorem secondOfMinute_cut (t : Instant) : t.cut.secondOfMinute = t.secondOfMinute := by
  show t.secondOfDay % 60 + t.nanos / 1000000000 * 1000000000 / 1000000000 = _
  rw [Nat.mul_div_cancel _ (by decide)]
  rfl

/-- The text of a timestamp does not show its fraction of a second. -/
theorem toTheSecond_cut (t : Instant) : t.cut.toTheSecond = t.toTheSecond := by
  rw [toTheSecond, clockText, secondOfMinute_cut]
  rfl

end Instant

end TypedRecords.Time
