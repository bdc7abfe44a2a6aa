/-
Timestamps as RFC 3339 text.

A timestamp is written in UTC with a `Z`, either to the second or with as many groups of three
fraction digits as it needs.  Years outside 0 to 9999 get a sign.  Reading takes a space for the `T`, any
offset up to a day, a fraction of any length (cut after nine digits) and the second 60; the date has
to exist both at its offset and in UTC.  The lenient reading also takes unpadded numbers, a signed
year, blanks between the parts, and the word `UTC` for the offset.
-/
import TypedRecords.Text.Blank
import TypedRecords.Text.Digits
import TypedRecords.Time.Instant

namespace TypedRecords.Time

open Text (isBlank digitValue? ofDigits padded)

/-! ### Writing -/

/-- A year: four digits, or a sign and at least four digits outside 0 to 9999. -/
def yearText (year : Int) : List Char :=
  if 0 ≤ year ∧ year ≤ 9999 then padded 4 year.natAbs
  else (if year < 0 then '-' else '+') :: padded 4 year.natAbs

/-- A date as `year-month-day`. -/
def Date.text (d : Date) : List Char :=
  yearText d.year ++ '-' :: padded 2 d.month ++ '-' :: padded 2 d.day

/-- The nanoseconds of a second as a fraction of no, three, six or nine digits. -/
def fractionText (nanos : Nat) : List Char :=
  if nanos = 0 then []
  else if nanos % 1000000 = 0 then '.' :: padded 3 (nanos / 1000000)
  else if nanos % 1000 = 0 then '.' :: padded 6 (nanos / 1000)
  else '.' :: padded 9 nanos

namespace Instant

/-- Date and time of day to the second, without the offset. -/
def clockText (t : Instant) : List Char :=
  t.date.text ++ 'T' :: padded 2 (t.secondOfDay / 3600) ++ ':' :: padded 2 (t.secondOfDay / 60 % 60)
    ++ ':' :: padded 2 t.secondOfMinute

/-- The timestamp to the second, its fraction cut off. -/
def toTheSecond (t : Instant) : String := String.ofList (t.clockText ++ ['Z'])

/-- The timestamp with the fraction digits it needs. -/
def inFull (t : Instant) : String :=
  String.ofList (t.clockText ++ fractionText t.nanoOfSecond ++ ['Z'])

end Instant

/-! ### Reading -/

/-- Reads at least `low` and at most `high` digits. -/
def readNumber (low high : Nat) (cs : List Char) : Option (Nat × List Char) :=
  let digits := (cs.take high).takeWhile Char.isDigit
  if digits.length < low then none
  else (digits.mapM digitValue?).map fun ds => (ofDigits 10 0 ds, cs.drop digits.length)

/-- Reads one given character. -/
def readMark (c : Char) : List Char → Option (List Char)
  | [] => none
  | d :: cs => if d = c then some cs else none

/-- The blanks that a lenient reading skips. -/
def skip (lenient : Bool) (cs : List Char) : List Char :=
  if lenient then cs.dropWhile isBlank else cs

/-- Reads a number of `width` digits, or up to `width` of them when lenient. -/
def readField (lenient : Bool) (width : Nat) (cs : List Char) : Option (Nat × List Char) :=
  readNumber (if lenient then 1 else width) width (skip lenient cs)

/-- Reads a year; a lenient reading allows a sign and any number of digits after it. -/
def readYear (lenient : Bool) (cs : List Char) : Option (Int × List Char) :=
  match lenient, skip lenient cs with
  | true, '-' :: rest => (readNumber 1 rest.length rest).map fun (n, cs) => (-(n : Int), cs)
  | true, '+' :: rest => (readNumber 1 rest.length rest).map fun (n, cs) => ((n : Int), cs)
  | _, rest => (readField lenient 4 rest).map fun (n, cs) => ((n : Int), cs)

/-- Reads the fraction of a second, if there is one, in nanoseconds. -/
def readFraction : List Char → Option (Nat × List Char)
  | '.' :: cs =>
    let digits := cs.takeWhile Char.isDigit
    if digits.isEmpty then none
    else ((digits.take 9).mapM digitValue?).map fun ds =>
      (ofDigits 10 0 ds * 10 ^ (9 - ds.length), cs.drop digits.length)
  | cs => some (0, cs)

/-- Reads the hours and minutes of an offset, in seconds. -/
def readOffsetClock (lenient : Bool) (cs : List Char) : Option (Nat × List Char) := do
  let (hours, cs) ← readNumber 2 2 cs
  let cs ← if lenient then some (cs.dropWhile fun c => c = ':' || isBlank c) else readMark ':' cs
  let (minutes, cs) ← readNumber 2 2 cs
  if 60 ≤ minutes then none else some (hours * 3600 + minutes * 60, cs)

/-- Reads the offset from UTC in seconds; the minus sign may be a hyphen or U+2212. -/
def readOffset (lenient : Bool) : List Char → Option (Int × List Char)
  | [] => none
  | c :: cs =>
    if c = 'Z' ∨ c = 'z' then some (0, cs)
    else if c = '+' then (readOffsetClock lenient cs).map fun (n, cs) => ((n : Int), cs)
    else if c = '-' ∨ c = '\u2212' then
      (readOffsetClock lenient cs).map fun (n, cs) => (-(n : Int), cs)
    else if lenient ∧ (c :: cs.take 2).map Char.toUpper = ['U', 'T', 'C'] then some (0, cs.drop 2)
    else none

/-- The instant shown by a calendar and a clock at an offset from UTC. -/
def Instant.ofClock? (date : Date) (hour minute second nanos : Nat) (offset : Int) :
    Option Instant :=
  if date.Valid ∧ yearInRange date.year ∧ hour < 24 ∧ minute < 60 ∧ second ≤ 60 ∧
      offset.natAbs < 86400 then
    let seconds := date.toDays * 86400 + hour * 3600 + minute * 60 + min second 59 - offset
    (ofParts? seconds (nanos + if second = 60 then 1000000000 else 0)).filter inRange
  else none

/-- Reads a timestamp that takes up the whole text. -/
def readTimestamp (lenient : Bool) (cs : List Char) : Option Instant := do
  let (year, cs) ← readYear lenient cs
  let cs ← readMark '-' (skip lenient cs)
  let (month, cs) ← readField lenient 2 cs
  let cs ← readMark '-' (skip lenient cs)
  let (day, cs) ← readField lenient 2 cs
  let cs ← readMark 'T' cs <|> readMark 't' cs <|> readMark ' ' cs
  let (hour, cs) ← readField lenient 2 cs
  let cs ← readMark ':' (skip lenient cs)
  let (minute, cs) ← readField lenient 2 cs
  let cs ← readMark ':' (skip lenient cs)
  let (second, cs) ← readField lenient 2 cs
  let (nanos, cs) ← readFraction cs
  let (offset, cs) ← readOffset lenient (skip lenient cs)
  if (skip lenient cs).isEmpty then
    Instant.ofClock? ⟨year, month, day⟩ hour minute second nanos offset
  else none

/-- The instant an RFC 3339 text stands for. -/
def Instant.ofText? (s : String) : Option Instant := readTimestamp false s.toList

/-- The instant a leniently written timestamp stands for. -/
def Instant.ofLenientText? (s : String) : Option Instant := readTimestamp true s.toList

example : (Instant.ofText? "2024-03-01T08:30:00+02:00").map Instant.toTheSecond
    = some "2024-03-01T06:30:00Z" := by decide +kernel
example : (Instant.ofText? "2016-12-31T23:59:60Z").map Instant.toTheSecond
    = some "2016-12-31T23:59:60Z" := by decide +kernel

end TypedRecords.Time
