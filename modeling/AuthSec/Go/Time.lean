import Mathlib.Algebra.Group.Int.Defs
import Mathlib.Data.Int.Basic
import Mathlib.Data.Nat.Basic

/-!
# Time

Points of time as nanoseconds from the Unix epoch, durations, and the text of a point of time in
`time.RFC3339Nano`.
-/

namespace AuthSec

/-- A point of time, in nanoseconds from the Unix epoch. -/
abbrev Time := ℤ

def second : ℤ := 1000000000
def hour : ℤ := 3600 * second
def day : ℤ := 24 * hour

/-- The zero value of `time.Time`: the first of January of the year 1. -/
def zeroTime : Time := -62135596800 * second

/-- `Time.Sub`: the longest durations stand for everything beyond them. -/
def timeSub (t u : Time) : ℤ :=
  max (-(2 ^ 63)) (min (2 ^ 63 - 1) (t - u))

/-! ## Text -/

/-- A date of the proleptic Gregorian calendar. -/
structure Date where
  year : ℤ
  month : ℕ
  day : ℕ

/-- The date a number of days after the epoch.  Years are counted from March, in cycles of 400. -/
def dateOfDays (days : ℤ) : Date :=
  let shifted := days + 719468
  let era := shifted.fdiv 146097
  let dayOfEra := (shifted - era * 146097).toNat
  let yearOfEra := (dayOfEra - dayOfEra / 1460 + dayOfEra / 36524 - dayOfEra / 146096) / 365
  let dayOfYear := dayOfEra - (365 * yearOfEra + yearOfEra / 4 - yearOfEra / 100)
  let shiftedMonth := (5 * dayOfYear + 2) / 153
  let month := if shiftedMonth < 10 then shiftedMonth + 3 else shiftedMonth - 9
  { year := era * 400 + yearOfEra + if month ≤ 2 then 1 else 0
    month
    day := dayOfYear - (153 * shiftedMonth + 2) / 5 + 1 }

/-- How many days after the epoch a date lies. -/
def Date.toDays (d : Date) : ℤ :=
  let year := if d.month ≤ 2 then d.year - 1 else d.year
  let era := year.fdiv 400
  let yearOfEra := year - era * 400
  let dayOfYear := (153 * ((d.month + 9) % 12) + 2) / 5 + (d.day - 1)
  era * 146097 + (yearOfEra * 365 + yearOfEra / 4 - yearOfEra / 100 + dayOfYear) - 719468

/-- `time.Date` at midnight UTC. -/
def dateTime (year : ℤ) (month dayOfMonth : ℕ) : Time :=
  Date.toDays ⟨year, month, dayOfMonth⟩ * day

/-- Decimal digits, with zeros in front up to a width. -/
def zeroPad (width n : ℕ) : String :=
  let digits := toString n
  String.ofList (List.replicate (width - digits.length) '0') ++ digits

def yearText (y : ℤ) : String :=
  if y < 0 then "-" ++ zeroPad 4 y.natAbs else zeroPad 4 y.natAbs

/-- The fraction of a second without the zeros at its end. -/
def fractionText (nanos : ℕ) : String :=
  if nanos = 0 then ""
  else "." ++ String.ofList (((zeroPad 9 nanos).toList.reverse.dropWhile (· == '0')).reverse)

/-- `t.UTC().Format(time.RFC3339Nano)`. -/
def rfc3339Nano (t : Time) : String :=
  let date := dateOfDays (t.fdiv day)
  let nanos := (t - t.fdiv day * day).toNat
  let seconds := nanos / 1000000000
  yearText date.year ++ "-" ++ zeroPad 2 date.month ++ "-" ++ zeroPad 2 date.day ++ "T" ++
    zeroPad 2 (seconds / 3600) ++ ":" ++ zeroPad 2 (seconds / 60 % 60) ++ ":" ++
    zeroPad 2 (seconds % 60) ++ fractionText (nanos % 1000000000) ++ "Z"

example : rfc3339Nano (1709210096 * second + 120000000) = "2024-02-29T12:34:56.12Z" := by
  decide +kernel

example : rfc3339Nano (dateTime 2016 2 29) = "2016-02-29T00:00:00Z" := by
  decide +kernel

/-- `ts`: no text for no time and for the zero time. -/
def ts (t : Option Time) : Option String :=
  t.bind fun t => if t = zeroTime then none else some (rfc3339Nano t)

end AuthSec
