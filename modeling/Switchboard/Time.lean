import Switchboard.Decimal.Integer

/-!
# Points in time

A point in time is a number of whole seconds since 1970-01-01T00:00:00Z and the nanoseconds
after them. A billion nanoseconds or more stand for a leap second: they belong to the sixty-first
second of the minute that `seconds` ends. Dates are those of the Gregorian calendar, extended
both ways.
-/

namespace Switchboard

open Decimal

/-- A point in time: whole seconds since 1970 and the nanoseconds after them. -/
structure Timestamp where
  seconds : Int
  nanos : Nat
  deriving DecidableEq, Inhabited

/-- A date of the Gregorian calendar. -/
structure Date where
  year : Int
  month : Nat
  day : Nat
  deriving DecidableEq, Inhabited

namespace Date

/-- The date of a day counted from 1970-01-01. Years are counted from March, so that a leap day
is the last day of its year, and in eras of 400 years, which have 146097 days each. -/
def ofDay (day : Int) : Date :=
  let shifted := day + 719468
  let era := shifted.fdiv 146097
  let inEra := (shifted - era * 146097).toNat
  let yearOfEra := (inEra - inEra / 1460 + inEra / 36524 - inEra / 146096) / 365
  let inYear := inEra - (365 * yearOfEra + yearOfEra / 4 - yearOfEra / 100)
  let fromMarch := (5 * inYear + 2) / 153
  let month := if fromMarch < 10 then fromMarch + 3 else fromMarch - 9
  { year := era * 400 + yearOfEra + if month ≤ 2 then 1 else 0
    month := month
    day := inYear - (153 * fromMarch + 2) / 5 + 1 }

end Date

namespace Timestamp

/-- The point in time at a distance in nanoseconds from 1970. -/
def ofNanos (n : Int) : Timestamp := ⟨n.fdiv 1000000000, (n.fmod 1000000000).toNat⟩

/-- The point in time at a distance in milliseconds from 1970. -/
def ofMillis (n : Int) : Timestamp := ofNanos (n * 1000000)

/-- The distance from 1970 in nanoseconds. -/
def totalNanos (t : Timestamp) : Int := t.seconds * 1000000000 + t.nanos

/-- The distance from 1970 in whole milliseconds. -/
def epochMillis (t : Timestamp) : Int := t.seconds * 1000 + t.nanos / 1000000

/-- `t` is at or before `u`. -/
instance : LE Timestamp := ⟨fun t u => t.totalNanos ≤ u.totalNanos⟩

instance (t u : Timestamp) : Decidable (t ≤ u) :=
  inferInstanceAs (Decidable (t.totalNanos ≤ u.totalNanos))

/-- A number with zeros in front up to a width. -/
def padded (width n : Nat) : List Char :=
  let ds := digits n
  List.replicate (width - ds.length) '0' ++ ds

/-- A year: four digits, with a sign outside 0 to 9999. -/
def yearText (year : Int) : List Char :=
  if 0 ≤ year ∧ year ≤ 9999 then padded 4 year.toNat
  else (if year < 0 then '-' else '+') :: padded 4 year.natAbs

/-- Date and time of day up to the seconds, as `2023-11-14T22:13:20`. -/
def secondsText (t : Timestamp) : List Char :=
  let day := t.seconds.fdiv 86400
  let inDay := (t.seconds - day * 86400).toNat
  let date := Date.ofDay day
  yearText date.year ++ '-' :: padded 2 date.month ++ '-' :: padded 2 date.day ++
    'T' :: padded 2 (inDay / 3600) ++ ':' :: padded 2 (inDay / 60 % 60) ++
    ':' :: padded 2 (inDay % 60 + t.nanos / 1000000000)

/-- RFC 3339 with milliseconds, as `2023-11-14T22:13:20.000Z`. -/
def millisText (t : Timestamp) : List Char :=
  t.secondsText ++ '.' :: padded 3 (t.nanos % 1000000000 / 1000000) ++ ['Z']

/-- RFC 3339 with the least of 0, 3, 6 or 9 places that is exact. -/
def exactText (t : Timestamp) : List Char :=
  let n := t.nanos % 1000000000
  let frac :=
    if n = 0 then []
    else if n % 1000000 = 0 then '.' :: padded 3 (n / 1000000)
    else if n % 1000 = 0 then '.' :: padded 6 (n / 1000)
    else '.' :: padded 9 n
  t.secondsText ++ frac ++ ['Z']

end Timestamp

end Switchboard
