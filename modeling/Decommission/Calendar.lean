import Decommission.Text.Digits

/-! The proleptic Gregorian calendar in UTC, and the date text that HTTP headers carry. -/
namespace Decommission.Calendar

/-- Seconds since the start of 1970, and the nanoseconds past them. From `10 ^ 9` on the
nanoseconds lie in a leap second, which belongs to the second before it. -/
structure Instant where
  seconds : Int
  nanos : Nat
  deriving DecidableEq, Repr

/-- A day of the calendar: the year, the month from 1 to 12 and the day from 1. -/
structure Date where
  year : Int
  month : Nat
  day : Nat
  deriving DecidableEq, Repr

/-- The day that lies `days` after the first of January 1970. Years are counted from March, so that
a leap day is the last day of its year, and in eras of 400 years of 146097 days. -/
def Date.ofDays (days : Int) : Date :=
  let shifted := days + 719468
  let era := shifted.fdiv 146097
  let dayOfEra := (shifted.fmod 146097).toNat
  let yearOfEra := (dayOfEra - dayOfEra / 1460 + dayOfEra / 36524 - dayOfEra / 146096) / 365
  let dayOfYear := dayOfEra - (365 * yearOfEra + yearOfEra / 4 - yearOfEra / 100)
  let monthFromMarch := (5 * dayOfYear + 2) / 153
  let month := if monthFromMarch < 10 then monthFromMarch + 3 else monthFromMarch - 9
  let year := era * 400 + yearOfEra
  { year := if month ≤ 2 then year + 1 else year
    month := month
    day := dayOfYear - (153 * monthFromMarch + 2) / 5 + 1 }

def weekdayNames : List String := ["Sun", "Mon", "Tue", "Wed", "Thu", "Fri", "Sat"]

def monthNames : List String :=
  ["Jan", "Feb", "Mar", "Apr", "May", "Jun", "Jul", "Aug", "Sep", "Oct", "Nov", "Dec"]

/-- The weekday as a place in `weekdayNames`; the first of January 1970 was a Thursday. -/
def weekday (days : Int) : Nat := ((days + 4).fmod 7).toNat

/-- Four digits at least, with a sign outside the years 0 to 9999. -/
def yearText (year : Int) : String :=
  if year < 0 then "-" ++ Text.padded 4 year.natAbs
  else if 9999 < year then "+" ++ toString year.natAbs
  else Text.padded 4 year.natAbs

/-- The date of RFC 1123, such as `Fri, 26 Jun 2015 23:39:12 GMT`. -/
def Instant.httpDate (i : Instant) : String :=
  let days := i.seconds.fdiv 86400
  let secondOfDay := (i.seconds.fmod 86400).toNat
  let date := Date.ofDays days
  weekdayNames.getD (weekday days) "" ++ ", " ++ Text.padded 2 date.day ++ " " ++
    monthNames.getD (date.month - 1) "" ++ " " ++ yearText date.year ++ " " ++
    Text.padded 2 (secondOfDay / 3600) ++ ":" ++ Text.padded 2 (secondOfDay / 60 % 60) ++ ":" ++
    Text.padded 2 (secondOfDay % 60 + i.nanos / Nat.pow 10 9) ++ " GMT"

end Decommission.Calendar
