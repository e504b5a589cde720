import RuleGate.Text.Split

/-!
# Dates

Calendar dates of points in time, and their text in message headers.
-/

namespace RuleGate

/-- A day of the calendar; months and days count from 1. -/
structure CalendarDate where
  year : Int
  month : Nat
  day : Nat
deriving DecidableEq, Repr

namespace CalendarDate

/-- The date that lies `days` days after the first of January 1970. Years are counted from March, so
that a leap day is the last of its year, in eras of 400 years. -/
def ofDays (days : Int) : CalendarDate :=
  let shifted := days + 719468
  let era := shifted.fdiv 146097
  let dayOfEra := (shifted.fmod 146097).toNat
  let yearOfEra := (dayOfEra - dayOfEra / 1460 + dayOfEra / 36524 - dayOfEra / 146096) / 365
  let dayOfYear := dayOfEra - (365 * yearOfEra + yearOfEra / 4 - yearOfEra / 100)
  let month := (5 * dayOfYear + 2) / 153
  let day := dayOfYear - (153 * month + 2) / 5 + 1
  let year := era * 400 + yearOfEra
  if month < 10 then ⟨year, month + 3, day⟩ else ⟨year + 1, month - 9, day⟩

def weekdays : List String := ["Thu", "Fri", "Sat", "Sun", "Mon", "Tue", "Wed"]

def months : List String :=
  ["Jan", "Feb", "Mar", "Apr", "May", "Jun", "Jul", "Aug", "Sep", "Oct", "Nov", "Dec"]

/-- A number with leading zeros. -/
def padded (width n : Nat) : String :=
  let digits := toString n
  String.ofList (List.replicate (width - digits.length) '0') ++ digits

/-- The date of a time in seconds since 1970, as headers have it. -/
def headerText (seconds : Int) : String :=
  let days := seconds.fdiv 86400
  let ofDay := (seconds.fmod 86400).toNat
  let date := ofDays days
  let weekday := weekdays.getD (days.fmod 7).toNat ""
  let month := months.getD (date.month - 1) ""
  weekday ++ ", " ++ padded 2 date.day ++ " " ++ month ++ " " ++ padded 4 date.year.toNat ++ " " ++
    padded 2 (ofDay / 3600) ++ ":" ++ padded 2 (ofDay / 60 % 60) ++ ":" ++ padded 2 (ofDay % 60) ++
    " GMT"

end CalendarDate

end RuleGate
