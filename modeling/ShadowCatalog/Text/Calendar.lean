import ShadowCatalog.Text.Letters

/-!
# Dates and times of day

The Gregorian calendar, carried on before its introduction, with a year 0. A
date is found from its distance to the first of January 2000 (`Date.ofDays`) by
counting years from March on, so that a leap day is the last of its year.
-/

namespace ShadowCatalog

open Text

/-- A day. -/
structure Date where
  year : Int
  month : Nat
  day : Nat
  deriving DecidableEq, Repr

/-- A time of day, in whole seconds. The second 60 is a leap second. -/
structure TimeOfDay where
  hour : Nat
  minute : Nat
  second : Nat
  deriving DecidableEq, Repr

/-- A time on a day. -/
structure DateTime where
  date : Date
  time : TimeOfDay
  deriving DecidableEq, Repr

namespace Date

/-- The first year that is told apart. -/
def firstYear : Int := -262143

/-- The last year that is told apart. -/
def lastYear : Int := 262142

/-- The year has a leap day. -/
def isLeapYear (year : Int) : Bool :=
  year % 4 = 0 && (year % 100 ≠ 0 || year % 400 = 0)

/-- The number of days of a month. -/
def daysInMonth (year : Int) (month : Nat) : Nat :=
  if month = 2 then (if isLeapYear year then 29 else 28)
  else if month = 4 ∨ month = 6 ∨ month = 9 ∨ month = 11 then 30
  else 31

/-- The year is told apart. -/
def inRange (date : Date) : Bool := firstYear ≤ date.year && date.year ≤ lastYear

/-- There is such a day, in a year that is told apart. -/
def isValid (date : Date) : Bool :=
  date.inRange && 1 ≤ date.month && date.month ≤ 12 && 1 ≤ date.day &&
    date.day ≤ daysInMonth date.year date.month

/-- The days from the first of March of the year 0 to the first of January 2000. -/
def daysBeforeEpoch : Int := 730425

/-- The day that is this many days after the first of January 2000. -/
def ofDays (days : Int) : Date :=
  let days := days + daysBeforeEpoch
  let century := days / 146097
  let dayOfCentury := (days % 146097).toNat
  let yearOfCentury :=
    (dayOfCentury - dayOfCentury / 1460 + dayOfCentury / 36524 - dayOfCentury / 146096) / 365
  let dayOfYear := dayOfCentury - (365 * yearOfCentury + yearOfCentury / 4 - yearOfCentury / 100)
  let monthFromMarch := (5 * dayOfYear + 2) / 153
  let month := if monthFromMarch < 10 then monthFromMarch + 3 else monthFromMarch - 9
  { year := century * 400 + yearOfCentury + (if month ≤ 2 then 1 else 0)
    month
    day := dayOfYear - (153 * monthFromMarch + 2) / 5 + 1 }

/-- The day of that distance, if its year is told apart. -/
def ofDays? (days : Int) : Option Date := (some (ofDays days)).filter inRange

/-- A year has at least four digits, and a sign if it is negative or has more. -/
def yearText (year : Int) : List Char :=
  if 0 ≤ year ∧ year ≤ 9999 then paddedDigits 4 year.toNat
  else (if year < 0 then '-' else '+') :: paddedDigits 4 year.natAbs

/-- The year, the month and the day. -/
def text (date : Date) : String :=
  String.ofList (yearText date.year ++ '-' :: paddedDigits 2 date.month ++
    '-' :: paddedDigits 2 date.day)

end Date

namespace TimeOfDay

/-- The time that is this many whole seconds after midnight. -/
def ofSeconds (seconds : Nat) : TimeOfDay :=
  ⟨seconds / 3600, seconds / 60 % 60, seconds % 60⟩

/-- The time with nanoseconds: from 10⁹ on, they belong to a leap second, which
    may follow any second 59. -/
def ofParts? (hour minute second nanosecond : Nat) : Option TimeOfDay :=
  if hour < 24 ∧ minute < 60 ∧ second < 60 then
    if nanosecond < 1000000000 then some ⟨hour, minute, second⟩
    else if nanosecond < 2000000000 ∧ second = 59 then some ⟨hour, minute, 60⟩
    else none
  else none

/-- The hour, the minute and the second. -/
def text (time : TimeOfDay) : String :=
  String.ofList (paddedDigits 2 time.hour ++ ':' :: paddedDigits 2 time.minute ++
    ':' :: paddedDigits 2 time.second)

end TimeOfDay

namespace DateTime

/-- The microseconds of a day. -/
def microsecondsPerDay : Int := 86400000000

/-- The time that is this many microseconds after midnight, on any day. -/
def timeOfMicroseconds (microseconds : Int) : TimeOfDay :=
  .ofSeconds ((microseconds % microsecondsPerDay).toNat / 1000000)

/-- The time that is this many microseconds after the start of the year 2000, if
    its year is told apart. -/
def ofMicroseconds? (microseconds : Int) : Option DateTime :=
  (Date.ofDays? (microseconds / microsecondsPerDay)).map fun date =>
    ⟨date, timeOfMicroseconds microseconds⟩

/-- The date and the time. -/
def text (t : DateTime) : String := t.date.text ++ " " ++ t.time.text

end DateTime

end ShadowCatalog
