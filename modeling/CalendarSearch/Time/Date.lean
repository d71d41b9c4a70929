/-!
Days of the proleptic Gregorian calendar, and the count of days since 1970-01-01. Year 0 exists and
is a leap year; years before it are negative.
-/

namespace CalendarSearch

structure Date where
  year : Int
  month : Nat
  day : Nat
deriving DecidableEq, Repr

namespace Date

/-- Every fourth year is leap, of the centuries only every fourth. -/
def isLeapYear (year : Int) : Bool :=
  year % 4 == 0 && (year % 100 != 0 || year % 400 == 0)

def monthLengths (year : Int) : List Nat :=
  [31, if isLeapYear year then 29 else 28, 31, 30, 31, 30, 31, 31, 30, 31, 30, 31]

/-- The number of days in a month of a year; no days if there is no such month. -/
def monthLength (year : Int) (month : Nat) : Nat :=
  match month with
  | 0 => 0
  | m + 1 => ((monthLengths year)[m]?).getD 0

/-- The first and the last year whose days have an instant. -/
def firstYear : Int := -262143

def lastYear : Int := 262142

/-- A day of the calendar: the month has this day, and the year lies in the supported span. -/
def valid (d : Date) : Bool :=
  firstYear ≤ d.year && d.year ≤ lastYear && 1 ≤ d.day && d.day ≤ monthLength d.year d.month

/-- The days from the start of year 1 to the start of the given year. -/
def daysBeforeYear (year : Int) : Int :=
  365 * (year - 1) + (year - 1) / 4 - (year - 1) / 100 + (year - 1) / 400

/-- The days from the start of year 1 to 1970-01-01. -/
def epochDay : Int := 719162

/-- The days from the start of a year to the start of one of its months. -/
def daysBeforeMonth (year : Int) (month : Nat) : Nat :=
  ((monthLengths year).take (month - 1)).foldr (· + ·) 0

/-- The number of days from 1970-01-01 to this day. -/
def dayNumber (d : Date) : Int :=
  daysBeforeYear d.year + daysBeforeMonth d.year d.month + d.day - 1 - epochDay

/-- The year that holds the day with this count from the start of year 1. The mean year has
146097 / 400 days, so the quotient is off by one year at most. -/
def yearOfDay (day : Int) : Int :=
  let guess := day * 400 / 146097 + 1
  if day < daysBeforeYear guess then guess - 1
  else if daysBeforeYear (guess + 1) ≤ day then guess + 1
  else guess

/-- Counts whole months off a day of the year: the months that are over, and the days of the
current one that are over. -/
def splitMonths : List Nat → Nat → Nat × Nat
  | [], day => (0, day)
  | length :: lengths, day =>
    if day < length then (0, day)
    else
      let (months, rest) := splitMonths lengths (day - length)
      (months + 1, rest)

/-- The day that lies this many days after 1970-01-01. -/
def ofDayNumber (n : Int) : Date :=
  let day := n + epochDay
  let year := yearOfDay day
  let (months, days) := splitMonths (monthLengths year) (day - daysBeforeYear year).toNat
  ⟨year, months + 1, days + 1⟩

end Date

end CalendarSearch
