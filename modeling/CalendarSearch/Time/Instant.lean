import CalendarSearch.Text.Decimal
import CalendarSearch.Time.Date

/-!
Instants in UTC, to the second. A leap second is an instant of its own: it comes after the second
that it prolongs and before the next one, although it has no place in the count of seconds.
-/

namespace CalendarSearch

/-- The hour, minute and second of a day; the second is 60 in a leap second. -/
structure Clock where
  hour : Nat
  minute : Nat
  second : Nat
deriving DecidableEq, Repr

/-- The times of a day, with a leap second allowed in every minute. -/
def Clock.valid (c : Clock) : Bool := c.hour ≤ 23 && c.minute ≤ 59 && c.second ≤ 60

/-- A second counted from 1970-01-01T00:00:00Z, or the leap second that follows it. -/
structure Instant where
  second : Int
  leap : Bool
deriving DecidableEq, Repr

namespace Instant

/-- The place of an instant in the order of time, leap seconds included. -/
def rank (t : Instant) : Int := 2 * t.second + if t.leap then 1 else 0

instance : LT Instant := ⟨fun a b => a.rank < b.rank⟩
instance : LE Instant := ⟨fun a b => a.rank ≤ b.rank⟩
instance (a b : Instant) : Decidable (a < b) := inferInstanceAs (Decidable (a.rank < b.rank))
instance (a b : Instant) : Decidable (a ≤ b) := inferInstanceAs (Decidable (a.rank ≤ b.rank))

theorem lt_iff {a b : Instant} : a < b ↔ a.rank < b.rank := Iff.rfl

theorem le_iff {a b : Instant} : a ≤ b ↔ a.rank ≤ b.rank := Iff.rfl

theorem not_lt {a b : Instant} : ¬ a < b ↔ b ≤ a := by rw [lt_iff, le_iff, Int.not_lt]

theorem not_le {a b : Instant} : ¬ a ≤ b ↔ b < a := by rw [lt_iff, le_iff, Int.not_le]

def secondsPerDay : Int := 86400

def ofDateClock (d : Date) (c : Clock) : Instant :=
  ⟨d.dayNumber * secondsPerDay + c.hour * 3600 + c.minute * 60 + min c.second 59, c.second == 60⟩

/-- The start of a day. -/
def ofDate (d : Date) : Instant := ofDateClock d ⟨0, 0, 0⟩

def date (t : Instant) : Date := .ofDayNumber (t.second / secondsPerDay)

def clock (t : Instant) : Clock :=
  let s := (t.second % secondsPerDay).toNat
  ⟨s / 3600, s / 60 % 60, s % 60 + if t.leap then 1 else 0⟩

/-- The first and the last second that an instant can have. -/
def firstSecond : Int := (ofDate ⟨Date.firstYear, 1, 1⟩).second

def lastSecond : Int := (ofDateClock ⟨Date.lastYear, 12, 31⟩ ⟨23, 59, 59⟩).second

/-- Instants outside the supported span of years have no value. -/
def Representable (t : Instant) : Prop := firstSecond ≤ t.second ∧ t.second ≤ lastSecond

instance (t : Instant) : Decidable t.Representable := by unfold Representable; infer_instance

/-- The instant so many seconds later. A leap second stands still under no shift; it moves forward
from the second that it prolongs, and back from the second after it. -/
def shift (t : Instant) (seconds : Int) : Instant :=
  if seconds = 0 then t
  else if seconds < 0 && t.leap then ⟨t.second + 1 + seconds, false⟩
  else ⟨t.second + seconds, false⟩

def shift? (t : Instant) (seconds : Int) : Option Instant :=
  if (t.shift seconds).Representable then some (t.shift seconds) else none

def nextDay (t : Instant) : Instant := t.shift secondsPerDay

def previousDay (t : Instant) : Instant := t.shift (-secondsPerDay)

@[simp] theorem shift_zero (t : Instant) : t.shift 0 = t := by simp [shift]

/-- A year in four digits; with its sign if it does not fit them or is negative. -/
def yearText (year : Int) : String :=
  if 0 ≤ year && year ≤ 9999 then Text.padded 4 year.toNat
  else (if year < 0 then "-" else "+") ++ Text.padded 4 year.natAbs

/-- The form `YYYY-MM-DDTHH:MM:SSZ`. -/
def extended (t : Instant) : String :=
  let d := t.date
  let c := t.clock
  s!"{yearText d.year}-{Text.padded 2 d.month}-{Text.padded 2 d.day}" ++
    s!"T{Text.padded 2 c.hour}:{Text.padded 2 c.minute}:{Text.padded 2 c.second}Z"

/-- The form `YYYYMMDDTHHMMSSZ`, which time-range attributes have. -/
def basic (t : Instant) : String :=
  let d := t.date
  let c := t.clock
  s!"{yearText d.year}{Text.padded 2 d.month}{Text.padded 2 d.day}" ++
    s!"T{Text.padded 2 c.hour}{Text.padded 2 c.minute}{Text.padded 2 c.second}Z"

end Instant

end CalendarSearch
