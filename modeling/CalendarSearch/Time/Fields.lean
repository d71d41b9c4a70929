import CalendarSearch.Text.Blank
import CalendarSearch.Time.Instant

/-!
Dates and times read field by field. A field is a number with any blanks before it, in at most as
many digits as its place has. Only a year may have a sign, and then it takes every digit that
follows. So `2004 9 2` is the second of September 2004, as `20040902` is.
-/

namespace CalendarSearch.Fields

open Text

/-- An unsigned number of one to `width` digits; the rest of the text follows it. -/
def number (width : Nat) (cs : List Char) : Option (Nat × List Char) :=
  let rest := trimLeft cs
  let digits := (rest.take width).takeWhile Char.isDigit
  if digits.isEmpty then none else some (numeral digits, rest.drop digits.length)

/-- All the digits at the start of a text, of which there must be one. -/
def digits (cs : List Char) : Option (Nat × List Char) :=
  let run := cs.takeWhile Char.isDigit
  if run.isEmpty then none else some (numeral run, cs.dropWhile Char.isDigit)

/-- A year: up to four digits, or a sign and all the digits after it. -/
def year (cs : List Char) : Option (Int × List Char) :=
  match trimLeft cs with
  | '-' :: rest => (digits rest).map fun (n, rest) => (-(n : Int), rest)
  | '+' :: rest => (digits rest).map fun (n, rest) => ((n : Int), rest)
  | rest => (number 4 rest).map fun (n, rest) => ((n : Int), rest)

def date (cs : List Char) : Option (Date × List Char) := do
  let (year, rest) ← year cs
  let (month, rest) ← number 2 rest
  let (day, rest) ← number 2 rest
  let d : Date := ⟨year, month, day⟩
  if d.valid then some (d, rest) else none

def clock (cs : List Char) : Option (Clock × List Char) := do
  let (hour, rest) ← number 2 cs
  let (minute, rest) ← number 2 rest
  let (second, rest) ← number 2 rest
  let c : Clock := ⟨hour, minute, second⟩
  if c.valid then some (c, rest) else none

/-- The start of the day that the whole text names. -/
def day (cs : List Char) : Option Instant :=
  match date cs with
  | some (d, []) => some (.ofDate d)
  | _ => none

/-- The instant that the whole text names: a date, a `T` and a time of day. -/
def dateTime (cs : List Char) : Option Instant :=
  match date cs with
  | some (d, 'T' :: rest) =>
    match clock rest with
    | some (c, []) => some (.ofDateClock d c)
    | _ => none
  | _ => none

end CalendarSearch.Fields
