import CalendarSearch.Text.Blank
import CalendarSearch.Text.Decimal

/-!
Durations such as `PT15M`, `-P1D` or `P1W`, as a signed number of seconds. Units may come in any
order and more than once within their half; a duration whose seconds pass the limit has no value.
-/

namespace CalendarSearch.Duration

open Text

def limit : Nat := 9223372036854775

/-- The seconds of a unit: weeks and days come before the `T`, the parts of a day after it. -/
def unitSeconds (inTime : Bool) (unit : Char) : Option Nat :=
  match inTime, unit with
  | false, 'W' => some 604800
  | false, 'D' => some 86400
  | true, 'H' => some 3600
  | true, 'M' => some 60
  | true, 'S' => some 1
  | _, _ => none

structure Progress where
  total : Nat := 0
  /-- Has the `T` been read? -/
  inTime : Bool := false
  /-- Has a unit been read? -/
  seen : Bool := false
  /-- The number that waits for its unit. -/
  pending : Option Nat := none

/-- One character: a digit, the `T`, or the unit that ends a number. -/
def Progress.step (p : Progress) (c : Char) : Option Progress :=
  if c.isDigit then some { p with pending := some (10 * p.pending.getD 0 + digitValue c) }
  else if c = 'T' ∧ p.inTime = false ∧ p.pending = none then some { p with inTime := true }
  else do
    let n ← p.pending
    let seconds ← unitSeconds p.inTime c
    let total := p.total + n * seconds
    if total ≤ limit then some { p with total, seen := true, pending := none } else none

/-- The seconds of a duration without its sign and its `P`. -/
def magnitude (cs : List Char) : Option Nat := do
  let p ← cs.foldlM Progress.step {}
  if p.pending = none ∧ p.seen = true then some p.total else none

def ofChars (cs : List Char) : Option Int :=
  match trim cs with
  | '-' :: 'P' :: rest => (magnitude rest).map fun n => -(n : Int)
  | '+' :: 'P' :: rest => (magnitude rest).map Int.ofNat
  | 'P' :: rest => (magnitude rest).map Int.ofNat
  | _ => none

def parse (s : String) : Option Int := ofChars s.toList

end CalendarSearch.Duration
