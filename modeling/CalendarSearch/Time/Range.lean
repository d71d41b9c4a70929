import CalendarSearch.Filter.Error
import CalendarSearch.Time.Fields

/-!
Time ranges: spans of UTC time that may be open at one end. Values without a zone are read in UTC,
so a range is searched with a day added at each end; a value that its own zone would have moved into
the range is then not missed.
-/

namespace CalendarSearch

/-- A range of time. The zone is the one that a caller resolves floating times in; it has no part in
the tests below. -/
structure TimeRange where
  start : Option Instant
  stop : Option Instant
  zone : Option String := none
deriving DecidableEq, Repr

namespace TimeRange

/-- A range needs one bound at least, and if it has two they are in order. -/
def ofBounds (start stop : Option Instant) : Except FilterError TimeRange :=
  match start, stop with
  | none, none => .error (.invalid .unboundedRange)
  | some s, some e =>
    if e ≤ s then .error (.invalid (.emptyRange s e)) else .ok { start, stop }
  | _, _ => .ok { start, stop }

/-- Reads one attribute: sixteen bytes with `T` and `Z` in their places, around a date and a time of
day. -/
def parseBound (value : String) : Except FilterError Instant :=
  let cs := value.toList
  if Text.byteLength cs = 16 && Text.charAtByte 8 cs = some 'T' &&
      Text.charAtByte 15 cs = some 'Z' then
    match Fields.dateTime cs.dropLast with
    | some t => .ok t
    | none => .error (.invalid (.timeDate value))
  else .error (.invalid (.timeForm value))

/-- Reads a range from its two attributes, the start first. -/
def parse (start stop : Option String) : Except FilterError TimeRange := do
  let start ← start.mapM parseBound
  let stop ← stop.mapM parseBound
  ofBounds start stop

/-- The start moved a day back. -/
def earliest (r : TimeRange) : Option Instant := r.start.map Instant.previousDay

/-- The end moved a day on. -/
def latest (r : TimeRange) : Option Instant := r.stop.map Instant.nextDay

/-- Does the instant lie in the widened range, whose end is outside it? -/
def contains (r : TimeRange) (t : Instant) : Bool :=
  r.earliest.all (· ≤ t) && r.latest.all (t < ·)

/-- Does the span meet the widened range? A span without an end, or with an end that is not after
its start, is the instant of its start. -/
def meets (r : TimeRange) (start : Instant) (stop : Option Instant) : Bool :=
  match stop with
  | some stop =>
    if start < stop then r.latest.all (start < ·) && r.earliest.all (· < stop)
    else r.contains start
  | none => r.contains start

end TimeRange

end CalendarSearch
