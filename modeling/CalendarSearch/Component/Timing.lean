import CalendarSearch.Component.Basic
import CalendarSearch.Time.Value
import CalendarSearch.Time.Duration

/-!
When a component takes place, and when an alarm of it fires.
-/

namespace CalendarSearch.Component

/-- The time that the first instance of a property names, if it can be read. -/
def time? (c : Component) (id : PropertyName) : Option TimeValue :=
  (c.property? id).bind fun p => TimeValue.parse p.value

/-- The seconds of the first `DURATION`, if it can be read. -/
def duration? (c : Component) : Option Int :=
  (c.property? .duration).bind fun p => Duration.parse p.value

/-- The time a component takes up; without an end, a single instant. -/
structure Span where
  start : Instant
  stop : Option Instant
deriving DecidableEq, Repr

/-- The start moved by the duration of the component, if the sum is representable. -/
def afterDuration (c : Component) (start : Instant) : Option Instant :=
  c.duration?.bind start.shift?

/-- The end of the day, for a start that is a day. -/
def dayEnd (start : TimeValue) : Option Instant :=
  if start.isDay then some start.instant.nextDay else none

/-- When a component takes place. An event ends at its `DTEND`, else after its duration, else with
the day that it starts on; a to-do ends at its `DUE`, else after its duration, and may have a `DUE`
alone; journals and busy times end with their day, else at their `DTEND`. -/
def span? (c : Component) : Option Span :=
  match c.kind with
  | .event => do
    let start ← c.time? .dtstart
    let stop := ((c.time? .dtend).map TimeValue.instant).or
      ((c.afterDuration start.instant).or (dayEnd start))
    return ⟨start.instant, stop⟩
  | .todo =>
    match c.time? .dtstart, c.time? .due with
    | some start, some due => some ⟨start.instant, some due.instant⟩
    | some start, none => some ⟨start.instant, c.afterDuration start.instant⟩
    | none, some due => some ⟨due.instant, none⟩
    | none, none => none
  | .journal | .freeBusy => do
    let start ← c.time? .dtstart
    let stop := (dayEnd start).or ((c.time? .dtend).map TimeValue.instant)
    return ⟨start.instant, stop⟩
  | .alarm => none

/-- The time from which a relative trigger of one of its alarms counts: the start of the owner, or
for `RELATED=END` its `DTEND` or else its `DUE`. -/
def anchor? (owner : Component) (trigger : Property) : Option Instant :=
  let time :=
    if (trigger.param? .related).any (Text.alike · "END") then
      (owner.time? .dtend).or (owner.time? .due)
    else owner.time? .dtstart
  time.map TimeValue.instant

/-- When an alarm of the owner fires: at the instant that its first trigger names, else so long
before or after the time that the trigger is relative to. -/
def firing? (alarm owner : Component) : Option Instant := do
  let trigger ← alarm.property? .trigger
  match TimeValue.parse trigger.value with
  | some t => return t.instant
  | none =>
    let offset ← Duration.parse trigger.value
    let time ← owner.anchor? trigger
    time.shift? offset

end CalendarSearch.Component
