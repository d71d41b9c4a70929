import CalendarSearch.Time.Instant

/-!
What can be wrong with a filter. A *flaw* makes it invalid whatever the server supports; the other
errors name something that this server does not support, or a nesting that calendars do not have.
-/

namespace CalendarSearch

inductive Flaw where
  /-- A time range with neither a start nor an end. -/
  | unboundedRange
  /-- A time range that does not start before its end. -/
  | emptyRange (start stop : Instant)
  | timeForm (value : String)
  | timeDate (value : String)
  | unnamed (element : String)
  | emptyTextMatch
  | repeated (element parent : String)
  | unexpected (element parent : String)
  | filterContent
  | unknownRoot (element : String)
  | rootName (name : String)
  | rootNotDefined
  | unknownComponent (name : String)
  | unknownSubcomponent (name : String)
  | undefinedWithConditions (property : String)
  | rangeWithText (property : String)
  | rangeOnText (property : String)
  | undefinedWithText (param : String)
deriving DecidableEq, Repr

namespace Flaw

def message : Flaw → String
  | unboundedRange => "time-range requires a start or an end attribute"
  | emptyRange start stop =>
    s!"time-range start {start.basic} is not before end {stop.basic}"
  | timeForm value => s!"time-range value '{value}' is not of the form YYYYMMDDTHHMMSSZ"
  | timeDate value => s!"time-range value '{value}' is not a valid date"
  | unnamed element => s!"{element} without a name attribute"
  | emptyTextMatch => "text-match without a value"
  | repeated element parent => s!"{parent} with several {element} elements"
  | unexpected element parent => s!"unexpected {element} element inside {parent}"
  | filterContent => "filter must contain exactly one comp-filter"
  | unknownRoot element => s!"expected filter or comp-filter, found {element}"
  | rootName name => s!"top-level comp-filter must be VCALENDAR, found {name}"
  | rootNotDefined => "is-not-defined is not allowed on the top-level comp-filter"
  | unknownComponent name => s!"unknown calendar component {name}"
  | unknownSubcomponent name => s!"unsupported sub-component {name}"
  | undefinedWithConditions property =>
    s!"prop-filter {property} combines is-not-defined with other conditions"
  | rangeWithText property => s!"prop-filter {property} has both time-range and text-match"
  | rangeOnText property => s!"time-range on non date-time property {property}"
  | undefinedWithText param =>
    s!"param-filter {param} combines is-not-defined with text-match"

end Flaw

inductive FilterError where
  | invalid (flaw : Flaw)
  | unknownProperty (name : String)
  | unknownParameter (name : String)
  /-- A comp-filter at this depth, where no component can stand. -/
  | tooDeep (depth : Nat)
  | unsupportedCollation (collation : String)
deriving DecidableEq, Repr

namespace FilterError

def message : FilterError → String
  | invalid flaw => s!"invalid filter: {flaw.message}"
  | unknownProperty name => s!"unsupported property: {name}"
  | unknownParameter name => s!"unsupported parameter: {name}"
  | tooDeep depth => s!"comp-filter nested too deeply (depth {depth})"
  | unsupportedCollation collation => s!"unsupported collation: {collation}"

/-- Is the filter well formed, but beyond what the server supports? -/
def beyondSupport : FilterError → Bool
  | unknownProperty _ | unknownParameter _ | unsupportedCollation _ => true
  | invalid _ | tooDeep _ => false

end FilterError

end CalendarSearch
