import CalendarSearch.Predicate.Basic
import CalendarSearch.Text.Quoted

/-!
Predicates in words, for people who want to see what a filter comes to.
-/

namespace CalendarSearch

/-- A hyphenated name in capitals, with only the first letter of each part left a capital. -/
def titleCase (name : String) : String :=
  let parts := Text.splitAt '-' name.toList
  String.ofList (parts.flatMap fun part =>
    match part with
    | first :: rest => first :: rest.map Char.toLower
    | [] => [])

namespace ComponentKind

def title : ComponentKind → String
  | event => "Event"
  | todo => "Todo"
  | journal => "Journal"
  | freeBusy => "FreeBusy"
  | alarm => "Alarm"

end ComponentKind

def describeOptional (describe : α → String) : Option α → String
  | some a => s!"Some({describe a})"
  | none => "None"

def describeBool (b : Bool) : String := if b then "true" else "false"

/-- A record in words: its name, and its fields in order. -/
def describeRecord (name : String) (fields : List (String × String)) : String :=
  name ++ " \x7b " ++ ", ".intercalate (fields.map fun (field, value) => s!"{field}: {value}") ++
    " \x7d"

def TimeRange.describe (r : TimeRange) : String :=
  describeRecord "TimeRange" [
    ("start", describeOptional Instant.extended r.start),
    ("end", describeOptional Instant.extended r.stop),
    ("floating_tz", describeOptional Text.quoted r.zone)]

def TextTest.describedFields (t : TextTest) : List (String × String) :=
  [("value", Text.quoted t.value), ("caseless", describeBool t.caseless),
    ("negate", describeBool t.negate)]

namespace Predicate

mutual

def describe : Predicate → String
  | and parts => s!"And([{describeParts parts}])"
  | or parts => s!"Or([{describeParts parts}])"
  | not part => s!"Not({describe part})"
  | kind k => s!"EntityType({k.title})"
  | occursIn range => s!"EntityTimeRange({range.describe})"
  | someAlarm part => s!"WithinAlarm({describe part})"
  | firesIn range => s!"AlarmTriggerRange({range.describe})"
  | property id expected =>
    describeRecord "PropertyPresence" [
      ("property", titleCase id.name), ("must_exist", describeBool expected)]
  | propertyIn id range =>
    describeRecord "PropertyTimeRange" [
      ("property", titleCase id.name), ("range", range.describe)]
  | propertyText id test =>
    describeRecord "PropertyTextMatch" (("property", titleCase id.name) :: test.describedFields)
  | param id name expected =>
    describeRecord "ParamPresence" [
      ("property", titleCase id.name), ("param", titleCase name.name),
      ("must_exist", describeBool expected)]
  | paramText id name test =>
    describeRecord "ParamTextMatch"
      (("property", titleCase id.name) :: ("param", titleCase name.name) :: test.describedFields)

def describeParts : List Predicate → String
  | [] => ""
  | [p] => describe p
  | p :: ps => describe p ++ ", " ++ describeParts ps

end

end Predicate

end CalendarSearch
