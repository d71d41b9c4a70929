import CalendarSearch.Component.Codec
import CalendarSearch.Predicate.Basic

/-!
Predicates as JSON: a single member names the predicate, and its value says what it is about.
-/

namespace CalendarSearch

def Instant.toJson (t : Instant) : Json := .text t.extended

def TimeRange.toJson (r : TimeRange) : Json :=
  .record ([
    ("start", .nullable Instant.toJson r.start),
    ("end", .nullable Instant.toJson r.stop)] ++
    Json.optionalMember "floating_tz" (r.zone.map Json.text))

def TextTest.members (t : TextTest) : List (String × Json) :=
  [("value", .text t.value), ("caseless", .bool t.caseless), ("negate", .bool t.negate)]

namespace Predicate

mutual

def toJson : Predicate → Json
  | and parts => .record [("and", .array (partsToJson parts))]
  | or parts => .record [("or", .array (partsToJson parts))]
  | not part => .record [("not", toJson part)]
  | kind k => .record [("entity_type", k.toJson)]
  | occursIn range => .record [("entity_time_range", range.toJson)]
  | someAlarm part => .record [("within_alarm", toJson part)]
  | firesIn range => .record [("alarm_trigger_range", range.toJson)]
  | property id expected =>
    .record [("property_presence",
      .record [("property", id.toJson), ("must_exist", .bool expected)])]
  | propertyIn id range =>
    .record [("property_time_range",
      .record [("property", id.toJson), ("range", range.toJson)])]
  | propertyText id test =>
    .record [("property_text_match", .record (("property", id.toJson) :: test.members))]
  | param id name expected =>
    .record [("param_presence",
      .record [("property", id.toJson), ("param", name.toJson), ("must_exist", .bool expected)])]
  | paramText id name test =>
    .record [("param_text_match",
      .record (("property", id.toJson) :: ("param", name.toJson) :: test.members))]

def partsToJson : List Predicate → List Json
  | [] => []
  | p :: ps => toJson p :: partsToJson ps

end

end Predicate

end CalendarSearch
