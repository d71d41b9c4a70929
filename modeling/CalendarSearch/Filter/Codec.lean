import CalendarSearch.Filter.Element
import CalendarSearch.Json.Decode

/-!
Filter descriptions and markup elements as JSON.
-/

namespace CalendarSearch

open Json (Decoder)

namespace Junction

def toJson (j : Junction) : Json := .text j.name

def decoder : Decoder Junction := .oneOf ([any, all].map fun j => (j.name, j))

end Junction

namespace RangeText

def toJson (r : RangeText) : Json :=
  .record [("start", .nullable .text r.start), ("end", .nullable .text r.stop)]

def decoder : Decoder RangeText
  | 0, _ => none
  | n + 1, j => do
    let [start, stop] ← Json.fields ["start", "end"] j | none
    return { start := ← Json.optional .string n start, stop := ← Json.optional .string n stop }

end RangeText

namespace TextMatch

def toJson (t : TextMatch) : Json :=
  .record [
    ("value", .text t.value),
    ("collation", .text t.collation),
    ("negate", .bool t.negate)]

def decoder : Decoder TextMatch
  | 0, _ => none
  | n + 1, j => do
    let [value, collation, negate] ← Json.fields ["value", "collation", "negate"] j | none
    return {
      value := ← Json.required .string n value
      collation := ← Json.defaulted caselessCollation .string n collation
      negate := ← Json.defaulted false .bool n negate }

end TextMatch

namespace ParamFilter

def toJson (f : ParamFilter) : Json :=
  .record [
    ("name", .text f.name),
    ("is_not_defined", .bool f.isNotDefined),
    ("text_match", .nullable TextMatch.toJson f.textMatch)]

def decoder : Decoder ParamFilter
  | 0, _ => none
  | n + 1, j => do
    let [name, isNotDefined, textMatch] ←
      Json.fields ["name", "is_not_defined", "text_match"] j | none
    return {
      name := ← Json.required .string n name
      isNotDefined := ← Json.defaulted false .bool n isNotDefined
      textMatch := ← Json.optional TextMatch.decoder n textMatch }

end ParamFilter

namespace PropFilter

def toJson (f : PropFilter) : Json :=
  .record [
    ("name", .text f.name),
    ("test", f.test.toJson),
    ("is_not_defined", .bool f.isNotDefined),
    ("time_range", .nullable RangeText.toJson f.timeRange),
    ("text_match", .nullable TextMatch.toJson f.textMatch),
    ("param_filters", .array (f.paramFilters.map ParamFilter.toJson))]

def decoder : Decoder PropFilter
  | 0, _ => none
  | n + 1, j => do
    let [name, test, isNotDefined, timeRange, textMatch, paramFilters] ← Json.fields
      ["name", "test", "is_not_defined", "time_range", "text_match", "param_filters"] j | none
    return {
      name := ← Json.required .string n name
      test := ← Json.defaulted .any Junction.decoder n test
      isNotDefined := ← Json.defaulted false .bool n isNotDefined
      timeRange := ← Json.optional RangeText.decoder n timeRange
      textMatch := ← Json.optional TextMatch.decoder n textMatch
      paramFilters := ← Json.defaulted [] (.list ParamFilter.decoder) n paramFilters }

end PropFilter

namespace CompFilter

mutual

def toJson : CompFilter → Json
  | ⟨name, test, isNotDefined, timeRange, propFilters, compFilters⟩ =>
    .record [
      ("name", .text name),
      ("test", test.toJson),
      ("is_not_defined", .bool isNotDefined),
      ("time_range", .nullable RangeText.toJson timeRange),
      ("prop_filters", .array (propFilters.map PropFilter.toJson)),
      ("comp_filters", .array (childrenToJson compFilters))]

def childrenToJson : List CompFilter → List Json
  | [] => []
  | f :: fs => toJson f :: childrenToJson fs

end

/-- Reads a comp-filter whose children are read by the given decoder. -/
def decoderOver (child : Decoder CompFilter) : Decoder CompFilter
  | 0, _ => none
  | n + 1, j => do
    let [name, test, isNotDefined, timeRange, propFilters, compFilters] ← Json.fields
      ["name", "test", "is_not_defined", "time_range", "prop_filters", "comp_filters"] j | none
    return {
      name := ← Json.required .string n name
      test := ← Json.defaulted .any Junction.decoder n test
      isNotDefined := ← Json.defaulted false .bool n isNotDefined
      timeRange := ← Json.optional RangeText.decoder n timeRange
      propFilters := ← Json.defaulted [] (.list PropFilter.decoder) n propFilters
      compFilters := ← Json.defaulted [] (.list child) n compFilters }

/-- Reads a comp-filter whose children lie at most so many deep. -/
def decoderTo : Nat → Decoder CompFilter
  | 0 => .refuse
  | levels + 1 => decoderOver (decoderTo levels)

def decoder : Decoder CompFilter := fun n => decoderTo n n

end CompFilter

namespace Attributes

def toJson (a : Attributes) : Json :=
  .record (a.entries.map fun (name, value) => (name, .text value))

/-- Of a repeated name the last value counts. -/
def decoder : Decoder Attributes := fun n j => (Decoder.texts n j).map ofList

end Attributes

namespace Element

mutual

def toJson : Element → Json
  | ⟨name, attributes, children, text⟩ =>
    .record ([
      ("name", .text name),
      ("attributes", attributes.toJson),
      ("children", .array (childrenToJson children))] ++
      Json.optionalMember "text" (text.map Json.text))

def childrenToJson : List Element → List Json
  | [] => []
  | e :: es => toJson e :: childrenToJson es

end

def decoderOver (child : Decoder Element) : Decoder Element
  | 0, _ => none
  | n + 1, j => do
    let [name, attributes, children, text] ←
      Json.fields ["name", "attributes", "children", "text"] j | none
    return {
      name := ← Json.required .string n name
      attributes := ← Json.defaulted .empty Attributes.decoder n attributes
      children := ← Json.defaulted [] (.list child) n children
      text := ← Json.optional .string n text }

def decoderTo : Nat → Decoder Element
  | 0 => .refuse
  | levels + 1 => decoderOver (decoderTo levels)

def decoder : Decoder Element := fun n => decoderTo n n

end Element

end CalendarSearch
