import CalendarSearch.Component.Basic
import CalendarSearch.Json.Decode

/-!
Components and resources as JSON.
-/

namespace CalendarSearch

open Json (Decoder)

namespace PropertyName

def toJson (p : PropertyName) : Json := .text p.name

def decoder : Decoder PropertyName := .oneOf (all.map fun p => (p.name, p))

end PropertyName

namespace ParamName

def toJson (p : ParamName) : Json := .text p.name

def decoder : Decoder ParamName := .oneOf (all.map fun p => (p.name, p))

end ParamName

namespace ComponentKind

def toJson (k : ComponentKind) : Json := .text k.name

def decoder : Decoder ComponentKind := .oneOf (all.map fun k => (k.name, k))

end ComponentKind

namespace Param

def toJson (p : Param) : Json := .record [("id", p.id.toJson), ("value", .text p.value)]

def decoder : Decoder Param
  | 0, _ => none
  | n + 1, j => do
    let [id, value] ← Json.fields ["id", "value"] j | none
    return {
      id := ← Json.required ParamName.decoder n id
      value := ← Json.required .string n value }

end Param

namespace Property

def toJson (p : Property) : Json :=
  .record [
    ("id", p.id.toJson),
    ("value", .text p.value),
    ("params", .array (p.params.map Param.toJson))]

def decoder : Decoder Property
  | 0, _ => none
  | n + 1, j => do
    let [id, value, params] ← Json.fields ["id", "value", "params"] j | none
    return {
      id := ← Json.required PropertyName.decoder n id
      value := ← Json.required .string n value
      params := ← Json.defaulted [] (.list Param.decoder) n params }

end Property

namespace Component

mutual

def toJson : Component → Json
  | ⟨kind, properties, alarms⟩ =>
    .record [
      ("kind", kind.toJson),
      ("properties", .array (properties.map Property.toJson)),
      ("alarms", .array (alarmsToJson alarms))]

def alarmsToJson : List Component → List Json
  | [] => []
  | alarm :: alarms => toJson alarm :: alarmsToJson alarms

end

/-- Reads a component whose alarms are read by the given decoder. -/
def decoderOver (alarm : Decoder Component) : Decoder Component
  | 0, _ => none
  | n + 1, j => do
    let [kind, properties, alarms] ← Json.fields ["kind", "properties", "alarms"] j | none
    return {
      kind := ← Json.required ComponentKind.decoder n kind
      properties := ← Json.defaulted [] (.list Property.decoder) n properties
      alarms := ← Json.defaulted [] (.list alarm) n alarms }

/-- Reads a component whose alarms lie at most so many deep. -/
def decoderTo : Nat → Decoder Component
  | 0 => .refuse
  | levels + 1 => decoderOver (decoderTo levels)

/-- Reads a component. Each component within another takes an object, so no more of them can lie
within one another than objects may be entered. -/
def decoder : Decoder Component := fun n => decoderTo n n

end Component

namespace Resource

def toJson (r : Resource) : Json :=
  .record [
    ("href", .text r.href),
    ("collection", .text r.collection),
    ("container", .text r.container),
    ("component", r.component.toJson)]

def decoder : Decoder Resource
  | 0, _ => none
  | n + 1, j => do
    let [href, collection, container, component] ←
      Json.fields ["href", "collection", "container", "component"] j | none
    return {
      href := ← Json.required .string n href
      collection := ← Json.required .string n collection
      container := ← Json.defaulted calendarName .string n container
      component := ← Json.required Component.decoder n component }

end Resource

end CalendarSearch
