import CalendarSearch.Json.Decode
import CalendarSearch.Settings.Basic

/-!
Settings as JSON. The settings of the second check and those of time ranges form an object each.
-/

namespace CalendarSearch

open Json (Decoder)

namespace RecheckMode

def all : List RecheckMode := [honorTest, legacyAnyOf]

def toJson (m : RecheckMode) : Json := .text m.name

def decoder : Decoder RecheckMode := .oneOf (all.map fun m => (m.name, m))

end RecheckMode

namespace Settings

def toJson (s : Settings) : Json :=
  .record [
    ("version", .int s.version),
    ("post_filter", .record (("mode", s.mode.toJson) ::
      Json.optionalMember "container" (s.container.map Json.text))),
    ("time_range", .record
      (Json.optionalMember "floating_timezone" (s.floatingZone.map Json.text)))]

/-- The settings with the members of each object in order of their names. -/
def toSortedJson (s : Settings) : Json :=
  .record [
    ("post_filter", .record
      (Json.optionalMember "container" (s.container.map Json.text) ++ [("mode", s.mode.toJson)])),
    ("time_range", .record
      (Json.optionalMember "floating_timezone" (s.floatingZone.map Json.text))),
    ("version", .int s.version)]

def recheckDecoder : Decoder (RecheckMode × Option String)
  | 0, _ => none
  | n + 1, j => do
    let [mode, container] ← Json.fields ["mode", "container"] j | none
    return (← Json.defaulted .honorTest RecheckMode.decoder n mode,
      ← Json.optional .string n container)

def zoneDecoder : Decoder (Option String)
  | 0, _ => none
  | n + 1, j => do
    let [zone] ← Json.fields ["floating_timezone"] j | none
    Json.optional .string n zone

def decoder : Decoder Settings
  | 0, _ => none
  | n + 1, j => do
    let [version, recheck, zone] ← Json.fields ["version", "post_filter", "time_range"] j | none
    let version ← Json.defaulted 1 .nat32 n version
    let (mode, container) ← Json.defaulted (.honorTest, none) recheckDecoder n recheck
    let floatingZone ← Json.defaulted none zoneDecoder n zone
    return { version, mode, container, floatingZone }

end Settings

end CalendarSearch
