import CalendarSearch.Settings.Codec
import CalendarSearch.Toml.Reader
import CalendarSearch.Toml.Writer

/-!
Settings as the TOML file that they are kept in.
-/

namespace CalendarSearch

inductive SettingsError where
  | unreadable (path cause : String)
  /-- The file is not TOML, or holds other values than settings. -/
  | malformed (path : String)
  | unsupportedVersion (found : Nat)
  /-- There is no home directory to look for the file in. -/
  | homeless
deriving DecidableEq, Repr

namespace SettingsError

def message : SettingsError → String
  | unreadable path cause => s!"failed to read config file '{path}': {cause}"
  | malformed path => s!"failed to parse config file '{path}': not a table of settings"
  | unsupportedVersion found =>
    s!"unsupported config version {found} (expected at most {Settings.newestVersion})"
  | homeless => "failed to determine config directory: no valid home directory found"

end SettingsError

namespace Settings

def tomlText : Option Toml → Option (Option String)
  | none => some none
  | some (.string s) => some (some s)
  | some _ => none

def tomlRecheck : Option Toml → Option (RecheckMode × Option String)
  | none => some (.honorTest, none)
  | some value => do
    let [mode, container] ← value.fields ["mode", "container"] | none
    let mode ← match mode with
      | none => some .honorTest
      | some mode => mode.oneOf (RecheckMode.all.map fun m => (m.name, m))
    return (mode, ← tomlText container)

def tomlZone : Option Toml → Option (Option String)
  | none => some none
  | some value => do
    let [zone] ← value.fields ["floating_timezone"] | none
    tomlText zone

/-- The version of the file format, a whole number below 2 ^ 32. -/
def tomlVersion : Option Toml → Option Nat
  | none => some 1
  | some (.integer n) => if 0 ≤ n && n < 0x100000000 then some n.toNat else none
  | some _ => none

def ofToml (document : Toml.Entries) : Option Settings := do
  let version ← tomlVersion (document.lookup "version")
  let (mode, container) ← tomlRecheck (document.lookup "post_filter")
  let floatingZone ← tomlZone (document.lookup "time_range")
  return { version, mode, container, floatingZone }

/-- The settings that a file holds; a file of a newer format is refused. -/
def ofText (path text : String) : Except SettingsError Settings :=
  match (Toml.read text).bind ofToml with
  | none => .error (.malformed path)
  | some s => if newestVersion < s.version then .error (.unsupportedVersion s.version) else .ok s

/-- An entry of a file, if it has a value. -/
def tomlEntry (name : String) : Option String → String
  | some value => s!"{name} = {Toml.quote value}\n"
  | none => ""

def toText (s : Settings) : String :=
  s!"version = {s.version}\n\n[post_filter]\n" ++
    tomlEntry "mode" (some s.mode.name) ++
    tomlEntry "container" s.container ++
    "\n[time_range]\n" ++
    tomlEntry "floating_timezone" s.floatingZone

/-- The text of a file that has nothing set. -/
def template : String :=
  "# caldav-query configuration\n" ++
  "\n" ++
  "# Config schema version (do not modify)\n" ++
  "version = 1\n" ++
  "\n" ++
  "[post_filter]\n" ++
  "# How prop-filters that cannot be pushed down are recombined:\n" ++
  "# \"honor-test\" applies the comp-filter's allof/anyof, \"legacy-any-of\"\n" ++
  "# always ORs them.\n" ++
  "# mode = \"honor-test\"\n" ++
  "\n" ++
  "# Only post-filter entities stored under this container component.\n" ++
  "# container = \"VCALENDAR\"\n" ++
  "\n" ++
  "[time_range]\n" ++
  "# Timezone used to resolve floating date-times.\n" ++
  "# floating_timezone = \"UTC\"\n"

end Settings

end CalendarSearch
