import CalendarSearch.Command.Arguments
import CalendarSearch.Command.Files
import CalendarSearch.Component.Codec
import CalendarSearch.Filter.Codec
import CalendarSearch.Json.Writer
import CalendarSearch.Plan.Codec
import CalendarSearch.Plan.Printer
import CalendarSearch.Search
import CalendarSearch.Settings.File

/-!
What the command does, as a function of its arguments, its environment and the files that it can
see.
-/

namespace CalendarSearch

namespace Snapshot

def ofFile (path : String) (entry : FileEntry) : Except StoreError (List Resource) :=
  match entry.text with
  | .error fault => .error (.unreadable path fault.message)
  | .ok text =>
    match Json.decodeText (.list Resource.decoder) text with
    | some resources => .ok resources
    | none => .error (.malformed path)

end Snapshot

namespace Settings

/-- The settings that a file holds; without a file, those by default. -/
def ofFile (path : String) (entry : FileEntry) : Except SettingsError Settings :=
  if entry.isThere then
    match entry.text with
    | .error fault => .error (.unreadable path fault.message)
    | .ok text => ofText path text
  else .ok {}

end Settings

namespace Command

structure Environment where
  /-- The file of settings, if one is named. -/
  config : Option String := none
  configHome : Option String := none
  home : Option String := none
  /-- The home directory that the system keeps for the user. -/
  accountHome : Option String := none
deriving DecidableEq, Repr

def below (directory name : String) : String :=
  if directory.isEmpty || directory.endsWith "/" then directory ++ name
  else directory ++ "/" ++ name

namespace Environment

/-- The home directory: the one that is named, unless its path is empty. -/
def homeDirectory (env : Environment) : Option String :=
  (env.home.filter (!·.isEmpty)).or env.accountHome

/-- The directory of settings: the one that is named, if its path is absolute, or one at home. -/
def settingsHome (env : Environment) : Option String :=
  env.homeDirectory.map fun home =>
    (env.configHome.filter (·.startsWith "/")).getD (below home ".config")

/-- The file of settings if the arguments name none. -/
def settingsPath (env : Environment) : Except SettingsError String :=
  match env.config with
  | some path => .ok path
  | none =>
    match env.settingsHome with
    | some directory => .ok (below (below directory "caldav-query") "config.toml")
    | none => .error .homeless

end Environment

inductive Failure where
  | filter (error : FilterError)
  | search (error : SearchError)
  | store (error : StoreError)
  | settings (error : SettingsError)
  | unreadable (path cause : String)
  /-- The file of the filter is no tree of elements. -/
  | malformed
deriving DecidableEq, Repr

namespace Failure

def message : Failure → String
  | filter error => s!"filter error: {error.message}"
  | search error => s!"query error: {error.message}"
  | store error => s!"snapshot error: {error.message}"
  | settings error => s!"configuration error: {error.message}"
  | unreadable path cause => s!"failed to read '{path}': {cause}"
  | malformed => "JSON error: not a tree of elements"

def code : Failure → String
  | filter _ => "FILTER_ERROR"
  | search error =>
    if error.status = 400 then "FILTER_ERROR"
    else if error.status = 403 then "FORBIDDEN"
    else if error.status = 404 then "NOT_FOUND"
    else "RETRIEVAL_ERROR"
  | store _ => "SNAPSHOT_ERROR"
  | settings _ => "CONFIG_ERROR"
  | unreadable .. => "IO_ERROR"
  | malformed => "JSON_ERROR"

def blamesRequest : Failure → Bool
  | search error => error.blamesRequest
  | store error => error.blamesRequest
  | _ => true

/-- The exit status: 2 if the input is at fault, and 3 otherwise. -/
def exitCode (f : Failure) : Nat := if f.blamesRequest then 2 else 3

def toJson (f : Failure) : Json :=
  .record [("error", .record [("code", .text f.code), ("message", .text f.message)])]

end Failure

structure Outcome where
  exit : Nat := 0
  stdout : String := ""
  stderr : String := ""
deriving DecidableEq, Repr

def synopsis : String :=
  "Usage: calq [-v] [--json] [--config FILE] COMMAND\n\n" ++
  "  compile FILTER\n" ++
  "  query -f FILTER -s SNAPSHOT [-c COLLECTION]... [-r]\n" ++
  "  config [show|path]\n"

def release : String := "0.1.0"

def Stop.outcome : Stop → Outcome
  | .usage => { exit := 2, stderr := synopsis }
  | .help => { stdout := synopsis }
  | .version name => { stdout := s!"{name} {release}\n" }

def filterOfFile (path : String) (entry : FileEntry) : Except Failure CompFilter :=
  match entry.text with
  | .error fault => .error (.unreadable path fault.message)
  | .ok text =>
    match Json.decodeText Element.decoder text with
    | some element => element.toFilter.mapError .filter
    | none => .error .malformed

/-- One line for each resource found: its component, its path and its summary. -/
def describeFound (found : List Resource) : String :=
  if found.isEmpty then "No matching entities.\n"
  else String.join (found.map fun r =>
    let kind := r.kind.component
    let summary := ((r.component.property? .summary).map Property.value).getD ""
    kind ++ "".pushn ' ' (9 - kind.length) ++ s!" {r.href}  {summary}\n")

def describeSettings (path : String) (entry : FileEntry) (settings : Settings) : String :=
  s!"File: {path}\nExists: {entry.isThere}\n\n" ++
    if entry.isThere then settings.toText
    else "(No config file exists. Defaults in effect:)\n\n" ++ Settings.template

/-- Where the settings are, with the given members before. -/
def locationJson (path : String) (entry : FileEntry) (before : List (String × Json)) : Json :=
  .record (before ++ [("exists", .bool entry.isThere), ("path", .text path)])

def settingsPath (env : Environment) (config : Option String) : Except Failure String :=
  match config with
  | some path => .ok path
  | none => env.settingsPath.mapError .settings

def perform (env : Environment) (files : Files) (r : Request) : Except Failure Outcome := do
  let path ← settingsPath env r.config
  match r.action with
  | .settingsPath =>
    return { stdout :=
      if r.json then (locationJson path (files path) []).toLines ++ "\n" else path ++ "\n" }
  | .showSettings =>
    let settings ← (Settings.ofFile path (files path)).mapError .settings
    return { stdout :=
      if r.json then
        (locationJson path (files path) [("config", settings.toSortedJson)]).toLines ++ "\n"
      else describeSettings path (files path) settings }
  | .compile filter =>
    let settings ← (Settings.ofFile path (files path)).mapError .settings
    let f ← filterOfFile filter (files filter)
    let plan ← ((settings.planner .standard).plan f).mapError .filter
    return { stdout := if r.json then plan.toJson.toLines ++ "\n" else plan.describe }
  | .query filter snapshot collections recursive =>
    let settings ← (Settings.ofFile path (files path)).mapError .settings
    let f ← filterOfFile filter (files filter)
    let resources ← (Snapshot.ofFile snapshot (files snapshot)).mapError .store
    let scope : Scope := { collections, recursive }
    let found ← (search (Snapshot.answer resources) .standard settings f scope).mapError .search
    return {
      stderr :=
        if r.verbose then s!"Matched {found.length} of {resources.length} entities\n" else ""
      stdout :=
        if r.json then (Json.array (found.map Resource.toJson)).toLines ++ "\n"
        else describeFound found }

/-- Does what is requested, and reports a failure. The log is left out of `stderr`: the lines that
`--verbose` adds, and the warning that prop-filters of the calendar node are not looked at. -/
def run (env : Environment) (files : Files) (r : Request) : Outcome :=
  match perform env files r with
  | .ok outcome => outcome
  | .error failure => {
      exit := failure.exitCode
      stderr :=
        if r.json then failure.toJson.toLines ++ "\n" else s!"Error: {failure.message}\n" }

def Request.paths (env : Environment) (r : Request) : List String :=
  let config := match settingsPath env r.config with
    | .ok path => [path]
    | .error _ => []
  match r.action with
  | .compile filter => config ++ [filter]
  | .query filter snapshot _ _ => config ++ [filter, snapshot]
  | .showSettings | .settingsPath => config

end Command

end CalendarSearch
