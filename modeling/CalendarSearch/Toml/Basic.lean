/-!
TOML documents: values, tables, and how the lines of a document build its tables. A table may be
opened by a header, implied by the header of a table inside it, or made by a dotted key; which of
these it was decides what may still be added to it.
-/

namespace CalendarSearch

/-- How a table came to be. -/
inductive TomlOrigin where
  | header
  /-- It was named on the way to a table inside it. -/
  | implied
  /-- It was named within a dotted key. -/
  | dotted
deriving DecidableEq, Repr

/-- A value of a document. Numbers with a fraction and times have no use here beyond being there. -/
inductive Toml where
  | string (value : String)
  | integer (value : Int)
  | real
  | boolean (value : Bool)
  | time
  | array (items : List Toml)
  /-- A table between braces, to which nothing can be added. -/
  | inline (entries : List (String × Toml))
  | table (origin : TomlOrigin) (entries : List (String × Toml))
  /-- Tables opened one after another by double headers. -/
  | tables (tables : List (List (String × Toml)))
deriving Repr

namespace Toml

abbrev Entries := List (String × Toml)

inductive Line where
  | header (path : List String)
  | arrayHeader (path : List String)
  | entry (path : List String) (value : Toml)

def replace (name : String) (value : Toml) (entries : Entries) : Entries :=
  entries.map fun (n, v) => if n = name then (n, value) else (n, v)

/-- Gives a dotted key its value. The tables on the way are made as needed; one that a header opened
is closed to dotted keys, and the table that takes the value must not stem from a longer header. -/
def put (isOpen : Bool) (key : List String) (value : Toml) (entries : Entries) :
    Option Entries :=
  match key with
  | [] => none
  | [name] =>
    if isOpen && (entries.lookup name).isNone then some (entries ++ [(name, value)]) else none
  | name :: rest =>
    match entries.lookup name with
    | none => do return entries ++ [(name, .table .dotted (← put true rest value []))]
    | some (.table .dotted inner) => do
      return replace name (.table .dotted (← put true rest value inner)) entries
    | some (.table .implied inner) => do
      return replace name (.table .implied (← put false rest value inner)) entries
    | some (.tables ts) => do
      let last ← ts.getLast?
      return replace name (.tables (ts.dropLast ++ [← put false rest value last])) entries
    | _ => none

/-- Changes the table at a path. A table on the way that is not there yet is implied; of several
tables in a row the last one is meant. -/
def within (change : Entries → Option Entries) : List String → Entries → Option Entries
  | [], entries => change entries
  | name :: rest, entries =>
    match entries.lookup name with
    | none => do return entries ++ [(name, .table .implied (← within change rest []))]
    | some (.table origin inner) => do
      return replace name (.table origin (← within change rest inner)) entries
    | some (.tables ts) => do
      let last ← ts.getLast?
      return replace name (.tables (ts.dropLast ++ [← within change rest last])) entries
    | _ => none

/-- Opens a table: a new one, or one that was only implied so far. -/
def openTable (name : String) (entries : Entries) : Option Entries :=
  match entries.lookup name with
  | none => some (entries ++ [(name, .table .header [])])
  | some (.table .implied inner) => some (replace name (.table .header inner) entries)
  | _ => none

def openNext (name : String) (entries : Entries) : Option Entries :=
  match entries.lookup name with
  | none => some (entries ++ [(name, .tables [[]])])
  | some (.tables ts) => some (replace name (.tables (ts ++ [[]])) entries)
  | _ => none

/-- A document in the making: its tables, and the path of the one that lines are added to. -/
structure Draft where
  entries : Entries := []
  current : List String := []

def Draft.add (d : Draft) : Line → Option Draft
  | .header path => do
    let name ← path.getLast?
    return ⟨← within (openTable name) path.dropLast d.entries, path⟩
  | .arrayHeader path => do
    let name ← path.getLast?
    return ⟨← within (openNext name) path.dropLast d.entries, path⟩
  | .entry key value => do
    return { d with entries := ← within (put true key value) d.current d.entries }

def ofLines (lines : List Line) : Option Entries :=
  (lines.foldlM Draft.add {}).map Draft.entries

/-- The table that the pairs between two braces build. -/
def inlineOf (pairs : List (List String × Toml)) : Option Toml :=
  (pairs.foldlM (fun entries (key, value) => put true key value entries) []).map inline

/-- The values of the named fields of a record. A table has them by name; an array has them in their
order, with nothing said of further items; a time has none. -/
def fields (names : List String) : Toml → Option (List (Option Toml))
  | inline entries => some (names.map fun name => entries.lookup name)
  | table _ entries => some (names.map fun name => entries.lookup name)
  | array items => some (names.mapIdx fun i _ => items[i]?)
  | tables ts => some (names.mapIdx fun i _ => ts[i]?.map (table .header))
  | time => some (names.map fun _ => none)
  | _ => none

/-- Is the value a table or an array without anything in it? -/
def isEmpty : Toml → Bool
  | inline entries => entries.isEmpty
  | table _ entries => entries.isEmpty
  | array items => items.isEmpty
  | tables ts => ts.isEmpty
  | _ => false

/-- One of some names: the name itself, or a table whose only entry has this name and is empty. -/
def oneOf (choices : List (String × α)) : Toml → Option α
  | string name => choices.lookup name
  | inline [(name, value)] => if value.isEmpty then choices.lookup name else none
  | table _ [(name, value)] => if value.isEmpty then choices.lookup name else none
  | _ => none

end Toml

end CalendarSearch
