import CalendarSearch.Property

/-!
Calendar components: events, to-dos and their like with their properties and alarms, and the stored
resources that hold one component each.
-/

namespace CalendarSearch

inductive ComponentKind where
  | event | todo | journal | freeBusy | alarm
deriving DecidableEq, Repr

namespace ComponentKind

/-- The kinds in the order in which answers list them. -/
def all : List ComponentKind := [event, todo, journal, freeBusy, alarm]

/-- The iCalendar name of a component of this kind. -/
def component : ComponentKind → String
  | event => "VEVENT"
  | todo => "VTODO"
  | journal => "VJOURNAL"
  | freeBusy => "VFREEBUSY"
  | alarm => "VALARM"

def name : ComponentKind → String
  | event => "event"
  | todo => "todo"
  | journal => "journal"
  | freeBusy => "freebusy"
  | alarm => "alarm"

theorem mem_all (k : ComponentKind) : k ∈ all := by cases k <;> decide

/-- The kind of a component with this name, in any case. -/
def ofComponent? (name : String) : Option ComponentKind :=
  all.find? fun k => Text.alike k.component name

/-- May the component stand directly inside a calendar? -/
def inCalendar (k : ComponentKind) : Bool := k ≠ alarm

theorem inCalendar_iff {k : ComponentKind} : k.inCalendar = true ↔ k ≠ .alarm := decide_eq_true_iff

end ComponentKind

structure Param where
  id : ParamName
  value : String
deriving DecidableEq, Repr

/-- One instance of a property with its parameters. -/
structure Property where
  id : PropertyName
  value : String
  params : List Param := []
deriving DecidableEq, Repr

/-- The value of the first parameter with this name. -/
def Property.param? (p : Property) (id : ParamName) : Option String :=
  (p.params.find? (·.id = id)).map Param.value

/-- A component. Its alarms are components too. -/
structure Component where
  kind : ComponentKind
  properties : List Property := []
  alarms : List Component := []
deriving Repr

namespace Component

def instances (c : Component) (id : PropertyName) : List Property :=
  c.properties.filter (·.id = id)

def property? (c : Component) (id : PropertyName) : Option Property := (c.instances id).head?

/-- Does the component have the property, or for `VALARM`, an alarm? -/
def has (c : Component) (id : PropertyName) : Bool :=
  if id = .valarm then !c.alarms.isEmpty else (c.property? id).isSome

def addProperty (c : Component) (p : Property) : Component :=
  { c with properties := c.properties ++ [p] }

def addAlarm (c : Component) (a : Component) : Component := { c with alarms := c.alarms ++ [a] }

end Component

/-- The name of the component that contains all others. -/
def calendarName : String := "VCALENDAR"

/-- A stored calendar object: where it is kept and the component that it holds. -/
structure Resource where
  href : String
  collection : String
  container : String := calendarName
  component : Component
deriving Repr

def Resource.kind (r : Resource) : ComponentKind := r.component.kind

end CalendarSearch
