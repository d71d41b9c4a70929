import CalendarSearch.Component.Timing
import CalendarSearch.Predicate.Basic

/-!
What a predicate says of a component. An alarm is judged together with the component that owns it,
because its trigger may count from the times of the owner.
-/

namespace CalendarSearch

/-- Does one of the values satisfy the test? Where there is no value at all, neither the test nor
its negation is satisfied. -/
def TextTest.holds (t : TextTest) (values : List String) : Bool :=
  !values.isEmpty && (values.any (Text.contains t.caseless · t.value) != t.negate)

namespace Component

/-- Does the component take place in the range? A to-do without any date always does. -/
def occursIn (c : Component) (range : TimeRange) : Bool :=
  match c.span? with
  | some span => range.meets span.start span.stop
  | none => c.kind = .todo

def firesIn (alarm owner : Component) (range : TimeRange) : Bool :=
  (alarm.firing? owner).any range.contains

/-- Is a value in the range? A day takes up its whole day. -/
def timeIn (range : TimeRange) : TimeValue → Bool
  | .day start => range.meets start (some start.nextDay)
  | .moment t => range.contains t

/-- The values of a property, which may hold several in a row between commas. -/
def timesOf (c : Component) (id : PropertyName) : List TimeValue :=
  (c.instances id).flatMap fun p =>
    (Text.splitAt ',' p.value.toList).filterMap TimeValue.ofChars

/-- Does the property have a value in the range, or for `VALARM`, an alarm that fires in it? -/
def propertyIn (c : Component) (id : PropertyName) (range : TimeRange) : Bool :=
  if id = .valarm then c.alarms.any fun alarm => alarm.firesIn c range
  else (c.timesOf id).any (timeIn range)

/-- The values of a parameter, one for each instance of the property that has it. -/
def paramValues (c : Component) (id : PropertyName) (param : ParamName) : List String :=
  (c.instances id).filterMap (·.param? param)

end Component

namespace Predicate

mutual

/-- Is the predicate true of the component? The owner is given for an alarm. -/
def eval (owner : Option Component) (c : Component) : Predicate → Bool
  | and parts => evalAll owner c parts
  | or parts => evalAny owner c parts
  | not part => !eval owner c part
  | kind k => c.kind = k
  | occursIn range => c.occursIn range
  | someAlarm part => c.alarms.any fun alarm => eval (some c) alarm part
  | firesIn range => owner.any fun owner => c.firesIn owner range
  | property id expected => c.has id == expected
  | propertyIn id range => c.propertyIn id range
  | propertyText id test => test.holds ((c.instances id).map Property.value)
  | param id name expected => (c.instances id).any fun p => (p.param? name).isSome == expected
  | paramText id name test => test.holds (c.paramValues id name)

def evalAll (owner : Option Component) (c : Component) : List Predicate → Bool
  | [] => true
  | p :: ps => eval owner c p && evalAll owner c ps

def evalAny (owner : Option Component) (c : Component) : List Predicate → Bool
  | [] => false
  | p :: ps => eval owner c p || evalAny owner c ps

end

theorem evalAll_eq_all (owner : Option Component) (c : Component) (ps : List Predicate) :
    evalAll owner c ps = ps.all (eval owner c) := by
  induction ps with
  | nil => rfl
  | cons p ps ih => simp [evalAll, ih]

theorem evalAny_eq_any (owner : Option Component) (c : Component) (ps : List Predicate) :
    evalAny owner c ps = ps.any (eval owner c) := by
  induction ps with
  | nil => rfl
  | cons p ps ih => simp [evalAny, ih]

/-- Is the predicate true of the component of a resource? -/
def selects (p : Predicate) (r : Resource) : Bool := p.eval none r.component

/-- Is the predicate true of one of the alarms of a component? -/
def holdsForSomeAlarm (p : Predicate) (c : Component) : Bool :=
  c.alarms.any fun alarm => p.eval (some c) alarm

/-- What an optional predicate says; a missing one is true of everything. -/
def evalOptional (owner : Option Component) (c : Component) (p : Option Predicate) : Bool :=
  p.all (eval owner c)

end Predicate

end CalendarSearch
