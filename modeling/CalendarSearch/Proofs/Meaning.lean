import CalendarSearch.Filter.Basic
import CalendarSearch.Predicate.Eval

/-! # What a filter means

A filter says of a component whether it is wanted. The meaning is given node by node on the
description itself, without predicates, plans or stores. It is only of interest where a description
is well formed: a name that is not known, or a range that cannot be read, holds of nothing. -/

namespace CalendarSearch

/-- The conditions of a node, joined by its test; where there are none, nothing is asked. -/
def Junction.joins : Junction → List Bool → Bool
  | any, values => values.isEmpty || values.any id
  | all, values => values.all id

/-- The range that two attributes describe, if they describe one. -/
def RangeText.range? (r : RangeText) : Option TimeRange :=
  match TimeRange.parse r.start r.stop with
  | .ok range => some range
  | .error _ => none

/-- A node without a range asks nothing of the time. -/
def rangeHolds (r : Option RangeText) (test : TimeRange → Bool) : Bool :=
  r.all fun r => r.range?.any test

def TextMatch.holds (t : TextMatch) (values : List String) : Bool :=
  TextTest.holds ⟨t.value, t.collation = caselessCollation, t.negate⟩ values

/-- What a param-filter says of a property: its text is searched for in the values of the parameter,
or else an instance of the property has the parameter, or lacks it. -/
def ParamFilter.holds (x : FieldIndex) (id : PropertyName) (c : Component) (f : ParamFilter) :
    Bool :=
  (x.param? f.name).any fun name =>
    match f.textMatch with
    | some text => text.holds (c.paramValues id name)
    | none => (c.instances id).any fun p => (p.param? name).isSome != f.isNotDefined

namespace PropFilter

/-- The condition of a prop-filter on the property itself. With neither a range nor a text it asks
whether the property is there, unless the param-filters already speak of it. -/
def holdsOfValues (id : PropertyName) (c : Component) (f : PropFilter) : Bool :=
  match f.timeRange, f.textMatch with
  | some r, _ => r.range?.any (c.propertyIn id)
  | none, some text => text.holds ((c.instances id).map Property.value)
  | none, none => !f.paramFilters.isEmpty || c.has id != f.isNotDefined

/-- The condition on the property, and the param-filters joined by the test. -/
def holds (x : FieldIndex) (c : Component) (f : PropFilter) : Bool :=
  (x.property? f.name).any fun id =>
    f.holdsOfValues id c && f.test.joins (f.paramFilters.map (ParamFilter.holds x id c))

/-- Can the store search by the filter? Its property and all of its parameters must be indexed. -/
def searchable (x : FieldIndex) (f : PropFilter) : Bool :=
  (x.property? f.name).any x.indexed &&
    f.paramFilters.all fun g => (x.param? g.name).any x.paramIndexed

end PropFilter

namespace CompFilter

/-- An alarm node: one alarm of the owner fires in the range and satisfies the prop-filters, or no
alarm does if the node must not be defined. -/
def holdsOfAlarms (x : FieldIndex) (owner : Component) (f : CompFilter) : Bool :=
  (owner.alarms.any fun alarm =>
    rangeHolds f.timeRange (alarm.firesIn owner) &&
      f.test.joins (f.propFilters.map (PropFilter.holds x alarm))) != f.isNotDefined

/-- A component node: the kind, the range, the prop-filters joined by the test and the alarm nodes
joined by the test; the opposite of all that if the node must not be defined. -/
def holdsOfComponent (x : FieldIndex) (c : Component) (f : CompFilter) : Bool :=
  (ComponentKind.ofComponent? f.name = some c.kind &&
    rangeHolds f.timeRange c.occursIn &&
    f.test.joins (f.propFilters.map (PropFilter.holds x c)) &&
    f.test.joins (f.compFilters.map (holdsOfAlarms x c))) != f.isNotDefined

/-- A calendar node: the range, and the component nodes joined by the test. -/
def holdsOfCalendar (x : FieldIndex) (c : Component) (f : CompFilter) : Bool :=
  rangeHolds f.timeRange c.occursIn && f.test.joins (f.compFilters.map (holdsOfComponent x c))

end CompFilter

end CalendarSearch
