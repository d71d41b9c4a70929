import CalendarSearch.Filter.Basic
import CalendarSearch.Component.Basic
import CalendarSearch.Time.Range

/-! # Valid filters

A filter is valid if every node of it can be read: its name is known, its parts do not contradict
each other, and its ranges and collations can be understood. What is wrong with a filter that is not
valid is a *fault* of one of its nodes, and each fault has an error that tells it. Of an index only
the names matter here, not what the store can search by. -/

namespace CalendarSearch

/-- The indexes know the same names; what can be searched by may differ. -/
structure FieldIndex.SameNames (x y : FieldIndex) : Prop where
  property : x.property? = y.property?
  param : x.param? = y.param?

def RangeText.Valid (r : RangeText) : Prop :=
  ∃ range, TimeRange.parse r.start r.stop = .ok range

def TextMatch.Supported (t : TextMatch) : Prop :=
  t.collation = caselessCollation ∨ t.collation = octetCollation

/-! ### Param-filters -/

structure ParamFilter.Valid (x : FieldIndex) (f : ParamFilter) : Prop where
  known : ∃ id, x.param? f.name = some id
  undefined : f.isNotDefined = true → f.textMatch = none
  text : ∀ t, f.textMatch = some t → t.Supported

inductive ParamFilter.Fault (x : FieldIndex) (f : ParamFilter) : FilterError → Prop
  | unknown : x.param? f.name = none → Fault x f (.unknownParameter f.name)
  | undefined {t : TextMatch} : f.isNotDefined = true → f.textMatch = some t →
      Fault x f (.invalid (.undefinedWithText f.name))
  | text {t : TextMatch} : f.textMatch = some t → ¬t.Supported →
      Fault x f (.unsupportedCollation t.collation)

/-! ### Prop-filters -/

structure PropFilter.Valid (x : FieldIndex) (f : PropFilter) : Prop where
  known : ∃ id, x.property? f.name = some id
  undefined : f.isNotDefined = true → f.hasConditions = false
  single : f.timeRange = none ∨ f.textMatch = none
  range : ∀ r, f.timeRange = some r →
    r.Valid ∧ ∀ id, x.property? f.name = some id → id.holdsTimes = true
  text : ∀ t, f.textMatch = some t → t.Supported
  params : ∀ g ∈ f.paramFilters, g.Valid x

inductive PropFilter.Fault (x : FieldIndex) (f : PropFilter) : FilterError → Prop
  | unknown : x.property? f.name = none → Fault x f (.unknownProperty f.name)
  | undefined : f.isNotDefined = true → f.hasConditions = true →
      Fault x f (.invalid (.undefinedWithConditions f.name))
  | double {r : RangeText} {t : TextMatch} : f.timeRange = some r → f.textMatch = some t →
      Fault x f (.invalid (.rangeWithText f.name))
  | untimed {r : RangeText} {id : PropertyName} : f.timeRange = some r →
      x.property? f.name = some id → id.holdsTimes = false →
      Fault x f (.invalid (.rangeOnText f.name))
  | range {r : RangeText} {e : FilterError} : f.timeRange = some r →
      TimeRange.parse r.start r.stop = .error e → Fault x f e
  | text {t : TextMatch} : f.textMatch = some t → ¬t.Supported →
      Fault x f (.unsupportedCollation t.collation)
  | param {g : ParamFilter} {e : FilterError} : g ∈ f.paramFilters → g.Fault x e → Fault x f e

namespace CompFilter

/-! ### Nodes -/

/-- What alarm nodes and component nodes have in common. -/
structure ValidConditions (x : FieldIndex) (f : CompFilter) : Prop where
  range : ∀ r, f.timeRange = some r → r.Valid
  props : ∀ g ∈ f.propFilters, g.Valid x

inductive ConditionFault (x : FieldIndex) (f : CompFilter) : FilterError → Prop
  | range {r : RangeText} {e : FilterError} : f.timeRange = some r →
      TimeRange.parse r.start r.stop = .error e → ConditionFault x f e
  | prop {g : PropFilter} {e : FilterError} : g ∈ f.propFilters → g.Fault x e →
      ConditionFault x f e

structure ValidAlarm (x : FieldIndex) (f : CompFilter) : Prop where
  name : x.property? f.name = some .valarm
  conditions : f.ValidConditions x
  leaf : f.compFilters = []

inductive AlarmFault (x : FieldIndex) (f : CompFilter) : FilterError → Prop
  | name : x.property? f.name ≠ some .valarm →
      AlarmFault x f (.invalid (.unknownSubcomponent f.name))
  | conditions {e : FilterError} : f.ConditionFault x e → AlarmFault x f e
  | deep : f.compFilters ≠ [] → AlarmFault x f (.tooDeep 3)

structure ValidComponent (x : FieldIndex) (f : CompFilter) : Prop where
  name : ∃ kind, ComponentKind.ofComponent? f.name = some kind ∧ kind ≠ .alarm
  conditions : f.ValidConditions x
  alarms : ∀ g ∈ f.compFilters, g.ValidAlarm x

inductive ComponentFault (x : FieldIndex) (f : CompFilter) : FilterError → Prop
  | name : (∀ kind, ComponentKind.ofComponent? f.name = some kind → kind = .alarm) →
      ComponentFault x f (.invalid (.unknownComponent f.name))
  | conditions {e : FilterError} : f.ConditionFault x e → ComponentFault x f e
  | alarm {g : CompFilter} {e : FilterError} : g ∈ f.compFilters → g.AlarmFault x e →
      ComponentFault x f e

/-- A calendar node: its prop-filters are not looked at. -/
structure Valid (x : FieldIndex) (f : CompFilter) : Prop where
  name : Text.alike f.name calendarName = true
  defined : f.isNotDefined = false
  range : ∀ r, f.timeRange = some r → r.Valid
  components : ∀ g ∈ f.compFilters, g.ValidComponent x

inductive Fault (x : FieldIndex) (f : CompFilter) : FilterError → Prop
  | name : Text.alike f.name calendarName = false → Fault x f (.invalid (.rootName f.name))
  | undefined : f.isNotDefined = true → Fault x f (.invalid .rootNotDefined)
  | range {r : RangeText} {e : FilterError} : f.timeRange = some r →
      TimeRange.parse r.start r.stop = .error e → Fault x f e
  | component {g : CompFilter} {e : FilterError} : g ∈ f.compFilters → g.ComponentFault x e →
      Fault x f e

/-- The prop-filters that are looked at: those of the component nodes and their alarm nodes. -/
def searchedProps (f : CompFilter) : List PropFilter :=
  f.compFilters.flatMap fun g => g.propFilters ++ g.compFilters.flatMap CompFilter.propFilters

end CompFilter

/-- The texts of a prop-filter and of its param-filters. -/
def PropFilter.texts (f : PropFilter) : List TextMatch :=
  f.textMatch.toList ++ f.paramFilters.filterMap ParamFilter.textMatch

/-- An error that names a part of the filter names one that is there and is not supported, and one
that names a depth names that of a node inside an alarm node. -/
def FilterError.FoundIn (x : FieldIndex) (f : CompFilter) : FilterError → Prop
  | invalid _ => True
  | unknownProperty name => x.property? name = none ∧ ∃ g ∈ f.searchedProps, g.name = name
  | unknownParameter name => x.param? name = none ∧
      ∃ g ∈ f.searchedProps, ∃ p ∈ g.paramFilters, p.name = name
  | tooDeep depth => depth = 3 ∧
      ∃ g ∈ f.compFilters, ∃ alarm ∈ g.compFilters, alarm.compFilters ≠ []
  | unsupportedCollation collation =>
      (collation ≠ caselessCollation ∧ collation ≠ octetCollation) ∧
        ∃ g ∈ f.searchedProps, ∃ t ∈ g.texts, t.collation = collation

end CalendarSearch
