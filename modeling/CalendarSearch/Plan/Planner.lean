import CalendarSearch.Plan.Basic
import CalendarSearch.Plan.Relaxation

/-!
From a filter to a plan. A filter has three levels of nodes: the calendar, its components and their
alarms. Prop-filters on fields outside the index are deferred; the store then searches by a
predicate that is weaker than the filter, and what it finds is checked again.
-/

namespace CalendarSearch

/-- What the plan for a filter depends on besides the filter. -/
structure Planner where
  index : FieldIndex
  mode : RecheckMode := .honorTest
  zone : Option String := none

/-- A prop-filter as a predicate; `searchable` if the store can search by it. -/
structure Condition where
  predicate : Predicate
  searchable : Bool
deriving Repr

/-- What a node comes to: its predicates, and the kinds and deferrals that it and the nodes inside
it add to the plan. -/
structure NodePlan where
  relaxation : Relaxation
  named : List ComponentKind
  deferred : List Deferral

namespace Planner

/-- Reads a time range and attaches the zone. -/
def readRange (x : Planner) (r : RangeText) : Except FilterError TimeRange := do
  return { ← TimeRange.parse r.start r.stop with zone := x.zone }

def textTest (t : TextMatch) : Except FilterError TextTest := do
  return { value := t.value, caseless := ← t.caseless, negate := t.negate }

def paramCondition (x : Planner) (id : PropertyName) (f : ParamFilter) :
    Except FilterError Condition := do
  let some param := x.index.param? f.name | .error (.unknownParameter f.name)
  let predicate ← match f.textMatch with
    | some text =>
      if f.isNotDefined then .error (.invalid (.undefinedWithText f.name))
      else Predicate.paramText id param <$> textTest text
    | none => .ok (.param id param !f.isNotDefined)
  return ⟨predicate, x.index.paramIndexed param⟩

/-- The condition that a prop-filter sets on the values of the property, if it sets one. -/
def valueCondition (x : Planner) (id : PropertyName) (f : PropFilter) :
    Except FilterError (Option Predicate) :=
  match f.timeRange, f.textMatch with
  | some _, some _ => .error (.invalid (.rangeWithText f.name))
  | some range, none =>
    if id.holdsTimes then do return some (.propertyIn id (← x.readRange range))
    else .error (.invalid (.rangeOnText f.name))
  | none, some text => do return some (.propertyText id (← textTest text))
  | none, none => .ok none

/-- A prop-filter as a predicate. One without conditions asks whether the property is there. -/
def propCondition (x : Planner) (f : PropFilter) : Except FilterError Condition := do
  let some id := x.index.property? f.name | .error (.unknownProperty f.name)
  if f.isNotDefined && f.hasConditions then .error (.invalid (.undefinedWithConditions f.name))
  let value ← x.valueCondition id f
  let params ← f.paramFilters.mapM (x.paramCondition id)
  let joined := Predicate.ofParts (f.test = .all) (params.map Condition.predicate)
  return {
    predicate := (Predicate.bothOptional value joined).getD (.property id !f.isNotDefined)
    searchable := x.index.indexed id && params.all Condition.searchable }

/-- What the prop-filters of a node come to, each read as a condition. If the test is honoured,
nothing may be searched by while any one of the filters is enough, and all of them are deferred; if
all are needed, only those that the store cannot search by. -/
def divide (mode : RecheckMode) (kind : ComponentKind) (test : Junction)
    (conditions : List (PropFilter × Condition)) : Relaxation × List Deferral :=
  let searched := (conditions.filter (·.2.searchable)).map (·.2.predicate)
  let rest := (conditions.filter (!·.2.searchable)).map (·.1)
  let all : Bool := test = .all
  let full := Predicate.ofParts all (conditions.map (·.2.predicate))
  if rest.isEmpty then (⟨full, full, true⟩, [])
  else match mode, test with
    | .honorTest, .any => (⟨full, none, false⟩, [⟨kind, test, conditions.map (·.1)⟩])
    | .honorTest, .all => (⟨full, Predicate.ofParts true searched, false⟩, [⟨kind, test, rest⟩])
    | .legacyAnyOf, _ => (⟨full, Predicate.ofParts all searched, true⟩, [⟨kind, .any, rest⟩])

def propConditions (x : Planner) (kind : ComponentKind) (test : Junction) (fs : List PropFilter) :
    Except FilterError (Relaxation × List Deferral) := do
  return divide x.mode kind test (← fs.mapM fun f => return (f, ← x.propCondition f))

def rangePart (x : Planner) (predicate : TimeRange → Predicate) (r : Option RangeText) :
    Except FilterError (List Relaxation) :=
  match r with
  | none => .ok []
  | some r => do return [.ofPredicate (predicate (← x.readRange r))]

/-- A node that must not be defined asks for the opposite. -/
def undefine (isNotDefined : Bool) (r : Relaxation) : Relaxation :=
  if isNotDefined then r.opposite else r

/-- The nodes inside a node, joined by its test. -/
def inner (test : Junction) (children : List NodePlan) : Relaxation :=
  .ofParts (test = .all) (children.map NodePlan.relaxation)

/-- The deepest level at which a comp-filter can stand. -/
def deepest : Nat := 2

/-- An alarm node: its range and its prop-filters are all asked of one alarm, and without any the
component needs no more than an alarm. Nothing stands inside an alarm. -/
def alarmNode (x : Planner) (f : CompFilter) : Except FilterError NodePlan := do
  if x.index.property? f.name ≠ some .valarm then .error (.invalid (.unknownSubcomponent f.name))
  if f.isUnconditional then
    return {
      relaxation := undefine f.isNotDefined (.ofPredicate Relaxation.hasAlarm)
      named := [.alarm]
      deferred := [] }
  let range ← x.rangePart .firesIn f.timeRange
  let (props, deferred) ← x.propConditions .alarm f.test f.propFilters
  if !f.compFilters.isEmpty then .error (.tooDeep (deepest + 1))
  return {
    relaxation := undefine f.isNotDefined (Relaxation.meet (range ++ [props])).onOneAlarm
    named := [.alarm]
    deferred }

/-- A component node: its kind, its range, its prop-filters and its alarm nodes. -/
def componentNode (x : Planner) (f : CompFilter) : Except FilterError NodePlan := do
  let some kind := (ComponentKind.ofComponent? f.name).filter ComponentKind.inCalendar
    | .error (.invalid (.unknownComponent f.name))
  if f.isUnconditional then
    return {
      relaxation := undefine f.isNotDefined (.ofPredicate (.kind kind))
      named := [kind]
      deferred := [] }
  let range ← x.rangePart .occursIn f.timeRange
  let (props, deferred) ← x.propConditions kind f.test f.propFilters
  let alarms ← f.compFilters.mapM x.alarmNode
  let parts := .ofPredicate (.kind kind) :: range ++ [props, inner f.test alarms]
  return {
    relaxation := undefine f.isNotDefined (.meet parts)
    named := kind :: alarms.flatMap NodePlan.named
    deferred := deferred ++ alarms.flatMap NodePlan.deferred }

/-- The calendar node: its range and its component nodes; without conditions it asks nothing. Its
prop-filters are not looked at. -/
def calendarNode (x : Planner) (f : CompFilter) : Except FilterError NodePlan := do
  if !Text.alike f.name calendarName then .error (.invalid (.rootName f.name))
  if f.isNotDefined then .error (.invalid .rootNotDefined)
  if f.isUnconditional then return { relaxation := .everything, named := [], deferred := [] }
  let range ← x.rangePart .occursIn f.timeRange
  let components ← f.compFilters.mapM x.componentNode
  return {
    relaxation := .meet (range ++ [inner f.test components])
    named := components.flatMap NodePlan.named
    deferred := components.flatMap NodePlan.deferred }

/-- The plan for a filter: the store searches by the coarse predicate, and where that is not exact
the full one is checked again. -/
def plan (x : Planner) (f : CompFilter) : Except FilterError Plan := do
  let node ← x.calendarNode f
  let r := node.relaxation
  let start : Plan := {
    root := r.coarse
    residual := if r.exact then none else r.full
    named := node.named
    mode := x.mode }
  return node.deferred.foldl Plan.addDeferral start

end Planner

end CalendarSearch
