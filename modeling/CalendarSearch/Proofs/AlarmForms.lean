import CalendarSearch.Proofs.Negation
import CalendarSearch.Proofs.Refusal

/-! # Alarms asked for in two ways

A component node can ask for alarms by a prop-filter, as if they were a property, or by an alarm
node. A store that does not index alarms leaves the prop-filter to the second check and never the
alarm node, and the predicates are not the same either. Both are refused with the same errors, and
where the tests are honoured and no container is asked for, both find the same. -/

namespace CalendarSearch

open Traversal

namespace Component

theorem has_valarm (c : Component) : c.has .valarm = !c.alarms.isEmpty := by
  rw [has, if_pos rfl]

theorem propertyIn_valarm (c : Component) (range : TimeRange) :
    c.propertyIn .valarm range = c.alarms.any fun alarm => alarm.firesIn c range := by
  rw [propertyIn, if_pos rfl]

end Component

/-- What is asked of the alarms of a component: that there be one, that there be none, or that one
fire in a range. -/
inductive AlarmDemand where
  | present
  | absent
  | firing (range : RangeText)
deriving DecidableEq, Repr

namespace AlarmDemand

def isNotDefined : AlarmDemand → Bool
  | absent => true
  | present | firing _ => false

def timeRange : AlarmDemand → Option RangeText
  | firing range => some range
  | present | absent => none

def asProp (d : AlarmDemand) (name : String) (test : Junction) : PropFilter where
  name := name
  test := test
  isNotDefined := d.isNotDefined
  timeRange := d.timeRange

def asComp (d : AlarmDemand) (name : String) (test : Junction) : CompFilter where
  name := name
  test := test
  isNotDefined := d.isNotDefined
  timeRange := d.timeRange

/-! ### What both mean -/

def holds (c : Component) : AlarmDemand → Bool
  | present => !c.alarms.isEmpty
  | absent => c.alarms.isEmpty
  | firing r => r.range?.any fun range => c.alarms.any fun alarm => alarm.firesIn c range

variable {x : FieldIndex} {name : String} {test : Junction} (d : AlarmDemand) (c : Component)

theorem holds_asProp (hname : x.property? name = some .valarm) :
    (d.asProp name test).holds x c = d.holds c := by
  simp only [PropFilter.holds, asProp, hname, Option.any_some, List.map_nil, Junction.joins_nil,
    Bool.and_true]
  cases d with
  | present => simp [PropFilter.holdsOfValues, timeRange, isNotDefined, c.has_valarm, holds]
  | absent => simp [PropFilter.holdsOfValues, timeRange, isNotDefined, c.has_valarm, holds]
  | firing r => simp [PropFilter.holdsOfValues, timeRange, funext c.propertyIn_valarm, holds]

theorem holds_asComp : (d.asComp name test).holdsOfAlarms x c = d.holds c := by
  have hsome : (c.alarms.any fun _ => true) = !c.alarms.isEmpty := by
    cases c.alarms <;> rfl
  simp only [CompFilter.holdsOfAlarms, asComp, List.map_nil, Junction.joins_nil, Bool.and_true]
  cases d with
  | present => simp only [rangeHolds, timeRange, isNotDefined, Option.all_none, hsome, holds,
      Bool.bne_false]
  | absent => simp only [rangeHolds, timeRange, isNotDefined, Option.all_none, hsome, holds,
      Bool.bne_true, Bool.not_not]
  | firing r => cases h : r.range? <;> simp [rangeHolds, timeRange, isNotDefined, holds, h]

end AlarmDemand

/-! ### Both are refused alike -/

namespace Planner

variable {x : Planner} {name name' : String} {test test' : Junction} {d : AlarmDemand}

/-- Both can only fail at the range. -/
theorem failAlike_demand (hname : x.index.property? name = some .valarm)
    (hname' : x.index.property? name' = some .valarm) :
    FailAlike (x.propCondition (d.asProp name test)) (x.alarmNode (d.asComp name' test')) := by
  unfold propCondition alarmNode
  simp only [AlarmDemand.asProp, AlarmDemand.asComp, hname, hname']
  cases d with
  | present => exact .ok trivial
  | absent => exact .ok trivial
  | firing r =>
    -- the name is known and the flag is not set, so both begin with the range
    show FailAlike ((x.readRange r >>= _) >>= _) ((x.readRange r >>= _) >>= _)
    cases x.readRange r with
    | error e => exact .error e
    | ok range => exact .ok trivial

end Planner

/-! ### Nodes that ask for nothing else -/

namespace CompFilter

/-- The node with these prop-filters and these nodes inside it, and no other condition. -/
def asking (f : CompFilter) (props : List PropFilter) (inner : List CompFilter) : CompFilter :=
  { f with timeRange := none, propFilters := props, compFilters := inner }

variable {x : FieldIndex} {name name' : String} {test test' : Junction} {d : AlarmDemand}

theorem holdsOfComponent_demand (hname : x.property? name = some .valarm) (f : CompFilter)
    (c : Component) :
    (f.asking [d.asProp name test] []).holdsOfComponent x c =
      (f.asking [] [d.asComp name' test']).holdsOfComponent x c := by
  simp only [holdsOfComponent, asking, List.map_cons, List.map_nil, Junction.joins_singleton,
    Junction.joins_nil, AlarmDemand.holds_asProp _ _ hname, AlarmDemand.holds_asComp, Bool.and_true]
  rfl

/-- What stands at one place inside a calendar node does not matter beyond what it holds of. -/
theorem holdsOfCalendar_around_congr {f g h : CompFilter} {before after : List CompFilter}
    (hgh : ∀ c, g.holdsOfComponent x c = h.holdsOfComponent x c) (c : Component) :
    (f.around (before ++ g :: after)).holdsOfCalendar x c =
      (f.around (before ++ h :: after)).holdsOfCalendar x c := by
  simp only [holdsOfCalendar, around, List.map_append, List.map_cons, hgh]

end CompFilter

namespace Planner

variable {x : Planner} {name name' : String} {test test' : Junction} {d : AlarmDemand}

theorem failAlike_component (hname : x.index.property? name = some .valarm)
    (hname' : x.index.property? name' = some .valarm) (f : CompFilter) :
    FailAlike (x.componentNode (f.asking [d.asProp name test] []))
      (x.componentNode (f.asking [] [d.asComp name' test'])) := by
  have hdemand : FailAlike (x.propCondition (d.asProp name test))
      (x.alarmNode (d.asComp name' test')) := failAlike_demand hname hname'
  unfold componentNode
  simp only [CompFilter.asking]
  split
  · -- one of the two lists of a node is empty, and reading the other is reading its only element
    show FailAlike ((((x.propCondition _ >>= _) >>= _) >>= _) >>= _) ((x.alarmNode _ >>= _) >>= _)
    cases hprop : x.propCondition (d.asProp name test) with
    | error e =>
      rw [(hdemand.error_iff e).mp hprop]
      exact .error e
    | ok k =>
      obtain ⟨n, hn⟩ := hdemand.exists_ok_iff.mp ⟨k, hprop⟩
      rw [hn]
      exact .ok trivial
  · exact .error _

/-- Two component nodes that are refused alike, at one place inside a calendar node. -/
theorem failAlike_plan_around {f g h : CompFilter} {before after : List CompFilter}
    (hgh : FailAlike (x.componentNode g) (x.componentNode h)) :
    FailAlike (x.plan (f.around (before ++ g :: after)))
      (x.plan (f.around (before ++ h :: after))) := by
  have hsame (fs : List CompFilter) :
      List.Forall₂ (fun a b => FailAlike (x.componentNode a) (x.componentNode b)) fs fs :=
    List.forall₂_same.mpr fun a _ => (Together.refl _).erase
  have hnodes : FailAlike ((before ++ g :: after).mapM x.componentNode)
      ((before ++ h :: after).mapM x.componentNode) :=
    (Together.mapM_forall₂ (List.rel_append (hsame before) (.cons hgh (hsame after)))).erase
  have hcalendar : FailAlike (x.calendarNode (f.around (before ++ g :: after)))
      (x.calendarNode (f.around (before ++ h :: after))) := by
    have hcond (inner : CompFilter) :
        (f.around (before ++ inner :: after)).isUnconditional = false := by
      simp [CompFilter.isUnconditional, CompFilter.around]
    unfold calendarNode
    rw [hcond, hcond]
    refine Together.check (Together.check ?_)
    exact failAlike_rangePart.bind fun _ _ _ => hnodes.bind fun _ _ _ => .ok trivial
  exact hcalendar.bind fun _ _ _ => .ok trivial

end Planner

/-! ### Searches -/

/-- Without a container, searches that honour the tests are the same for two filters that are
refused alike and hold of the same components. -/
theorem search_congr {index : FieldIndex} {settings : Settings} {f g : CompFilter}
    (hmode : settings.mode = .honorTest) (hcontainer : settings.container = none)
    (halike : Planner.FailAlike ((settings.planner index).plan f) ((settings.planner index).plan g))
    (hsame : ∀ c, f.holdsOfCalendar index c = g.holdsOfCalendar index c) (rs : List Resource)
    (scope : Scope) :
    search (Snapshot.answer rs) index settings f scope =
      search (Snapshot.answer rs) index settings g scope := by
  cases hf : (settings.planner index).plan f with
  | error e =>
    have hg := (halike.error_iff e).mp hf
    simp only [search, hf, hg]
  | ok p =>
    obtain ⟨q, hg⟩ := halike.exists_ok_iff.mp ⟨p, hf⟩
    have hp := Planner.honours_plan (x := settings.planner index) hmode hf
    have hq := Planner.honours_plan (x := settings.planner index) hmode hg
    have hwanted :
        (fun r : Resource => f.holdsOfCalendar (settings.planner index).index r.component) =
        fun r => g.holdsOfCalendar (settings.planner index).index r.component :=
      funext fun r => hsame r.component
    rw [search_snapshot hf (hp.finds_everywhere hcontainer),
      search_snapshot hg (hq.finds_everywhere hcontainer), hwanted]

/-- A component node that asks for nothing but alarms finds the same by the prop-filter and by the
alarm node, wherever it stands in the calendar node and whether the store can search by the
prop-filter or not. The predicates agree too: an alarm fires in a range by the one exactly if it
does by the other, and that a component has no alarm is the opposite of that it has one. -/
theorem alarmForms_agree {index : FieldIndex} {settings : Settings} {name name' : String}
    (hmode : settings.mode = .honorTest) (hcontainer : settings.container = none)
    (hname : index.property? name = some .valarm) (hname' : index.property? name' = some .valarm)
    (d : AlarmDemand) (test test' : Junction) (f node : CompFilter)
    (before after : List CompFilter) (rs : List Resource) (scope : Scope) :
    search (Snapshot.answer rs) index settings
        (f.around (before ++ node.asking [d.asProp name test] [] :: after)) scope =
      search (Snapshot.answer rs) index settings
        (f.around (before ++ node.asking [] [d.asComp name' test'] :: after)) scope ∧
    ∀ (owner : Option Component) (c : Component) (range : TimeRange),
      (Predicate.propertyIn .valarm range).eval owner c =
          (Predicate.someAlarm (.firesIn range)).eval owner c ∧
        (Predicate.property .valarm false).eval owner c =
          !(Predicate.property .valarm true).eval owner c := by
  constructor
  · refine search_congr hmode hcontainer ?_ (fun c => ?_) rs scope
    · exact Planner.failAlike_plan_around (Planner.failAlike_component hname hname' node)
    · exact CompFilter.holdsOfCalendar_around_congr
        (CompFilter.holdsOfComponent_demand hname node) c
  · intro owner c range
    constructor
    · simp only [Predicate.eval, Component.propertyIn_valarm, Option.any_some]
    · simp [Predicate.eval]

/-- Every field is known, and the store can search by none of them. -/
def nothingIndexed : FieldIndex := { FieldIndex.standard with indexed := fun _ => false }

def inJanuary : AlarmDemand :=
  .firing { start := some "20240101T000000Z", stop := some "20240201T000000Z" }

/-- A review on the fifteenth, with an alarm a quarter of an hour before. -/
def datedReview : Resource where
  href := "/work/1.ics"
  collection := "/work/"
  component := {
    kind := .event
    properties := [{ id := .dtstart, value := "20240115T090000Z" }]
    alarms := [{ kind := .alarm, properties := [{ id := .trigger, value := "-PT15M" }] }] }

/-- By the prop-filter the alarms are left to the second check, and the review is found all the
same. -/
theorem alarmForms_agree_inJanuary :
    (({} : Settings).mode = .honorTest ∧ ({} : Settings).container = none ∧
      nothingIndexed.property? "valarm" = some .valarm ∧
      nothingIndexed.property? "VALARM" = some .valarm) ∧
    (search (Snapshot.answer [bareEvent, datedReview]) nothingIndexed {}
      { name := "VCALENDAR"
        compFilters := [{ name := "VEVENT", propFilters := [inJanuary.asProp "valarm" .any] }] }
      {}).map (List.map Resource.href) = .ok ["/work/1.ics"] := by
  have hmode : ({} : Settings).mode = .honorTest := rfl
  have hcontainer : ({} : Settings).container = none := rfl
  have hname : nothingIndexed.property? "valarm" = some .valarm := by decide +kernel
  have hname' : nothingIndexed.property? "VALARM" = some .valarm := by decide +kernel
  refine ⟨⟨hmode, hcontainer, hname, hname'⟩, ?_⟩
  have hsame := (alarmForms_agree hmode hcontainer hname hname' inJanuary .any .all
    { name := "VCALENDAR" } { name := "VEVENT" } [] [] [bareEvent, datedReview] {}).1
  exact (congrArg (Except.map (List.map Resource.href)) hsame).trans (by decide +kernel)

end CalendarSearch
