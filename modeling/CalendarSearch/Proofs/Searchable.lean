import CalendarSearch.Proofs.Parts

/-! # The store is asked only what it can answer

A predicate is searchable if every field that it names, at whatever depth, is indexed. All that a
planner builds of for the store are tests of such fields, in both modes, so the root of a plan is
searchable. -/

namespace CalendarSearch

namespace Predicate

/-! ### Fields of predicates -/

/-- The property that a predicate names itself, be it for one of its parameters. -/
@[simp] def property? : Predicate → Option PropertyName
  | property id _ | propertyIn id _ | propertyText id _ | param id _ _ | paramText id _ _ => some id
  | and _ | or _ | not _ | kind _ | occursIn _ | someAlarm _ | firesIn _ => none

/-- The parameter that a predicate names itself. -/
@[simp] def param? : Predicate → Option ParamName
  | param _ name _ | paramText _ name _ => some name
  | and _ | or _ | not _ | kind _ | occursIn _ | someAlarm _ | firesIn _ | property _ _
  | propertyIn _ _ | propertyText _ _ => none

/-- The fields that the predicate names itself are indexed. -/
def Indexed (x : FieldIndex) (p : Predicate) : Prop :=
  (∀ id, p.property? = some id → x.indexed id = true) ∧
    ∀ name, p.param? = some name → x.paramIndexed name = true

variable {x : FieldIndex}

theorem ofTests_indexed : OfTests (Indexed x) := by
  constructor <;> simp [Indexed]

end Predicate

namespace Planner

open Predicate

variable {x : Planner}

/-- Of the full predicates nothing is asked here, as they do not go to the store. -/
theorem builds_indexed (hvalarm : x.index.indexed .valarm = true) :
    x.Builds (fun _ => True) (Indexed x.index) where
  full := by constructor <;> simp [OfTests.mk]
  coarse := by
    constructor
    case connectives => exact ofTests_indexed
    case hasAlarm => simpa [Indexed, Relaxation.hasAlarm] using hvalarm
    all_goals simp_all [Indexed]

theorem searchable_calendarNode (hvalarm : x.index.indexed .valarm = true) {f : CompFilter}
    {n : NodePlan} (h : x.calendarNode f = .ok n) :
    EverywhereOptional (Indexed x.index) n.relaxation.coarse :=
  ((builds_indexed hvalarm).calendarNode h).coarse

end Planner

/-- Where the alarms of components are indexed, the root of a plan names, at whatever depth, only
properties and parameters that are indexed, in either mode. -/
theorem root_searchable {x : Planner} {f : CompFilter} {plan : Plan} {root p : Predicate}
    (hvalarm : x.index.indexed .valarm = true) (hplan : x.plan f = .ok plan)
    (hroot : plan.root = some root) (hp : p.PartOf root) :
    (∀ id, p.property? = some id → x.index.indexed id = true) ∧
      ∀ name, p.param? = some name → x.index.paramIndexed name = true := by
  obtain ⟨n, hn, rfl⟩ := Planner.plan_eq_ok.mp hplan
  exact Planner.searchable_calendarNode hvalarm hn root hroot p hp

/-- No event has a comment, a declined invitation and an alarm with a description and a trigger. -/
def declinedEvents : CompFilter where
  name := "VCALENDAR"
  compFilters := [{
    name := "VEVENT"
    test := .all
    isNotDefined := true
    propFilters := [
      { name := "COMMENT" },
      { name := "ATTENDEE"
        paramFilters := [{ name := "PARTSTAT", textMatch := some { value := "DECLINED" } }] }]
    compFilters := [{
      name := "VALARM"
      test := .all
      propFilters := [{ name := "DESCRIPTION" }, { name := "TRIGGER" }] }] }]

def declined : Predicate := .paramText .attendee .partstat ⟨"DECLINED", true, false⟩

/-- What the legacy plan searches by: neither the comment nor the trigger is indexed. -/
def declinedRoot : Predicate :=
  .not (.and [.kind .event, declined, .someAlarm (.property .description true)])

theorem root_searchable_declinedEvents :
    (FieldIndex.standard.indexed .valarm = true ∧
      ({ index := .standard, mode := .legacyAnyOf } : Planner).plan declinedEvents = .ok {
        root := some declinedRoot
        recheck := true
        deferred := [⟨.event, .any, [{ name := "COMMENT" }]⟩,
          ⟨.alarm, .any, [{ name := "TRIGGER" }]⟩]
        named := [.event, .alarm]
        mode := .legacyAnyOf } ∧
      declined.PartOf declinedRoot) ∧
    (∀ id, declined.property? = some id → FieldIndex.standard.indexed id = true) ∧
      ∀ name, declined.param? = some name → FieldIndex.standard.paramIndexed name = true := by
  have hpart : declined.PartOf declinedRoot :=
    .inside (List.mem_singleton_self _) (.inside (.tail _ (.head _)) (.whole _))
  exact ⟨⟨rfl, rfl, hpart⟩,
    root_searchable (x := { index := .standard, mode := .legacyAnyOf }) (f := declinedEvents)
      rfl rfl rfl hpart⟩

end CalendarSearch
