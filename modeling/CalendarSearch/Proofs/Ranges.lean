import CalendarSearch.Proofs.Parts
import CalendarSearch.Search

/-! # The ranges of a plan

Wherever a range stands in a predicate of a plan, be it the root, the residual one or one made of
what was deferred, the planner has read it from the attributes of a time-range. -/

namespace CalendarSearch

open Traversal

namespace Predicate

/-- The range that a predicate names itself. -/
@[simp] def range? : Predicate → Option TimeRange
  | occursIn range | firesIn range | propertyIn _ range => some range
  | and _ | or _ | not _ | kind _ | someAlarm _ | property _ _ | propertyText _ _ | param _ _ _
  | paramText _ _ _ => none

/-- The range that the predicate names itself, if it names one, has the property. -/
def RangeIs (P : TimeRange → Prop) (p : Predicate) : Prop :=
  ∀ range, p.range? = some range → P range

/-- Every range in the predicate, at whatever depth, has the property. -/
def RangesAre (P : TimeRange → Prop) (p : Predicate) : Prop := p.Everywhere (RangeIs P)

variable {P : TimeRange → Prop}

theorem ofTests_rangeIs : OfTests (RangeIs P) := by
  constructor <;> simp [RangeIs]

theorem rangeIs_of_range? {p : Predicate} {range : TimeRange} (hp : p.range? = some range)
    (h : P range) : p.RangeIs P := by
  intro range' hrange'
  rw [hp] at hrange'
  cases hrange'
  exact h

theorem rangesAre_imp {Q : TimeRange → Prop} (hPQ : ∀ range, P range → Q range) {p : Predicate}
    (h : p.RangesAre P) : p.RangesAre Q :=
  fun q hq range hrange => hPQ range (h q hq range hrange)

end Predicate

namespace Planner

open Predicate

variable {x : Planner}

/-- The planner has read the range from a time-range. -/
def Gives (x : Planner) (range : TimeRange) : Prop := ∃ r, x.readRange r = .ok range

/-- For any predicates, be they for the store or not. -/
theorem grants_gives (forStore : Bool) : x.Grants (RangeIs x.Gives) forStore := by
  constructor
  case connectives => exact ofTests_rangeIs
  case occursIn => exact fun r range h => rangeIs_of_range? rfl ⟨r, h⟩
  case firesIn => exact fun r range h => rangeIs_of_range? rfl ⟨r, h⟩
  case propertyIn => exact fun id r range _ h => rangeIs_of_range? rfl ⟨r, h⟩
  all_goals simp [RangeIs, Relaxation.hasAlarm]

theorem ranges_calendarNode {f : CompFilter} {n : NodePlan} (h : x.calendarNode f = .ok n) :
    n.relaxation.Within (RangeIs x.Gives) (RangeIs x.Gives) :=
  (Builds.mk (grants_gives false) (grants_gives true)).calendarNode h

end Planner

namespace Plan

open Predicate

variable {plan : Plan} {x : Planner}

theorem ranges_deferredPredicate {kind : ComponentKind} {p : Option Predicate}
    (h : plan.deferredPredicate x kind = .ok p) : EverywhereOptional (RangeIs x.Gives) p := by
  simp only [deferredPredicate, bind_eq_ok, pure_eq_ok, mapM_eq_ok] at h
  obtain ⟨ps, hps, rfl⟩ := h
  refine ofTests_rangeIs.everywhere_ofParts (forall_mem_right hps ?_)
  rintro f - _ ⟨k, hk, rfl⟩
  exact (Planner.grants_gives false).propCondition hk nofun

theorem ranges_deferredPredicates {predicates : List (ComponentKind × Predicate)}
    (h : plan.deferredPredicates x = .ok predicates) {kind : ComponentKind} {p : Predicate}
    (hp : (kind, p) ∈ predicates) : p.RangesAre x.Gives := by
  simp only [deferredPredicates, bind_eq_ok, pure_eq_ok, mapM_pair_eq_ok] at h
  obtain ⟨found, ⟨-, hfound⟩, rfl⟩ := h
  obtain ⟨⟨kind', p'⟩, hmem, hp'⟩ := List.mem_filterMap.mp hp
  obtain ⟨q, rfl, hq⟩ := Option.map_eq_some_iff.mp hp'
  cases hq
  exact ranges_deferredPredicate (hfound _ hmem) p rfl

/-- The predicates that a search evaluates: the root, and in a check the residual predicate or what
was deferred, be it for components or for their alarms. -/
inductive Evaluates (plan : Plan) (x : Planner) : Predicate → Prop
  | root {p : Predicate} : plan.root = some p → plan.Evaluates x p
  | residual {p : Predicate} : plan.residual = some p → plan.Evaluates x p
  | deferred {predicates : List (ComponentKind × Predicate)} {kind : ComponentKind}
    {p : Predicate} : plan.deferredPredicates x = .ok predicates → (kind, p) ∈ predicates →
      plan.Evaluates x p
  | ofAlarms {predicates : List (ComponentKind × Predicate)} {p : Predicate} :
    plan.deferredPredicates x = .ok predicates → (.alarm, p) ∈ predicates →
      plan.Evaluates x (.someAlarm p)

/-- Every range that a plan evaluates was read from the filter by its planner. -/
theorem ranges_evaluated {f : CompFilter} (h : x.plan f = .ok plan) {p : Predicate}
    (hp : plan.Evaluates x p) : p.RangesAre x.Gives := by
  obtain ⟨n, hn, hplan⟩ := Planner.plan_eq_ok.mp h
  obtain ⟨hfull, hcoarse⟩ := Planner.ranges_calendarNode hn
  cases hp with
  | root hroot =>
    rw [hplan] at hroot
    exact hcoarse p hroot
  | residual hresidual =>
    rw [hplan] at hresidual
    dsimp only at hresidual
    split at hresidual
    · cases hresidual
    · exact hfull p hresidual
  | deferred hread hmem => exact ranges_deferredPredicates hread hmem
  | ofAlarms hread hmem =>
    exact ofTests_rangeIs.everywhere_someAlarm.mpr (ranges_deferredPredicates hread hmem)

end Plan

end CalendarSearch
