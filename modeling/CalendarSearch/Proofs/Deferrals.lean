import CalendarSearch.Proofs.Acceptance
import CalendarSearch.Proofs.Stripping
import CalendarSearch.Proofs.Legacy

/-! # What a plan defers, read off the filter

Which prop-filters a plan defers depends on the index alone, and their groups can be read off the
filter: node by node, a component before its alarms. So can the test for a second check, and in
legacy mode what is deferred for a kind and what the root of the plan means. -/

namespace CalendarSearch

open Traversal
open Predicate (evalOptional)

namespace Planner

variable {x : Planner}

/-! ### Groups -/

/-- The group that a node defers, if the store cannot search by all of its prop-filters. -/
def group (x : Planner) (kind : ComponentKind) (f : CompFilter) : List Deferral :=
  let rest := f.propFilters.filter (!·.searchable x.index)
  if rest.isEmpty then []
  else match x.mode, f.test with
    | .honorTest, .any => [⟨kind, .any, f.propFilters⟩]
    | .honorTest, .all => [⟨kind, .all, rest⟩]
    | .legacyAnyOf, _ => [⟨kind, .any, rest⟩]

/-- The groups of a component node and of the alarm nodes inside it. -/
def componentGroups (x : Planner) (f : CompFilter) : List Deferral :=
  (ComponentKind.ofComponent? f.name).toList.flatMap (x.group · f) ++
    f.compFilters.flatMap (x.group .alarm)

theorem deferred_divide {kind : ComponentKind} {f : CompFilter} {cs : List (PropFilter × Condition)}
    (h : x.Reads f.propFilters cs) : (divide x.mode kind f.test cs).2 = x.group kind f := by
  have hrest : (cs.filter (!·.2.searchable)).map (·.1) =
      f.propFilters.filter (!·.searchable x.index) := by
    rw [← h.filters, List.filter_map]
    congr 1
    exact List.filter_congr fun k hk => by simp [(h.means hk).searchable]
  unfold divide group
  simp only [hrest, h.filters]
  split
  · rfl
  · cases x.mode <;> cases f.test <;> rfl

theorem deferred_alarmNode {f : CompFilter} {n : NodePlan} (h : x.alarmNode f = .ok n) :
    n.deferred = x.group .alarm f := by
  obtain ⟨-, -, range, cs, -, hcs, rfl⟩ := alarmNode_eq_ok.mp h
  exact deferred_divide hcs

theorem deferred_componentNode {f : CompFilter} {n : NodePlan} (h : x.componentNode f = .ok n) :
    n.deferred = x.componentGroups f := by
  obtain ⟨kind, range, cs, alarms, hkind, -, hcs, halarms, rfl⟩ := componentNode_eq_ok.mp h
  have hname : ComponentKind.ofComponent? f.name = some kind :=
    (Option.filter_eq_some_iff.mp hkind).1
  have hinner : alarms.map NodePlan.deferred = f.compFilters.map (x.group .alarm) :=
    map_eq_map halarms fun _ _ _ hn => deferred_alarmNode hn
  simp only [assembleComponent, componentGroups, deferred_divide hcs, hname, Option.toList_some,
    List.flatMap_def, hinner, List.map_cons, List.map_nil, List.flatten_singleton]

/-- The groups of a plan are those of the component nodes, in order. -/
theorem deferred_plan {f : CompFilter} {p : Plan} (h : x.plan f = .ok p) :
    p.deferred = f.compFilters.flatMap x.componentGroups := by
  obtain ⟨n, hn, rfl⟩ := plan_eq_ok.mp h
  obtain ⟨-, -, range, components, -, hcomponents, rfl⟩ := calendarNode_eq_ok.mp hn
  have hinner : components.map NodePlan.deferred = f.compFilters.map x.componentGroups :=
    map_eq_map hcomponents fun _ _ _ hn => deferred_componentNode hn
  simp only [assembleCalendar, List.flatMap_def, hinner]

/-! ### The second check -/

theorem group_eq_nil {kind : ComponentKind} {f : CompFilter} :
    x.group kind f = [] ↔ ∀ g ∈ f.propFilters, g.searchable x.index = true := by
  unfold group
  dsimp only
  split
  · rename_i hrest
    simpa using hrest
  · rename_i hrest
    have hne : ¬∀ g ∈ f.propFilters, g.searchable x.index = true := by simpa using hrest
    cases x.mode <;> cases f.test <;> simp [hne]

/-- Something is to be checked again exactly if the store cannot search by one of the prop-filters
that are looked at. -/
theorem recheck_eq {f : CompFilter} {p : Plan} (h : x.plan f = .ok p) :
    p.recheck = !f.searchedProps.all (·.searchable x.index) := by
  have hvalid : f.Valid x.index := verdict_plan.exists_ok_iff.mp ⟨p, h⟩
  have hnil : p.deferred = [] ↔ ∀ g ∈ f.searchedProps, g.searchable x.index = true := by
    rw [deferred_plan h, List.flatMap_eq_nil_iff, CompFilter.searchedProps, List.forall_mem_flatMap]
    refine forall₂_congr fun g hg => ?_
    obtain ⟨kind, hkind, -⟩ := (hvalid.components g hg).name
    rw [componentGroups, hkind, List.append_eq_nil_iff, List.flatMap_eq_nil_iff,
      List.forall_mem_append, List.forall_mem_flatMap]
    simp [group_eq_nil]
  rw [recheck_plan h, Bool.eq_iff_iff]
  simp [hnil]

/-! ### Legacy plans -/

/-- Legacy groups of a kind hold the prop-filters that the store cannot search by. -/
theorem filters_group (hmode : x.mode = .legacyAnyOf) (own kind : ComponentKind) (f : CompFilter) :
    ((x.group own f).filter (·.kind = kind)).flatMap Deferral.filters =
      if own = kind then f.propFilters.filter (!·.searchable x.index) else [] := by
  unfold group
  dsimp only
  rw [hmode]
  by_cases hkind : own = kind
  · by_cases hrest : (f.propFilters.filter (!·.searchable x.index)).isEmpty = true
    · rw [if_pos hrest, if_pos hkind, List.isEmpty_iff.mp hrest]
      rfl
    · rw [if_neg hrest, if_pos hkind]
      simp [hkind]
  · rw [if_neg hkind]
    split <;> simp [hkind]

end Planner

namespace CompFilter

/-- The prop-filters of the nodes of a kind, a component node before its alarms. -/
def propsFor (f : CompFilter) (kind : ComponentKind) : List PropFilter :=
  f.compFilters.flatMap fun g =>
    (if ComponentKind.ofComponent? g.name = some kind then g.propFilters else []) ++
      if kind = .alarm then g.compFilters.flatMap CompFilter.propFilters else []

end CompFilter

namespace Plan

variable {x : Planner} {f : CompFilter} {p : Plan}

theorem filtersFor_legacy (hmode : x.mode = .legacyAnyOf) (h : x.plan f = .ok p)
    (kind : ComponentKind) :
    p.filtersFor kind = (f.propsFor kind).filter (!·.searchable x.index) := by
  rw [filtersFor, deferralsOf, Planner.deferred_plan h, CompFilter.propsFor, List.filter_flatMap,
    List.filter_flatMap, List.flatMap_assoc]
  congr 1
  funext g
  rw [Planner.componentGroups, List.filter_append, List.flatMap_append, List.filter_append,
    List.filter_flatMap, List.filter_flatMap, List.flatMap_assoc, List.flatMap_assoc]
  simp only [Planner.filters_group hmode]
  congr 1
  · cases hname : ComponentKind.ofComponent? g.name with
    | none => simp
    | some own => by_cases hkind : own = kind <;> simp [hkind]
  · by_cases hkind : kind = .alarm
    · simp [hkind, List.filter_flatMap]
    · simp [hkind, Ne.symm hkind]

/-- The root of a legacy plan means what is left of the filter without the prop-filters that the
store cannot search by. -/
theorem root_legacy (hmode : x.mode = .legacyAnyOf) (h : x.plan f = .ok p) (c : Component) :
    evalOptional none c p.root = (f.strip x.index).holdsOfCalendar x.index c := by
  obtain ⟨n, hn, -⟩ := Planner.plan_eq_ok.mp h
  obtain ⟨m, q, hm, hq, hsim⟩ := Planner.calendarNode_strip hn
  have hself : { x with mode := .legacyAnyOf : Planner } = x := by rw [← hmode]
  have hp : x.plan f = .ok _ := Planner.plan_eq_ok.mpr ⟨m, hself ▸ hm, rfl⟩
  have hstrip : { x with mode := .honorTest : Planner }.plan (f.strip x.index) = .ok _ :=
    Planner.plan_eq_ok.mpr ⟨q, hq, rfl⟩
  have hroot := (Planner.honours_plan rfl hstrip).root_eq (by simp [hsim.deferred]) c
  cases h.symm.trans hp
  rw [hsim.relaxation.coarse]
  exact hroot

end Plan

end CalendarSearch
