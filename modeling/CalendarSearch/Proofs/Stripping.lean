import CalendarSearch.Proofs.Nodes

/-! # The legacy plan searches by the searchable part

A legacy plan keeps of each node the prop-filters that the store can search by. Its root is
therefore the root of the plan, honouring the tests, of the filter without the others. -/

namespace CalendarSearch

open Traversal

namespace CompFilter

mutual

/-- The node, and the nodes inside it, without the prop-filters that the store cannot search by. -/
def stripNode (x : FieldIndex) : CompFilter → CompFilter
  | ⟨name, test, isNotDefined, timeRange, propFilters, compFilters⟩ => {
    name, test, isNotDefined, timeRange
    propFilters := propFilters.filter (·.searchable x)
    compFilters := stripNodes x compFilters }

def stripNodes (x : FieldIndex) : List CompFilter → List CompFilter
  | [] => []
  | f :: fs => stripNode x f :: stripNodes x fs

end

theorem stripNodes_eq_map (x : FieldIndex) (fs : List CompFilter) :
    stripNodes x fs = fs.map (stripNode x) := by
  induction fs with
  | nil => rfl
  | cons f fs ih => rw [stripNodes, ih, List.map_cons]

theorem stripNode_eq (x : FieldIndex) (f : CompFilter) : f.stripNode x = { f with
    propFilters := f.propFilters.filter (·.searchable x)
    compFilters := f.compFilters.map (stripNode x) } := by
  obtain ⟨name, test, isNotDefined, timeRange, propFilters, compFilters⟩ := f
  rw [stripNode, stripNodes_eq_map]

/-- The filter with all its component and alarm nodes stripped. -/
def strip (x : FieldIndex) (f : CompFilter) : CompFilter :=
  { f with compFilters := f.compFilters.map (stripNode x) }

end CompFilter

/-! ### Relaxations that are searched by alike -/

/-- Two relaxations that count as exact and have the same coarse predicate. Their full predicates
may differ. -/
structure Relaxation.Alike (r s : Relaxation) : Prop where
  coarse : r.coarse = s.coarse
  left : r.exact = true
  right : s.exact = true

namespace Relaxation.Alike

variable {r s : Relaxation} {rs ss : List Relaxation}

theorem refl (h : r.exact = true) : r.Alike r := ⟨rfl, h, h⟩

theorem map_coarse (h : List.Forall₂ Alike rs ss) :
    rs.map Relaxation.coarse = ss.map Relaxation.coarse :=
  (map_eq_map h fun _ _ _ hrs => hrs.coarse.symm).symm

theorem all_exact (h : List.Forall₂ Alike rs ss) :
    rs.all Relaxation.exact = true ∧ ss.all Relaxation.exact = true := by
  induction h with
  | nil => exact ⟨rfl, rfl⟩
  | cons hrs _ ih => simpa [hrs.left, hrs.right] using ih

/-- Conjunction keeps likeness, since exactness of all parts is exactness of the whole. -/
theorem meet (h : List.Forall₂ Alike rs ss) : (Relaxation.meet rs).Alike (Relaxation.meet ss) :=
  ⟨by simp only [Relaxation.meet, map_coarse h], (all_exact h).1, (all_exact h).2⟩

theorem join (h : List.Forall₂ Alike rs ss) : (Relaxation.join rs).Alike (Relaxation.join ss) :=
  ⟨by simp only [Relaxation.join, map_coarse h], (all_exact h).1, (all_exact h).2⟩

theorem ofParts (all : Bool) (h : List.Forall₂ Alike rs ss) :
    (Relaxation.ofParts all rs).Alike (Relaxation.ofParts all ss) := by
  cases all with
  | true => exact meet h
  | false => exact join h

theorem onOneAlarm (h : r.Alike s) : r.onOneAlarm.Alike s.onOneAlarm :=
  ⟨by simp only [Relaxation.onOneAlarm, h.coarse], h.left, h.right⟩

theorem undefine (h : r.Alike s) (isNotDefined : Bool) :
    (Planner.undefine isNotDefined r).Alike (Planner.undefine isNotDefined s) := by
  cases isNotDefined with
  | false => exact h
  | true => exact ⟨by simp [Planner.undefine, opposite, h.left, h.right, h.coarse], h.left, h.right⟩

end Relaxation.Alike

namespace Planner

variable {x : Planner}

/-! ### Divisions of searchable conditions -/

theorem divide_of_searchable {cs : List (PropFilter × Condition)}
    (h : ∀ k ∈ cs, k.2.searchable = true) (mode : RecheckMode) (kind : ComponentKind)
    (test : Junction) : divide mode kind test cs =
      (let p := Predicate.ofParts (test = .all) (cs.map (·.2.predicate)); ⟨p, p, true⟩, []) := by
  have hrest : cs.filter (!·.2.searchable) = [] :=
    List.filter_eq_nil_iff.mpr fun k hk => by simp [h k hk]
  simp [divide, hrest]

theorem searchable_filter (cs : List (PropFilter × Condition)) :
    ∀ k ∈ cs.filter (·.2.searchable), k.2.searchable = true :=
  fun _ hk => (List.mem_filter.mp hk).2

/-- Legacy mode asks the store for the searchable prop-filters and no more, whatever the test. -/
theorem coarse_divide_legacy (kind : ComponentKind) (test : Junction)
    (cs : List (PropFilter × Condition)) : (divide .legacyAnyOf kind test cs).1.coarse =
      Predicate.ofParts (test = .all) ((cs.filter (·.2.searchable)).map (·.2.predicate)) := by
  by_cases h : ∀ k ∈ cs, k.2.searchable = true
  · rw [divide_of_searchable h, List.filter_eq_self.mpr h]
  · have hrest : ((cs.filter (!·.2.searchable)).map (·.1)).isEmpty = false := by
      simpa using h
    simp [divide, hrest]

/-- Legacy mode calls its part exact even where prop-filters were left out. -/
theorem exact_divide_legacy (kind : ComponentKind) (test : Junction)
    (cs : List (PropFilter × Condition)) : (divide .legacyAnyOf kind test cs).1.exact = true := by
  unfold divide
  dsimp only
  split <;> rfl

/-- A prop-filter is searchable exactly when the condition read from it is, so both lists are
thinned alike. -/
theorem Reads.filter_searchable {fs : List PropFilter} {cs : List (PropFilter × Condition)}
    (h : x.Reads fs cs) :
    x.Reads (fs.filter (·.searchable x.index)) (cs.filter (·.2.searchable)) where
  filters := by
    rw [← h.filters, List.filter_map]
    congr 1
    exact List.filter_congr fun k hk => (h.means hk).searchable
  read := fun k hk => h.read k (List.mem_of_mem_filter hk)

/-! ### The simulation -/

/-- A legacy node and the node of the stripped filter: the store searches by them alike, they name
the same kinds, and the second defers nothing. -/
structure Simulates (p q : NodePlan) : Prop where
  relaxation : p.relaxation.Alike q.relaxation
  named : p.named = q.named
  deferred : q.deferred = []

/-- Leaving prop-filters to the recheck asks the store what the node without them would. -/
theorem alike_divide (kind : ComponentKind) (test : Junction)
    (cs : List (PropFilter × Condition)) :
    (divide .legacyAnyOf kind test cs).1.Alike
      (divide .honorTest kind test (cs.filter (·.2.searchable))).1 := by
  rw [divide_of_searchable (searchable_filter cs)]
  exact ⟨coarse_divide_legacy kind test cs, exact_divide_legacy kind test cs, rfl⟩

theorem alike_inner {ps qs : List NodePlan} (h : List.Forall₂ Simulates ps qs) (test : Junction) :
    (inner test ps).Alike (inner test qs) :=
  Relaxation.Alike.ofParts _ (List.forall₂_map_left_iff.mpr (List.forall₂_map_right_iff.mpr
    (h.imp fun _ _ hpq => hpq.relaxation)))

theorem named_inner {ps qs : List NodePlan} (h : List.Forall₂ Simulates ps qs) :
    ps.flatMap NodePlan.named = qs.flatMap NodePlan.named := by
  rw [List.flatMap_def, List.flatMap_def, map_eq_map h fun _ _ _ hpq => hpq.named.symm]

theorem deferred_inner {ps qs : List NodePlan} (h : List.Forall₂ Simulates ps qs) :
    qs.flatMap NodePlan.deferred = [] :=
  List.flatMap_eq_nil_iff.mpr (forall_mem_right h fun _ _ _ hpq => hpq.deferred)

theorem alike_rangePart {predicate : TimeRange → Predicate} {r : Option RangeText}
    {range : List Relaxation} (h : x.rangePart predicate r = .ok range) :
    List.Forall₂ Relaxation.Alike range range :=
  List.forall₂_same.mpr fun q hq => .refl (rangePart_exact h q hq).2

/-- One step of the simulation, at an alarm node: legacy mode asks what the stripped node asks. -/
theorem alarmNode_strip {f : CompFilter} {n : NodePlan} (h : x.alarmNode f = .ok n) :
    ∃ p q, { x with mode := .legacyAnyOf : Planner }.alarmNode f = .ok p ∧
      { x with mode := .honorTest : Planner }.alarmNode (f.stripNode x.index) = .ok q ∧
      Simulates p q := by
  obtain ⟨hname, hc, range, cs, hrange, hcs, -⟩ := alarmNode_eq_ok.mp h
  have hcs' := hcs.filter_searchable
  rw [CompFilter.stripNode_eq]
  refine ⟨_, _, alarmNode_eq_ok.mpr ⟨hname, hc, range, cs, hrange, ⟨hcs.filters, hcs.read⟩, rfl⟩,
    alarmNode_eq_ok.mpr ⟨hname, by simp [hc], range, _, hrange, ⟨hcs'.filters, hcs'.read⟩, rfl⟩,
    ?_, rfl, ?_⟩
  · have hparts := List.rel_append (alike_rangePart hrange)
      (.cons (alike_divide .alarm f.test cs) .nil)
    exact (Relaxation.Alike.meet hparts).onOneAlarm.undefine _
  · rw [assembleAlarm, divide_of_searchable (searchable_filter cs)]

theorem componentNode_strip {f : CompFilter} {n : NodePlan} (h : x.componentNode f = .ok n) :
    ∃ p q, { x with mode := .legacyAnyOf : Planner }.componentNode f = .ok p ∧
      { x with mode := .honorTest : Planner }.componentNode (f.stripNode x.index) = .ok q ∧
      Simulates p q := by
  obtain ⟨kind, range, cs, alarms, hkind, hrange, hcs, halarms, -⟩ := componentNode_eq_ok.mp h
  have hcs' := hcs.filter_searchable
  obtain ⟨ps, qs, hps, hqs, hsim⟩ := exists_forall₂ halarms fun g n hn => alarmNode_strip hn
  rw [CompFilter.stripNode_eq]
  refine ⟨_, _, componentNode_eq_ok.mpr
      ⟨kind, range, cs, ps, hkind, hrange, ⟨hcs.filters, hcs.read⟩, hps, rfl⟩,
    componentNode_eq_ok.mpr ⟨kind, range, _, qs, hkind, hrange, ⟨hcs'.filters, hcs'.read⟩,
      List.forall₂_map_left_iff.mpr hqs, rfl⟩, ?_, ?_, ?_⟩
  · have hparts := List.rel_append (.cons (.refl (r := .ofPredicate (.kind kind)) rfl)
      (alike_rangePart hrange))
      (.cons (alike_divide kind f.test cs) (.cons (alike_inner hsim f.test) .nil))
    exact (Relaxation.Alike.meet hparts).undefine _
  · exact congrArg (kind :: ·) (named_inner hsim)
  · rw [assembleComponent, divide_of_searchable (searchable_filter cs)]
    exact deferred_inner hsim

/-- The simulation at the root, which makes the roots of both plans equal. -/
theorem calendarNode_strip {f : CompFilter} {n : NodePlan} (h : x.calendarNode f = .ok n) :
    ∃ p q, { x with mode := .legacyAnyOf : Planner }.calendarNode f = .ok p ∧
      { x with mode := .honorTest : Planner }.calendarNode (f.strip x.index) = .ok q ∧
      Simulates p q := by
  obtain ⟨hname, hd, range, components, hrange, hcomponents, -⟩ := calendarNode_eq_ok.mp h
  obtain ⟨ps, qs, hps, hqs, hsim⟩ :=
    exists_forall₂ hcomponents fun g n hn => componentNode_strip hn
  refine ⟨_, _, calendarNode_eq_ok.mpr ⟨hname, hd, range, ps, hrange, hps, rfl⟩,
    calendarNode_eq_ok.mpr ⟨hname, hd, range, qs, hrange, List.forall₂_map_left_iff.mpr hqs, rfl⟩,
    ?_, named_inner hsim, deferred_inner hsim⟩
  have hparts := List.rel_append (alike_rangePart hrange) (.cons (alike_inner hsim f.test) .nil)
  exact Relaxation.Alike.meet hparts

end Planner

/-- The legacy plan of a filter searches by the same root as the plan, honouring the tests, of the
stripped filter, and names the same kinds. The stripped filter leaves nothing to be checked again,
and the legacy plan has no residual. -/
theorem legacy_root_eq_strip {x : Planner} {f : CompFilter} {plan : Plan}
    (h : x.plan f = .ok plan) :
    ∃ p q, { x with mode := .legacyAnyOf : Planner }.plan f = .ok p ∧
      { x with mode := .honorTest : Planner }.plan (f.strip x.index) = .ok q ∧
      p.root = q.root ∧ p.kinds = q.kinds ∧ q.recheck = false ∧ p.residual = none := by
  obtain ⟨n, hn, -⟩ := Planner.plan_eq_ok.mp h
  obtain ⟨p, q, hp, hq, hsim⟩ := Planner.calendarNode_strip hn
  refine ⟨_, _, Planner.plan_eq_ok.mpr ⟨p, hp, rfl⟩, Planner.plan_eq_ok.mpr ⟨q, hq, rfl⟩,
    hsim.relaxation.coarse, ?_, ?_, ?_⟩
  · simp only [Plan.kinds, hsim.named]
  · simp [hsim.deferred]
  · simp [hsim.relaxation.left]

/-- Events with a comment or an alarm that has a trigger; neither is indexed. -/
def annotatedEvents : CompFilter where
  name := "VCALENDAR"
  compFilters := [{
    name := "VEVENT"
    propFilters := [{ name := "COMMENT" }]
    compFilters := [{ name := "VALARM", propFilters := [{ name := "TRIGGER" }] }] }]

theorem legacy_root_eq_strip_annotatedEvents :
    ({ index := .standard, mode := .legacyAnyOf } : Planner).plan annotatedEvents = .ok {
      root := some (.and [.kind .event, .property .valarm true])
      recheck := true
      deferred := [⟨.event, .any, [{ name := "COMMENT" }]⟩, ⟨.alarm, .any, [{ name := "TRIGGER" }]⟩]
      named := [.event, .alarm]
      mode := .legacyAnyOf } ∧
    ∃ p q, ({ index := .standard, mode := .legacyAnyOf } : Planner).plan annotatedEvents = .ok p ∧
      ({ index := .standard } : Planner).plan (annotatedEvents.strip .standard) = .ok q ∧
      p.root = q.root ∧ p.kinds = q.kinds ∧ q.recheck = false ∧ p.residual = none :=
  ⟨rfl, legacy_root_eq_strip (x := { index := .standard, mode := .legacyAnyOf }) rfl⟩

end CalendarSearch
