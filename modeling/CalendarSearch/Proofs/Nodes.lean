import CalendarSearch.Proofs.Conditions

/-! # The nodes of a plan

A node that can be planned is put together from its parts: its range, its conditions and the nodes
inside it. The shortcut for nodes without conditions gives what the parts would give. -/

namespace CalendarSearch.Planner

open Traversal
open Predicate (evalOptional)

variable {x : Planner}

/-! ### Putting nodes together -/

/-- An alarm node made of its range and its conditions. -/
def assembleAlarm (x : Planner) (f : CompFilter) (range : List Relaxation)
    (cs : List (PropFilter × Condition)) : NodePlan where
  relaxation := undefine f.isNotDefined
    (Relaxation.meet (range ++ [(divide x.mode .alarm f.test cs).1])).onOneAlarm
  named := [.alarm]
  deferred := (divide x.mode .alarm f.test cs).2

def assembleComponent (x : Planner) (f : CompFilter) (kind : ComponentKind)
    (range : List Relaxation) (cs : List (PropFilter × Condition)) (alarms : List NodePlan) :
    NodePlan where
  relaxation := undefine f.isNotDefined (Relaxation.meet
    (.ofPredicate (.kind kind) :: range ++ [(divide x.mode kind f.test cs).1, inner f.test alarms]))
  named := kind :: alarms.flatMap NodePlan.named
  deferred := (divide x.mode kind f.test cs).2 ++ alarms.flatMap NodePlan.deferred

def assembleCalendar (f : CompFilter) (range : List Relaxation) (components : List NodePlan) :
    NodePlan where
  relaxation := Relaxation.meet (range ++ [inner f.test components])
  named := components.flatMap NodePlan.named
  deferred := components.flatMap NodePlan.deferred

theorem isUnconditional_iff {f : CompFilter} : f.isUnconditional = true ↔
    f.timeRange = none ∧ f.compFilters = [] ∧ f.propFilters = [] := by
  simp [CompFilter.isUnconditional, and_assoc]

theorem Reads.nil : x.Reads [] [] := ⟨rfl, by simp⟩

theorem reads_nil_iff {cs : List (PropFilter × Condition)} : x.Reads [] cs ↔ cs = [] :=
  ⟨fun h => List.map_eq_nil_iff.mp h.filters, fun h => h ▸ Reads.nil⟩

/-- What an accepted alarm node says: it is a VALARM, nothing stands below it, and its range and
prop-filters have been read. -/
theorem alarmNode_eq_ok {f : CompFilter} {n : NodePlan} :
    x.alarmNode f = .ok n ↔
      x.index.property? f.name = some .valarm ∧ f.compFilters = [] ∧
        ∃ range cs, x.rangePart .firesIn f.timeRange = .ok range ∧ x.Reads f.propFilters cs ∧
          x.assembleAlarm f range cs = n := by
  unfold alarmNode
  simp only [check_eq_ok, not_not]
  refine and_congr_right fun _ => ?_
  split
  · rename_i hu
    obtain ⟨hr, hc, hp⟩ := isUnconditional_iff.mp hu
    have hshort : x.assembleAlarm f [] [] = {
        relaxation := undefine f.isNotDefined (.ofPredicate Relaxation.hasAlarm)
        named := [.alarm]
        deferred := [] } := rfl
    simp [hr, hc, hp, reads_nil_iff, rangePart, pure_eq_ok, hshort]
  · simp only [bind_eq_ok, propConditions_eq_ok, check_eq_ok, pure_eq_ok]
    constructor
    · rintro ⟨range, hrange, _, ⟨cs, hcs, rfl⟩, hc, hn⟩
      exact ⟨by simpa using hc, range, cs, hrange, hcs, hn⟩
    · rintro ⟨hc, range, cs, hrange, hcs, hn⟩
      exact ⟨range, hrange, _, ⟨cs, hcs, rfl⟩, by simp [hc], hn⟩

/-- What an accepted component node says: its kind is one of the top level, and its conditions and
alarm nodes have been read in order. -/
theorem componentNode_eq_ok {f : CompFilter} {n : NodePlan} :
    x.componentNode f = .ok n ↔
      ∃ kind range cs alarms,
        (ComponentKind.ofComponent? f.name).filter ComponentKind.inCalendar = some kind ∧
          x.rangePart .occursIn f.timeRange = .ok range ∧ x.Reads f.propFilters cs ∧
          List.Forall₂ (fun g a => x.alarmNode g = .ok a) f.compFilters alarms ∧
          x.assembleComponent f kind range cs alarms = n := by
  unfold componentNode
  split
  · rename_i kind hkind
    simp only [hkind]
    split
    · rename_i hu
      obtain ⟨hr, hc, hp⟩ := isUnconditional_iff.mp hu
      have hshort : x.assembleComponent f kind [] [] [] = {
          relaxation := undefine f.isNotDefined (.ofPredicate (.kind kind))
          named := [kind]
          deferred := [] } := by
        cases ht : f.test <;> simp only [assembleComponent, ht] <;> rfl
      simp [hr, hc, hp, reads_nil_iff, rangePart, pure_eq_ok, hshort]
    · simp only [bind_eq_ok, propConditions_eq_ok, mapM_eq_ok, pure_eq_ok]
      constructor
      · rintro ⟨range, hrange, _, ⟨cs, hcs, rfl⟩, alarms, halarms, hn⟩
        exact ⟨kind, range, cs, alarms, rfl, hrange, hcs, halarms, hn⟩
      · rintro ⟨_, range, cs, alarms, hkind', hrange, hcs, halarms, hn⟩
        cases hkind'
        exact ⟨range, hrange, _, ⟨cs, hcs, rfl⟩, alarms, halarms, hn⟩
  · rename_i hkind
    constructor
    · intro h
      cases h
    · rintro ⟨kind, _, _, _, hkind', -⟩
      exact (hkind kind hkind').elim

/-- What an accepted calendar node says: the name is that of the calendar, it is not negated, and
each component node has been read. -/
theorem calendarNode_eq_ok {f : CompFilter} {n : NodePlan} :
    x.calendarNode f = .ok n ↔
      Text.alike f.name calendarName = true ∧ f.isNotDefined = false ∧
        ∃ range components, x.rangePart .occursIn f.timeRange = .ok range ∧
          List.Forall₂ (fun g c => x.componentNode g = .ok c) f.compFilters components ∧
          assembleCalendar f range components = n := by
  unfold calendarNode
  simp only [check_eq_ok, Bool.not_eq_true', Bool.not_eq_false, Bool.not_eq_true]
  refine and_congr_right fun _ => and_congr_right fun _ => ?_
  split
  · rename_i hu
    obtain ⟨hr, hc, -⟩ := isUnconditional_iff.mp hu
    have hshort : assembleCalendar f [] [] =
        { relaxation := .everything, named := [], deferred := [] } := by
      cases ht : f.test <;> simp only [assembleCalendar, ht] <;> rfl
    simp [hr, hc, rangePart, pure_eq_ok, hshort]
  · simp only [bind_eq_ok, mapM_eq_ok, pure_eq_ok]
    constructor
    · rintro ⟨range, hrange, components, hcomponents, hn⟩
      exact ⟨range, components, hrange, hcomponents, hn⟩
    · rintro ⟨range, components, hrange, hcomponents, hn⟩
      exact ⟨range, hrange, components, hcomponents, hn⟩

/-! ### Ranges -/

theorem rangePart_exact {predicate : TimeRange → Predicate} {r : Option RangeText}
    {parts : List Relaxation} (h : x.rangePart predicate r = .ok parts) :
    ∀ q ∈ parts, q.Sound ∧ q.exact = true := by
  rcases rangePart_eq_ok.mp h with ⟨-, rfl⟩ | ⟨t, range, -, -, rfl⟩
  · simp
  · simpa using ⟨Relaxation.Sound.ofPredicate _, rfl⟩

theorem sound_rangePart {predicate : TimeRange → Predicate} {r : Option RangeText}
    {parts : List Relaxation} (h : x.rangePart predicate r = .ok parts) : ∀ q ∈ parts, q.Sound :=
  fun q hq => (rangePart_exact h q hq).1

theorem all_exact_rangePart {predicate : TimeRange → Predicate} {r : Option RangeText}
    {parts : List Relaxation} (h : x.rangePart predicate r = .ok parts) :
    parts.all Relaxation.exact = true :=
  List.all_eq_true.mpr fun q hq => (rangePart_exact h q hq).2

/-! ### What nodes mean -/

/-- The range part of a node says what the range says; the zone it carries does not matter. -/
theorem eval_rangePart {predicate : TimeRange → Predicate} {r : Option RangeText}
    {parts : List Relaxation} (h : x.rangePart predicate r = .ok parts)
    {owner : Option Component} {c : Component} {test : TimeRange → Bool}
    (hp : ∀ range, (predicate range).eval owner c = test range) (ht : ZoneFree test) :
    (parts.all fun q => evalOptional owner c q.full) = rangeHolds r test := by
  rcases rangePart_eq_ok.mp h with ⟨rfl, rfl⟩ | ⟨t, range, rfl, hrange, rfl⟩
  · rfl
  · simp [rangeHolds, range?_any hrange ht, Relaxation.ofPredicate, hp]

/-- A negated node says the opposite, as long as it says something. -/
theorem eval_undefine {r : Relaxation} (h : r.full.isSome = true) (isNotDefined : Bool)
    (owner : Option Component) (c : Component) :
    evalOptional owner c (undefine isNotDefined r).full =
      (evalOptional owner c r.full != isNotDefined) := by
  cases isNotDefined with
  | false => simp [undefine]
  | true => simp [undefine, Relaxation.eval_full_opposite owner c h]

theorem isSome_undefine (isNotDefined : Bool) (r : Relaxation) :
    (undefine isNotDefined r).full.isSome = r.full.isSome := by
  cases isNotDefined <;> simp [undefine, Relaxation.opposite]

/-- A component node always asks something: at the least, that the component is of its kind. -/
theorem isSome_assembleComponent (f : CompFilter) (kind : ComponentKind) (range : List Relaxation)
    (cs : List (PropFilter × Condition)) (alarms : List NodePlan) :
    (x.assembleComponent f kind range cs alarms).relaxation.full.isSome = true := by
  rw [assembleComponent, isSome_undefine, Relaxation.isSome_full_meet]
  rfl

/-- The full predicate of an alarm node means what the node means. -/
theorem eval_alarmNode {f : CompFilter} {n : NodePlan} (h : x.alarmNode f = .ok n)
    (owner : Option Component) (c : Component) :
    evalOptional owner c n.relaxation.full = f.holdsOfAlarms x.index c := by
  obtain ⟨-, -, range, cs, hrange, hcs, rfl⟩ := alarmNode_eq_ok.mp h
  have hpart (alarm : Component) : (range.all fun q => evalOptional (some c) alarm q.full) =
      rangeHolds f.timeRange (alarm.firesIn c) :=
    eval_rangePart hrange (fun _ => by simp [Predicate.eval]) (zoneFree_firesIn alarm c)
  rw [assembleAlarm, eval_undefine rfl, CompFilter.holdsOfAlarms]
  simp only [Relaxation.onOneAlarm, Predicate.evalOptional_some, Relaxation.eval_onAlarm,
    Relaxation.eval_full_meet, List.all_append, List.all_cons, List.all_nil, Bool.and_true, hpart,
    eval_divide_full _ _ _ hcs]

theorem eval_inner (test : Junction) (children : List NodePlan) (owner : Option Component)
    (c : Component) : evalOptional owner c (inner test children).full =
      test.joins (children.map fun n => evalOptional owner c n.relaxation.full) := by
  rw [inner, Relaxation.eval_full_ofParts, List.map_map]
  rfl

theorem eval_componentNode {f : CompFilter} {n : NodePlan} (h : x.componentNode f = .ok n)
    (c : Component) : evalOptional none c n.relaxation.full = f.holdsOfComponent x.index c := by
  obtain ⟨kind, range, cs, alarms, hkind, hrange, hcs, halarms, rfl⟩ := componentNode_eq_ok.mp h
  have hpart : (range.all fun q => evalOptional none c q.full) =
      rangeHolds f.timeRange c.occursIn :=
    eval_rangePart hrange (fun _ => by simp [Predicate.eval]) (zoneFree_occursIn c)
  have hinner : alarms.map (fun n => evalOptional none c n.relaxation.full) =
      f.compFilters.map (CompFilter.holdsOfAlarms x.index c) :=
    map_eq_map halarms fun g _ n hn => eval_alarmNode hn none c
  have hname : ComponentKind.ofComponent? f.name = some kind :=
    (Option.filter_eq_some_iff.mp hkind).1
  rw [assembleComponent, eval_undefine, CompFilter.holdsOfComponent]
  · simp only [Relaxation.eval_full_meet, List.all_append, List.all_cons, List.all_nil,
      Bool.and_true, hpart, eval_divide_full _ _ _ hcs, eval_inner, hinner, hname]
    have hown : evalOptional none c (Relaxation.ofPredicate (.kind kind)).full =
        decide (some kind = some c.kind) := by
      simp [Relaxation.ofPredicate, Predicate.eval, eq_comm]
    rw [hown, Bool.and_assoc (_ && _)]
  · rw [Relaxation.isSome_full_meet]
    rfl

/-- The full predicate of the root means what the filter means. -/
theorem eval_calendarNode {f : CompFilter} {n : NodePlan} (h : x.calendarNode f = .ok n)
    (c : Component) : evalOptional none c n.relaxation.full = f.holdsOfCalendar x.index c := by
  obtain ⟨-, -, range, components, hrange, hcomponents, rfl⟩ := calendarNode_eq_ok.mp h
  have hpart : (range.all fun q => evalOptional none c q.full) =
      rangeHolds f.timeRange c.occursIn :=
    eval_rangePart hrange (fun _ => by simp [Predicate.eval]) (zoneFree_occursIn c)
  have hinner : components.map (fun n => evalOptional none c n.relaxation.full) =
      f.compFilters.map (CompFilter.holdsOfComponent x.index c) :=
    map_eq_map hcomponents fun g _ n hn => eval_componentNode hn c
  simp only [assembleCalendar, CompFilter.holdsOfCalendar, Relaxation.eval_full_meet,
    List.all_append, List.all_cons, List.all_nil, Bool.and_true, hpart, eval_inner, hinner]

/-! ### What is deferred -/

/-- A group holds prop-filters, and each of them can be read. -/
structure Readable (x : Planner) (d : Deferral) : Prop where
  nonempty : d.filters ≠ []
  read : ∀ f ∈ d.filters, ∃ k, x.propCondition f = .ok k

theorem readable_divide {kind : ComponentKind} {test : Junction} {fs : List PropFilter}
    {cs : List (PropFilter × Condition)} (h : x.Reads fs cs) :
    ∀ d ∈ (divide x.mode kind test cs).2, x.Readable d := by
  intro d hd
  obtain ⟨hne, hsub⟩ := mem_divide _ _ _ _ hd
  refine ⟨hne, fun f hf => ?_⟩
  obtain ⟨k, hk, rfl⟩ := List.mem_map.mp (hsub f hf)
  exact ⟨k.2, h.read k hk⟩

theorem readable_flatMap {children : List NodePlan}
    (h : ∀ n ∈ children, ∀ d ∈ n.deferred, x.Readable d) :
    ∀ d ∈ children.flatMap NodePlan.deferred, x.Readable d := by
  intro d hd
  obtain ⟨n, hn, hd⟩ := List.mem_flatMap.mp hd
  exact h n hn d hd

theorem readable_alarmNode {f : CompFilter} {n : NodePlan} (h : x.alarmNode f = .ok n) :
    ∀ d ∈ n.deferred, x.Readable d := by
  obtain ⟨-, -, range, cs, -, hcs, rfl⟩ := alarmNode_eq_ok.mp h
  exact readable_divide hcs

theorem readable_componentNode {f : CompFilter} {n : NodePlan} (h : x.componentNode f = .ok n) :
    ∀ d ∈ n.deferred, x.Readable d := by
  obtain ⟨kind, range, cs, alarms, -, -, hcs, halarms, rfl⟩ := componentNode_eq_ok.mp h
  refine List.forall_mem_append.mpr ⟨readable_divide hcs, readable_flatMap ?_⟩
  exact forall_mem_right halarms fun _ _ _ hn => readable_alarmNode hn

theorem readable_calendarNode {f : CompFilter} {n : NodePlan} (h : x.calendarNode f = .ok n) :
    ∀ d ∈ n.deferred, x.Readable d := by
  obtain ⟨-, -, range, components, -, hcomponents, rfl⟩ := calendarNode_eq_ok.mp h
  exact readable_flatMap
    (forall_mem_right hcomponents fun _ _ _ hn => readable_componentNode hn)

/-- Deferrals are kept in the order they are met, and any of them calls for a recheck. -/
theorem foldl_addDeferral {ds : List Deferral} (h : ∀ d ∈ ds, d.filters ≠ []) (p : Plan) :
    ds.foldl Plan.addDeferral p =
      { p with deferred := p.deferred ++ ds, recheck := p.recheck || !ds.isEmpty } := by
  induction ds generalizing p with
  | nil => simp
  | cons d ds ih =>
    obtain ⟨hd, hds⟩ := List.forall_mem_cons.mp h
    simp [ih hds, Plan.addDeferral, hd]

/-- A plan is read off its calendar node. -/
theorem plan_eq_ok {f : CompFilter} {p : Plan} :
    x.plan f = .ok p ↔ ∃ n, x.calendarNode f = .ok n ∧ p = {
      root := n.relaxation.coarse
      recheck := !n.deferred.isEmpty
      residual := if n.relaxation.exact then none else n.relaxation.full
      deferred := n.deferred
      named := n.named
      mode := x.mode } := by
  simp only [plan, bind_eq_ok, pure_eq_ok]
  refine exists_congr fun n => and_congr_right fun hn => ?_
  rw [foldl_addDeferral fun d hd => (readable_calendarNode hn d hd).nonempty, eq_comm]
  simp

theorem mode_plan {f : CompFilter} {p : Plan} (h : x.plan f = .ok p) : p.mode = x.mode := by
  obtain ⟨n, -, rfl⟩ := plan_eq_ok.mp h
  rfl

/-- A plan asks for another check exactly where something was deferred. -/
theorem recheck_plan {f : CompFilter} {p : Plan} (h : x.plan f = .ok p) :
    p.recheck = !p.deferred.isEmpty := by
  obtain ⟨n, -, rfl⟩ := plan_eq_ok.mp h
  rfl

/-- No group of a plan fails to compile when its results are refined. -/
theorem readable_plan {f : CompFilter} {p : Plan} (h : x.plan f = .ok p) :
    ∀ d ∈ p.deferred, x.Readable d := by
  obtain ⟨n, hn, rfl⟩ := plan_eq_ok.mp h
  exact readable_calendarNode hn

end CalendarSearch.Planner
