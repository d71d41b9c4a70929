import CalendarSearch.Proofs.Deferrals

/-! # What a plan defers for a kind

The groups that a plan defers for a kind can be read off the nodes of that kind in preorder. Each
node with a prop-filter that the store cannot search by leaves one group, and no other group is
there: so nothing that was deferred is lost, filed under another kind or kept twice. -/

namespace CalendarSearch

open Traversal

/-- The property and all the parameters that the prop-filter names are indexed. -/
structure PropFilter.Indexed (x : FieldIndex) (f : PropFilter) : Prop where
  property : ∃ id, x.property? f.name = some id ∧ x.indexed id = true
  params : ∀ g ∈ f.paramFilters, ∃ id, x.param? g.name = some id ∧ x.paramIndexed id = true

theorem PropFilter.searchable_iff {x : FieldIndex} {f : PropFilter} :
    f.searchable x = true ↔ f.Indexed x := by
  simp only [searchable, Bool.and_eq_true, List.all_eq_true, Option.any_eq_true]
  constructor
  · intro h
    exact ⟨h.1, h.2⟩
  · intro h
    exact ⟨h.property, h.params⟩

namespace CompFilter

/-! ### Nodes in preorder -/

mutual

/-- A node and then the nodes inside it, each with its level; the node itself stands at the given
level. -/
def preorder (level : Nat) : CompFilter → List (Nat × CompFilter)
  | ⟨name, test, isNotDefined, timeRange, propFilters, compFilters⟩ =>
    (level, ⟨name, test, isNotDefined, timeRange, propFilters, compFilters⟩) ::
      preorderAll (level + 1) compFilters

def preorderAll (level : Nat) : List CompFilter → List (Nat × CompFilter)
  | [] => []
  | f :: fs => preorder level f ++ preorderAll level fs

end

theorem preorderAll_eq_flatMap (level : Nat) (fs : List CompFilter) :
    preorderAll level fs = fs.flatMap (preorder level) := by
  induction fs with
  | nil => rfl
  | cons f fs ih => rw [preorderAll, ih, List.flatMap_cons]

theorem preorder_eq (level : Nat) (f : CompFilter) :
    f.preorder level = (level, f) :: f.compFilters.flatMap (preorder (level + 1)) := by
  obtain ⟨name, test, isNotDefined, timeRange, propFilters, compFilters⟩ := f
  rw [preorder, preorderAll_eq_flatMap]

theorem preorder_leaf {level : Nat} {f : CompFilter} (h : f.compFilters = []) :
    f.preorder level = [(level, f)] := by
  rw [preorder_eq, h, List.flatMap_nil]

/-- The kind that a node at some level describes: a calendar is of no kind, the name of a component
tells its kind, and all that stands inside a component describes alarms. -/
def kindAt (f : CompFilter) : Nat → Option ComponentKind
  | 0 => none
  | 1 => ComponentKind.ofComponent? f.name
  | _ + 2 => some .alarm

/-- The nodes of a kind, in preorder. -/
def nodesOf (kind : ComponentKind) (f : CompFilter) : List CompFilter :=
  ((f.preorder 0).filter fun node => node.2.kindAt node.1 = some kind).map Prod.snd

/-- The prop-filters of a node that the store cannot search by. -/
def unsearchable (x : FieldIndex) (f : CompFilter) : List PropFilter :=
  f.propFilters.filter (!·.searchable x)

def defers (x : FieldIndex) (f : CompFilter) : Bool := f.propFilters.any (!·.searchable x)

end CompFilter

/-- What a node of a kind leaves to be checked again. If the test is honoured, these are all of its
prop-filters where any one is enough, and the unsearchable ones where all are needed; in legacy mode
they are the unsearchable ones, any of which is enough. -/
structure Deferral.LeftBy (x : Planner) (kind : ComponentKind) (f : CompFilter) (d : Deferral) :
    Prop where
  kind : d.kind = kind
  any : x.mode = .honorTest → f.test = .any → d.test = .any ∧ d.filters = f.propFilters
  all : x.mode = .honorTest → f.test = .all → d.test = .all ∧ d.filters = f.unsearchable x.index
  legacy : x.mode = .legacyAnyOf → d.test = .any ∧ d.filters = f.unsearchable x.index

namespace Planner

variable {x : Planner} {f : CompFilter} {p : Plan}

/-- The group of a node that defers something. -/
def leaves (x : Planner) (kind : ComponentKind) (f : CompFilter) : Deferral :=
  match x.mode, f.test with
  | .honorTest, .any => ⟨kind, .any, f.propFilters⟩
  | .honorTest, .all => ⟨kind, .all, f.unsearchable x.index⟩
  | .legacyAnyOf, _ => ⟨kind, .any, f.unsearchable x.index⟩

/-- What a node leaves over is its own, with the test that its mode keeps. -/
theorem leftBy_leaves (x : Planner) (kind : ComponentKind) (f : CompFilter) :
    (x.leaves kind f).LeftBy x kind f := by
  unfold leaves
  cases hmode : x.mode with
  | honorTest =>
    cases htest : f.test with
    | any => exact ⟨rfl, by simp, by simp [htest], by simp [hmode]⟩
    | all => exact ⟨rfl, by simp [htest], by simp, by simp [hmode]⟩
  | legacyAnyOf => exact ⟨rfl, by simp [hmode], by simp [hmode], by simp⟩

theorem group_eq (x : Planner) (kind : ComponentKind) (f : CompFilter) :
    x.group kind f = if f.defers x.index then [x.leaves kind f] else [] := by
  have hrest : (f.unsearchable x.index).isEmpty = !f.defers x.index := by
    rw [CompFilter.unsearchable, CompFilter.defers, Bool.eq_iff_iff]
    simp
  unfold group leaves
  change (if (f.unsearchable x.index).isEmpty then _ else _) = _
  rw [hrest]
  cases f.defers x.index with
  | false => rfl
  | true => cases x.mode <;> cases f.test <;> rfl

theorem filter_group (own kind : ComponentKind) (f : CompFilter) :
    (x.group own f).filter (·.kind = kind) =
      ((if own = kind then [f] else []).filter (·.defers x.index)).map (x.leaves kind) := by
  have hkind : (x.leaves own f).kind = own := (leftBy_leaves x own f).kind
  rw [group_eq]
  by_cases hown : own = kind
  · subst hown
    cases hdefers : f.defers x.index <;> simp [hdefers, hkind]
  · cases hdefers : f.defers x.index <;> simp [hown, hkind]

/-- The groups of one kind below a component node, in the order of the nodes that leave them. -/
theorem filter_componentGroups (kind : ComponentKind) (f : CompFilter) :
    (x.componentGroups f).filter (·.kind = kind) =
      (((if ComponentKind.ofComponent? f.name = some kind then [f] else []) ++
        if kind = .alarm then f.compFilters else []).filter (·.defers x.index)).map
          (x.leaves kind) := by
  rw [componentGroups, List.filter_append, List.filter_append, List.map_append]
  congr 1
  · cases hname : ComponentKind.ofComponent? f.name with
    | none => simp
    | some own => simp [filter_group]
  · rw [List.filter_flatMap]
    simp only [filter_group]
    by_cases hkind : kind = .alarm
    · simp only [hkind, if_true]
      induction f.compFilters with
      | nil => rfl
      | cons g gs ih => rw [List.flatMap_cons, ih, ← List.map_append, ← List.filter_append]; rfl
    · simp [hkind, Ne.symm hkind]

/-- Nothing stands inside an alarm, so a valid filter has only its components and their alarms. -/
theorem nodesOf_valid (h : f.Valid x.index) (kind : ComponentKind) :
    f.nodesOf kind = f.compFilters.flatMap fun g =>
      (if ComponentKind.ofComponent? g.name = some kind then [g] else []) ++
        if kind = .alarm then g.compFilters else [] := by
  have halarms (g : CompFilter) (hg : g ∈ f.compFilters) :
      g.preorder 1 = (1, g) :: g.compFilters.map fun alarm => (2, alarm) := by
    rw [CompFilter.preorder_eq, List.map_eq_flatMap]
    congr 1
    exact List.flatMap_congr fun alarm halarm =>
      CompFilter.preorder_leaf ((h.components g hg).alarms alarm halarm).leaf
  have hcalendar : f.preorder 0 = (0, f) :: f.compFilters.flatMap fun g =>
      (1, g) :: g.compFilters.map fun alarm => (2, alarm) := by
    rw [CompFilter.preorder_eq]
    congr 1
    exact List.flatMap_congr halarms
  have hself : ¬f.kindAt 0 = some kind := by simp [CompFilter.kindAt]
  rw [CompFilter.nodesOf, hcalendar, List.filter_cons_of_neg (by simpa using hself),
    List.filter_flatMap, List.map_flatMap]
  refine List.flatMap_congr fun g _ => ?_
  rw [← List.singleton_append, List.filter_append, List.map_append]
  congr 1
  · by_cases hname : ComponentKind.ofComponent? g.name = some kind <;>
      simp [CompFilter.kindAt, hname]
  · by_cases hkind : kind = .alarm
    · simp [CompFilter.kindAt, hkind, List.filter_map, Function.comp_def]
    · simp [CompFilter.kindAt, hkind, Ne.symm hkind, List.filter_map, Function.comp_def]

theorem validConditions_of_mem_nodesOf (h : f.Valid x.index) {kind : ComponentKind} {g : CompFilter}
    (hg : g ∈ f.nodesOf kind) : g.ValidConditions x.index := by
  rw [nodesOf_valid h] at hg
  obtain ⟨component, hcomponent, hg⟩ := List.mem_flatMap.mp hg
  have hvalid := h.components component hcomponent
  obtain hg | hg := List.mem_append.mp hg
  · rw [List.mem_ite_nil_right, List.mem_singleton] at hg
    exact hg.2 ▸ hvalid.conditions
  · rw [List.mem_ite_nil_right] at hg
    exact (hvalid.alarms g hg.2).conditions

/-- The groups of a kind are those of its deferring nodes, in preorder. -/
theorem deferralsOf_eq (h : x.plan f = .ok p) (kind : ComponentKind) :
    p.deferralsOf kind = ((f.nodesOf kind).filter (·.defers x.index)).map (x.leaves kind) := by
  have hvalid : f.Valid x.index := verdict_plan.exists_ok_iff.mp ⟨p, h⟩
  rw [Plan.deferralsOf, deferred_plan h, nodesOf_valid hvalid, List.filter_flatMap,
    List.filter_flatMap, List.map_flatMap]
  exact List.flatMap_congr fun g _ => filter_componentGroups kind g

end Planner

/-- What a plan defers for a kind is, for the nodes of that kind in preorder, one group for each
that has a prop-filter which the store cannot search by, and that group is what the node leaves. The
store can search by a prop-filter exactly if its property and all of its parameters are indexed. -/
theorem deferralsOf_leftBy {x : Planner} {f : CompFilter} {plan : Plan} (h : x.plan f = .ok plan)
    (kind : ComponentKind) :
    List.Forall₂ (Deferral.LeftBy x kind) ((f.nodesOf kind).filter (·.defers x.index))
        (plan.deferralsOf kind) ∧
      ∀ g ∈ f.nodesOf kind, ∀ q ∈ g.propFilters,
        (q.searchable x.index = true ↔ q.Indexed x.index) ∧
          ∃ k, x.propCondition q = .ok k ∧ k.searchable = q.searchable x.index := by
  constructor
  · rw [Planner.deferralsOf_eq h, List.forall₂_map_right_iff, List.forall₂_same]
    exact fun g _ => Planner.leftBy_leaves x kind g
  · intro g hg q hq
    have hvalid : f.Valid x.index := Planner.verdict_plan.exists_ok_iff.mp ⟨plan, h⟩
    have hq : q.Valid x.index := (Planner.validConditions_of_mem_nodesOf hvalid hg).props q hq
    obtain ⟨k, hk⟩ := Planner.verdict_propCondition.exists_ok_iff.mpr hq
    exact ⟨PropFilter.searchable_iff, k, hk, (Planner.propCondition_means hk).searchable⟩

/-- Events with a summary or a comment and an alarm with a description and a trigger, to-dos with a
status, and events with a place and someone to contact. -/
def plannedWork : CompFilter where
  name := "VCALENDAR"
  compFilters := [
    { name := "VEVENT"
      propFilters := [{ name := "SUMMARY" }, { name := "COMMENT" }]
      compFilters := [{
        name := "VALARM"
        test := .all
        propFilters := [{ name := "DESCRIPTION" }, { name := "TRIGGER" }] }] },
    { name := "VTODO", propFilters := [{ name := "STATUS" }] },
    { name := "VEVENT"
      test := .all
      propFilters := [{ name := "LOCATION" }, { name := "CONTACT" }] }]

theorem deferralsOf_leftBy_plannedWork :
    ∃ plan, ({ index := .standard } : Planner).plan plannedWork = .ok plan ∧
      plan.deferralsOf .event = [⟨.event, .any, [{ name := "SUMMARY" }, { name := "COMMENT" }]⟩,
        ⟨.event, .all, [{ name := "CONTACT" }]⟩] ∧
      plan.deferralsOf .alarm = [⟨.alarm, .all, [{ name := "TRIGGER" }]⟩] ∧
      List.Forall₂ (Deferral.LeftBy { index := .standard } .event)
        ((plannedWork.nodesOf .event).filter (·.defers .standard)) (plan.deferralsOf .event) ∧
      ¬({ name := "CONTACT" } : PropFilter).Indexed .standard := by
  have hplan : ({ index := .standard } : Planner).plan plannedWork = .ok _ := rfl
  obtain ⟨hgroups, hindexed⟩ := deferralsOf_leftBy hplan .event
  have hcontact := (hindexed _ (.tail _ (.head _)) { name := "CONTACT" } (.tail _ (.head _))).1
  exact ⟨_, hplan, rfl, rfl, hgroups, hcontact.not.mp (by decide)⟩

end CalendarSearch
