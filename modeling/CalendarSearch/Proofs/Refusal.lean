import CalendarSearch.Proofs.Acceptance

/-! # How filters are refused

A filter that is not valid is refused with one and the same error by all planners that know the same
names, whatever their modes, their zones and the fields that their stores can search by. The error
tells a fault of the filter, and what it names is there. -/

namespace CalendarSearch

open Traversal

namespace Planner

variable {x y : Planner}

/-! ### Planners that know the same names -/

/-- Two readings fail with the same error, or both give answers. -/
abbrev FailAlike {α β : Type} (r : Except FilterError α) (s : Except FilterError β) : Prop :=
  Together (fun _ _ => True) r s

/-- Two passes over one list stop at the same element, with the same error. -/
theorem FailAlike.mapM {α β γ : Type} {f : α → Except FilterError β} {g : α → Except FilterError γ}
    {xs : List α} (h : ∀ a ∈ xs, FailAlike (f a) (g a)) : FailAlike (xs.mapM f) (xs.mapM g) :=
  (Together.mapM h).erase

/-- Reading a range uses the zone only to tag it, so planners that differ there fail alike. -/
theorem failAlike_readRange {r : RangeText} : FailAlike (x.readRange r) (y.readRange r) := by
  unfold readRange
  exact (Together.refl (TimeRange.parse r.start r.stop)).bind fun _ _ _ => .ok trivial

theorem failAlike_rangePart {p q : TimeRange → Predicate} {r : Option RangeText} :
    FailAlike (x.rangePart p r) (y.rangePart q r) := by
  cases r with
  | none => exact .ok trivial
  | some r => exact failAlike_readRange.bind fun _ _ _ => .ok trivial

theorem failAlike_paramCondition (h : x.index.SameNames y.index) {id : PropertyName}
    {f : ParamFilter} : FailAlike (x.paramCondition id f) (y.paramCondition id f) := by
  unfold paramCondition
  rw [h.param]
  split
  · rename_i param _
    cases f.textMatch with
    | none => exact .ok trivial
    | some text =>
      have htext := Together.refl (Predicate.paramText id param <$> textTest text)
      exact (htext.bind fun _ _ _ => .ok trivial).check
  · exact .error _

theorem failAlike_valueCondition {id : PropertyName} {f : PropFilter} :
    FailAlike (x.valueCondition id f) (y.valueCondition id f) := by
  unfold valueCondition
  split
  · exact .error _
  · split
    · exact failAlike_readRange.bind fun _ _ _ => .ok trivial
    · exact .error _
  · exact (Together.refl (textTest _)).bind fun _ _ _ => .ok trivial
  · exact .ok trivial

/-- A prop-filter is refused for what it says, whichever fields the index holds and whatever the
mode. -/
theorem failAlike_propCondition (h : x.index.SameNames y.index) {f : PropFilter} :
    FailAlike (x.propCondition f) (y.propCondition f) := by
  unfold propCondition
  rw [h.property]
  split
  · rename_i id _
    have hparams : FailAlike (f.paramFilters.mapM (x.paramCondition id))
        (f.paramFilters.mapM (y.paramCondition id)) :=
      .mapM fun _ _ => failAlike_paramCondition h
    exact (failAlike_valueCondition.bind fun _ _ _ => hparams.bind fun _ _ _ => .ok trivial).check
  · exact .error _

theorem failAlike_propConditions (h : x.index.SameNames y.index) {kind kind' : ComponentKind}
    {test : Junction} {fs : List PropFilter} :
    FailAlike (x.propConditions kind test fs) (y.propConditions kind' test fs) := by
  unfold propConditions
  exact (FailAlike.mapM fun f _ => (failAlike_propCondition h).bind fun _ _ _ =>
    .ok trivial).bind fun _ _ _ => .ok trivial

/-- The mode decides what is left over, after every prop-filter of the node has been read. -/
theorem failAlike_alarmNode (h : x.index.SameNames y.index) {f : CompFilter} :
    FailAlike (x.alarmNode f) (y.alarmNode f) := by
  unfold alarmNode
  rw [h.property]
  refine Together.check ?_
  split
  · exact .ok trivial
  · exact failAlike_rangePart.bind fun _ _ _ => (failAlike_propConditions h).bind fun _ _ _ =>
      (Together.ok trivial).check

theorem failAlike_componentNode (h : x.index.SameNames y.index) {f : CompFilter} :
    FailAlike (x.componentNode f) (y.componentNode f) := by
  unfold componentNode
  split
  · split
    · exact .ok trivial
    · have halarms : FailAlike (f.compFilters.mapM x.alarmNode) (f.compFilters.mapM y.alarmNode) :=
        .mapM fun _ _ => failAlike_alarmNode h
      exact failAlike_rangePart.bind fun _ _ _ => (failAlike_propConditions h).bind fun _ _ _ =>
        halarms.bind fun _ _ _ => .ok trivial
  · exact .error _

theorem failAlike_calendarNode (h : x.index.SameNames y.index) {f : CompFilter} :
    FailAlike (x.calendarNode f) (y.calendarNode f) := by
  unfold calendarNode
  refine Together.check (Together.check ?_)
  split
  · exact .ok trivial
  · have hcomponents : FailAlike (f.compFilters.mapM x.componentNode)
        (f.compFilters.mapM y.componentNode) :=
      .mapM fun _ _ => failAlike_componentNode h
    exact failAlike_rangePart.bind fun _ _ _ => hcomponents.bind fun _ _ _ => .ok trivial

/-- Planners over indexes with the same names refuse the same filters with the same errors. -/
theorem failAlike_plan (h : x.index.SameNames y.index) {f : CompFilter} :
    FailAlike (x.plan f) (y.plan f) := by
  unfold plan
  exact (failAlike_calendarNode h).bind fun _ _ _ => .ok trivial

end Planner

/-! ### What the errors tell -/

namespace TimeRange

/-- A bound is refused only as invalid, with a flaw that says why. -/
theorem parseBound_error {value : String} {e : FilterError}
    (h : parseBound value = .error e) : ∃ flaw, e = .invalid flaw := by
  unfold parseBound at h
  dsimp only at h
  split at h
  · split at h
    · cases h
    · cases h
      exact ⟨_, rfl⟩
  · cases h
    exact ⟨_, rfl⟩

theorem mapM_parseBound_error {value : Option String} {e : FilterError}
    (h : value.mapM parseBound = .error e) : ∃ flaw, e = .invalid flaw := by
  cases value with
  | none => cases h
  | some v =>
    obtain hv | ⟨t, -, ht⟩ := bind_eq_error.mp h
    · exact parseBound_error hv
    · cases ht

theorem ofBounds_error {start stop : Option Instant} {e : FilterError}
    (h : ofBounds start stop = .error e) : ∃ flaw, e = .invalid flaw := by
  unfold ofBounds at h
  split at h
  · cases h
    exact ⟨_, rfl⟩
  · split at h
    · cases h
      exact ⟨_, rfl⟩
    · cases h
  · cases h

theorem parse_error {start stop : Option String} {e : FilterError}
    (h : parse start stop = .error e) : ∃ flaw, e = .invalid flaw := by
  simp only [parse, bind_eq_error] at h
  obtain h | ⟨_, -, h | ⟨_, -, h⟩⟩ := h
  · exact mapM_parseBound_error h
  · exact mapM_parseBound_error h
  · exact ofBounds_error h

end TimeRange

namespace FilterError

variable {x : FieldIndex} {f : CompFilter} {e : FilterError}

theorem foundIn_of_range {r : RangeText} (h : TimeRange.parse r.start r.stop = .error e) :
    e.FoundIn x f := by
  obtain ⟨flaw, rfl⟩ := TimeRange.parse_error h
  trivial

theorem foundIn_of_text {g : PropFilter} {t : TextMatch} (hg : g ∈ f.searchedProps)
    (ht : t ∈ g.texts) (h : ¬t.Supported) :
    (unsupportedCollation t.collation).FoundIn x f :=
  ⟨not_or.mp h, g, hg, t, ht, rfl⟩

/-- A fault of a param-filter is found under the prop-filter that the param-filter belongs to. -/
theorem foundIn_of_param {g : PropFilter} {p : ParamFilter} (hg : g ∈ f.searchedProps)
    (hp : p ∈ g.paramFilters) (h : p.Fault x e) : e.FoundIn x f := by
  cases h with
  | unknown hname => exact ⟨hname, g, hg, p, hp, rfl⟩
  | undefined _ _ => trivial
  | text ht hs =>
    have hmem := List.mem_filterMap.mpr ⟨p, hp, ht⟩
    exact foundIn_of_text hg (List.mem_append_right _ hmem) hs

theorem foundIn_of_prop {g : PropFilter} (hg : g ∈ f.searchedProps) (h : g.Fault x e) :
    e.FoundIn x f := by
  cases h with
  | unknown hname => exact ⟨hname, g, hg, rfl⟩
  | undefined _ _ | double _ _ | untimed _ _ _ => trivial
  | range _ hr => exact foundIn_of_range hr
  | text ht hs => exact foundIn_of_text hg (List.mem_append_left _ (Option.mem_toList.mpr ht)) hs
  | param hp he => exact foundIn_of_param hg hp he

/-- The conditions of a node are its range and its prop-filters; each fault lies in one of them. -/
theorem foundIn_of_conditions {node : CompFilter}
    (hsub : ∀ g ∈ node.propFilters, g ∈ f.searchedProps) (h : node.ConditionFault x e) :
    e.FoundIn x f := by
  cases h with
  | range _ hr => exact foundIn_of_range hr
  | prop hg he => exact foundIn_of_prop (hsub _ hg) he

theorem foundIn_of_alarm {component alarm : CompFilter} (hc : component ∈ f.compFilters)
    (ha : alarm ∈ component.compFilters) (h : alarm.AlarmFault x e) : e.FoundIn x f := by
  cases h with
  | name _ => trivial
  | conditions h =>
    refine foundIn_of_conditions (fun g hg => ?_) h
    exact List.mem_flatMap.mpr ⟨component, hc,
      List.mem_append_right _ (List.mem_flatMap.mpr ⟨alarm, ha, hg⟩)⟩
  | deep hd => exact ⟨rfl, component, hc, alarm, ha, hd⟩

theorem foundIn_of_component {component : CompFilter} (hc : component ∈ f.compFilters)
    (h : component.ComponentFault x e) : e.FoundIn x f := by
  cases h with
  | name _ => trivial
  | conditions h =>
    refine foundIn_of_conditions (fun g hg => ?_) h
    exact List.mem_flatMap.mpr ⟨component, hc, List.mem_append_left _ hg⟩
  | alarm ha he => exact foundIn_of_alarm hc ha he

/-- What the planner refuses a filter for can be pointed at in the filter. -/
theorem foundIn_of_fault (h : f.Fault x e) : e.FoundIn x f := by
  cases h with
  | name _ | undefined _ => trivial
  | range _ hr => exact foundIn_of_range hr
  | component hc he => exact foundIn_of_component hc he

end FilterError

/-- A filter is accepted if it is valid, by every planner that knows the same names. One that is not
valid is refused by all of them with one and the same error, which tells a fault of it. -/
theorem plan_iff_valid (index : FieldIndex) (f : CompFilter) :
    (∀ x : Planner, x.index.SameNames index → ((∃ plan, x.plan f = .ok plan) ↔ f.Valid index)) ∧
      (¬f.Valid index → ∃ e, f.Fault index e ∧ e.FoundIn index f ∧
        ∀ x : Planner, x.index.SameNames index → x.plan f = .error e) := by
  have hverdict : Verdict (f.Valid index) (f.Fault index) (({ index } : Planner).plan f) :=
    Planner.verdict_plan (x := { index })
  have halike (x : Planner) (h : x.index.SameNames index) :
      Planner.FailAlike (x.plan f) (({ index } : Planner).plan f) := Planner.failAlike_plan h
  refine ⟨fun x h => (halike x h).exists_ok_iff.trans hverdict.exists_ok_iff, fun hinvalid => ?_⟩
  cases hplan : ({ index } : Planner).plan f with
  | ok plan => exact (hinvalid (hverdict.exists_ok_iff.mp ⟨plan, hplan⟩)).elim
  | error e =>
    rw [hplan] at hverdict
    have hfault := hverdict.fault_of_error
    exact ⟨e, hfault, FilterError.foundIn_of_fault hfault,
      fun x h => ((halike x h).error_iff e).mpr hplan⟩

/-- To-dos with an alarm that has a parameter of a name that is not supported. -/
def flaggedTodos : CompFilter where
  name := "VCALENDAR"
  compFilters := [{
    name := "vtodo"
    propFilters := [{ name := "COMMENT", isNotDefined := true }]
    compFilters := [{
      name := "VALARM"
      propFilters := [{
        name := "TRIGGER"
        paramFilters := [{ name := "RELATED" }, { name := "X-FLAG" }] }] }] }]

theorem plan_iff_valid_flaggedTodos :
    ¬flaggedTodos.Valid .standard ∧ ∀ x : Planner, x.index.SameNames .standard →
      x.plan flaggedTodos = .error (.unknownParameter "X-FLAG") := by
  have hsame : FieldIndex.standard.SameNames .standard := ⟨rfl, rfl⟩
  have hplan : ({ index := .standard } : Planner).plan flaggedTodos =
      .error (.unknownParameter "X-FLAG") := rfl
  obtain ⟨haccept, hrefuse⟩ := plan_iff_valid .standard flaggedTodos
  have hinvalid : ¬flaggedTodos.Valid .standard := by
    intro hvalid
    obtain ⟨plan, hok⟩ := (haccept { index := .standard } hsame).mpr hvalid
    cases hplan.symm.trans hok
  refine ⟨hinvalid, fun x hx => ?_⟩
  obtain ⟨e, -, -, he⟩ := hrefuse hinvalid
  cases hplan.symm.trans (he { index := .standard } hsame)
  exact he x hx

end CalendarSearch
