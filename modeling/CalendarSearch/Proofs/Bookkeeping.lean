import CalendarSearch.Proofs.Exactness
import CalendarSearch.Proofs.Stripping

/-! # The books of a plan

A plan keeps its predicates apart from what was deferred and from the kinds that the filter names.
They always agree: something is to be checked again exactly where something was deferred, what was
deferred belongs to a kind that is named, and there is a residual, where the tests are honoured,
exactly if there is something to check again. -/

namespace CalendarSearch

open Traversal

namespace Planner

variable {x : Planner}

/-! ### What a node enters -/

/-- What a node defers belongs to a kind that it names, and is of the form that the mode asks for. A
node that defers nothing is exact, and in legacy mode every node counts as exact. -/
structure Enters (mode : RecheckMode) (n : NodePlan) : Prop where
  named : ∀ d ∈ n.deferred, d.kind ∈ n.named
  test : mode = .legacyAnyOf → ∀ d ∈ n.deferred, d.test = .any
  exact : mode = .legacyAnyOf ∨ n.deferred = [] → n.relaxation.exact = true

theorem kind_of_mem_divide {mode : RecheckMode} {kind : ComponentKind} {test : Junction}
    {cs : List (PropFilter × Condition)} {d : Deferral} (h : d ∈ (divide mode kind test cs).2) :
    d.kind = kind := by
  unfold divide at h
  dsimp only at h
  split at h
  · cases h
  · cases mode <;> cases test <;> simp only [List.mem_singleton] at h <;> rw [h]

theorem test_of_mem_divide {kind : ComponentKind} {test : Junction}
    {cs : List (PropFilter × Condition)} {d : Deferral}
    (h : d ∈ (divide .legacyAnyOf kind test cs).2) : d.test = .any := by
  unfold divide at h
  dsimp only at h
  split at h
  · cases h
  · rw [List.mem_singleton.mp h]

/-- A node is exact in legacy mode, and in the other where it defers nothing. -/
theorem exact_divide_of {mode : RecheckMode} {kind : ComponentKind} {test : Junction}
    {cs : List (PropFilter × Condition)}
    (h : mode = .legacyAnyOf ∨ (divide mode kind test cs).2 = []) :
    (divide mode kind test cs).1.exact = true := by
  cases mode with
  | honorTest => rw [exact_divide, h.resolve_left (by decide), List.isEmpty_nil]
  | legacyAnyOf => exact exact_divide_legacy kind test cs

/-- The nodes inside a node, taken together. -/
theorem Enters.inner {mode : RecheckMode} {children : List NodePlan}
    (h : ∀ n ∈ children, Enters mode n) (test : Junction) : Enters mode {
      relaxation := Planner.inner test children
      named := children.flatMap NodePlan.named
      deferred := children.flatMap NodePlan.deferred } where
  named d hd := by
    obtain ⟨n, hn, hd⟩ := List.mem_flatMap.mp hd
    exact List.mem_flatMap.mpr ⟨n, hn, (h n hn).named d hd⟩
  test hmode d hd := by
    obtain ⟨n, hn, hd⟩ := List.mem_flatMap.mp hd
    exact (h n hn).test hmode d hd
  exact he := by
    have hall : ∀ n ∈ children, n.relaxation.exact = true := fun n hn =>
      (h n hn).exact (he.imp_right fun hnil => List.flatMap_eq_nil_iff.mp hnil n hn)
    cases test <;> simpa [Planner.inner, Relaxation.ofParts, Relaxation.meet, Relaxation.join]

theorem enters_alarmNode {f : CompFilter} {n : NodePlan} (h : x.alarmNode f = .ok n) :
    Enters x.mode n := by
  obtain ⟨-, -, range, cs, hrange, -, rfl⟩ := alarmNode_eq_ok.mp h
  constructor
  · intro d hd
    exact List.mem_singleton.mpr (kind_of_mem_divide hd)
  · intro hmode d hd
    rw [assembleAlarm, hmode] at hd
    exact test_of_mem_divide hd
  · intro he
    have hdivide := exact_divide_of he
    rw [assembleAlarm, exact_undefine]
    simp [Relaxation.onOneAlarm, Relaxation.meet, all_exact_rangePart hrange, hdivide]

theorem enters_componentNode {f : CompFilter} {n : NodePlan} (h : x.componentNode f = .ok n) :
    Enters x.mode n := by
  obtain ⟨kind, range, cs, alarms, -, hrange, -, halarms, rfl⟩ := componentNode_eq_ok.mp h
  have hinner := Enters.inner
    (forall_mem_right halarms fun _ _ _ hn => enters_alarmNode hn) f.test
  constructor
  · refine List.forall_mem_append.mpr ⟨fun d hd => ?_, fun d hd => ?_⟩
    · rw [kind_of_mem_divide hd]
      exact List.mem_cons_self
    · exact List.mem_cons_of_mem kind (hinner.named d hd)
  · intro hmode
    refine List.forall_mem_append.mpr ⟨fun d hd => ?_, hinner.test hmode⟩
    rw [hmode] at hd
    exact test_of_mem_divide hd
  · intro he
    have hdivide := exact_divide_of (he.imp_right fun hnil => (List.append_eq_nil_iff.mp hnil).1)
    have halarms : (inner f.test alarms).exact = true :=
      hinner.exact (he.imp_right fun hnil => (List.append_eq_nil_iff.mp hnil).2)
    rw [assembleComponent, exact_undefine]
    simp [Relaxation.meet, Relaxation.ofPredicate, all_exact_rangePart hrange, hdivide, halarms]

/-- Exactness and deferrals of the root are those of its nodes together. -/
theorem enters_calendarNode {f : CompFilter} {n : NodePlan} (h : x.calendarNode f = .ok n) :
    Enters x.mode n := by
  obtain ⟨-, -, range, components, hrange, hcomponents, rfl⟩ := calendarNode_eq_ok.mp h
  have hinner := Enters.inner
    (forall_mem_right hcomponents fun _ _ _ hn => enters_componentNode hn) f.test
  refine ⟨hinner.named, hinner.test, fun he => ?_⟩
  have hcomponents : (inner f.test components).exact = true := hinner.exact he
  rw [assembleCalendar]
  simp [Relaxation.meet, all_exact_rangePart hrange, hcomponents]

/-! ### What a node leaves to search by -/

theorem isSome_coarse_undefine {r : Relaxation} (isNotDefined : Bool) (he : r.exact = true)
    (h : r.coarse.isSome = true) : (undefine isNotDefined r).coarse.isSome = true := by
  cases isNotDefined with
  | false => exact h
  | true => simpa [undefine, Relaxation.opposite, he] using h

/-- A component node that is exact keeps at least its kind to search by. -/
theorem isSome_coarse_componentNode {f : CompFilter} {n : NodePlan}
    (h : x.componentNode f = .ok n) (he : n.relaxation.exact = true) :
    n.relaxation.coarse.isSome = true := by
  obtain ⟨kind, range, cs, alarms, -, -, -, -, rfl⟩ := componentNode_eq_ok.mp h
  rw [assembleComponent, exact_undefine] at he
  refine isSome_coarse_undefine _ he ?_
  rw [Relaxation.meet, Predicate.isSome_conjoin]
  rfl

theorem isSome_coarse_rangePart {predicate : TimeRange → Predicate} {r : Option RangeText}
    {parts : List Relaxation} (h : x.rangePart predicate r = .ok parts) :
    (parts.any fun q => q.coarse.isSome) = r.isSome := by
  rcases rangePart_eq_ok.mp h with ⟨rfl, rfl⟩ | ⟨t, range, rfl, -, rfl⟩
  · rfl
  · rfl

theorem deferred_calendarNode {f : CompFilter} {n : NodePlan} (h : x.calendarNode f = .ok n)
    (hcs : f.compFilters = []) : n.deferred = [] := by
  obtain ⟨-, -, range, components, -, hcomponents, rfl⟩ := calendarNode_eq_ok.mp h
  rw [hcs, List.forall₂_nil_left_iff] at hcomponents
  rw [hcomponents]
  rfl

/-- A calendar node that defers nothing leaves as much to search by as it asks for: each of its
components is exact then, and leaves at least its kind. -/
theorem isSome_coarse_calendarNode {f : CompFilter} {n : NodePlan} (h : x.calendarNode f = .ok n)
    (hd : n.deferred = []) :
    n.relaxation.coarse.isSome = (f.timeRange.isSome || !f.compFilters.isEmpty) := by
  obtain ⟨-, -, range, components, hrange, hcomponents, rfl⟩ := calendarNode_eq_ok.mp h
  have hnil : ∀ c ∈ components, c.deferred = [] := List.flatMap_eq_nil_iff.mp hd
  have hread : ∀ c ∈ components, ∃ g, x.componentNode g = .ok c :=
    forall_mem_right hcomponents fun g _ c hc => ⟨g, hc⟩
  have hsome : ∀ r ∈ components.map NodePlan.relaxation, r.coarse.isSome = true := by
    refine List.forall_mem_map.mpr fun c hc => ?_
    obtain ⟨g, hg⟩ := hread c hc
    exact isSome_coarse_componentNode hg ((enters_componentNode hg).exact (.inr (hnil c hc)))
  rw [assembleCalendar, Relaxation.isSome_coarse_meet, List.any_append,
    isSome_coarse_rangePart hrange, List.any_cons, List.any_nil, Bool.or_false, inner,
    Relaxation.isSome_coarse_ofParts _ hsome, List.isEmpty_map, isEmpty_eq_isEmpty hcomponents]

end Planner

namespace Plan

/-! ### What was deferred, kind by kind -/

variable {p : Plan} {kind : ComponentKind} {groups : List Deferral}

/-- Each kind is listed with all its groups, and only if it has some. -/
theorem mem_deferralsByKind : (kind, groups) ∈ p.deferralsByKind ↔
    groups = p.deferralsOf kind ∧ groups ≠ [] := by
  simp only [deferralsByKind, List.mem_filter, List.mem_map, Prod.mk.injEq, Bool.not_eq_true',
    List.isEmpty_eq_false_iff]
  constructor
  · rintro ⟨⟨_, -, rfl, rfl⟩, hne⟩
    exact ⟨rfl, hne⟩
  · rintro ⟨rfl, hne⟩
    exact ⟨⟨kind, kind.mem_all, rfl, rfl⟩, hne⟩

theorem deferralsByKind_eq_nil : p.deferralsByKind = [] ↔ p.deferred = [] := by
  constructor
  · intro h
    refine List.eq_nil_iff_forall_not_mem.mpr fun d hd => ?_
    have hmem : d ∈ p.deferralsOf d.kind := List.mem_filter.mpr ⟨hd, by simp⟩
    have hkey : (d.kind, p.deferralsOf d.kind) ∈ p.deferralsByKind :=
      mem_deferralsByKind.mpr ⟨rfl, List.ne_nil_of_mem hmem⟩
    rw [h] at hkey
    cases hkey
  · intro h
    refine List.eq_nil_iff_forall_not_mem.mpr fun ⟨kind, groups⟩ hmem => ?_
    obtain ⟨rfl, hne⟩ := mem_deferralsByKind.mp hmem
    exact hne (by rw [deferralsOf, h, List.filter_nil])

theorem nodup_deferralsByKind : (p.deferralsByKind.map Prod.fst).Nodup := by
  have hkeys : (ComponentKind.all.map fun kind => (kind, p.deferralsOf kind)).map Prod.fst =
      ComponentKind.all := by rw [List.map_map]; exact List.map_id' _
  have hsub : (p.deferralsByKind.map Prod.fst).Sublist ComponentKind.all :=
    hkeys ▸ List.filter_sublist.map Prod.fst
  exact hsub.nodup (by decide)

/-- The books of the plan agree with one another. That every kind has one entry (`keys`), with a
group in it, holds by the way the groups are kept, in one list; all else is the work of planning. -/
structure Coherent (p : Plan) : Prop where
  recheck : p.recheck = true ↔ p.deferralsByKind ≠ []
  keys : (p.deferralsByKind.map Prod.fst).Nodup
  groups : ∀ entry ∈ p.deferralsByKind, entry.1 ∈ p.kinds ∧ entry.2 ≠ [] ∧
    ∀ d ∈ entry.2, d.filters ≠ []
  honorTest : p.mode = .honorTest → (p.residual.isSome = true ↔ p.recheck = true)
  legacyAnyOf : p.mode = .legacyAnyOf → p.residual = none ∧
    ∀ entry ∈ p.deferralsByKind, ∀ d ∈ entry.2, d.test = .any

variable {x : Planner} {f : CompFilter}

theorem coherent_plan (h : x.plan f = .ok p) : p.Coherent := by
  have hreadable := Planner.readable_plan h
  have hmode := Planner.mode_plan h
  have hrecheck := Planner.recheck_plan h
  have hhonours := fun hx => Planner.honours_plan hx h
  obtain ⟨n, hn, rfl⟩ := Planner.plan_eq_ok.mp h
  have henters := Planner.enters_calendarNode hn
  constructor
  · rw [hrecheck, Ne, deferralsByKind_eq_nil]
    simp
  · exact nodup_deferralsByKind
  · rintro ⟨kind, groups⟩ hentry
    obtain ⟨rfl, hne⟩ := mem_deferralsByKind.mp hentry
    obtain ⟨d, hd⟩ := List.exists_mem_of_ne_nil _ hne
    obtain ⟨hd, hkind⟩ := List.mem_filter.mp hd
    have hnamed : kind ∈ n.named := of_decide_eq_true hkind ▸ henters.named d hd
    refine ⟨List.mem_filter.mpr ⟨kind.mem_all, decide_eq_true hnamed⟩, hne, fun d hd => ?_⟩
    exact (hreadable d (List.mem_of_mem_filter hd)).nonempty
  · intro hhonor
    rw [(hhonours (hmode.symm.trans hhonor)).residual]
  · intro hlegacy
    have hx : x.mode = .legacyAnyOf := hmode.symm.trans hlegacy
    constructor
    · exact if_pos (henters.exact (.inl hx))
    · rintro ⟨kind, groups⟩ hentry d hd
      obtain ⟨rfl, -⟩ := mem_deferralsByKind.mp hentry
      exact henters.test hx d (List.mem_of_mem_filter hd)

/-- A plan selects every resource exactly if the calendar node asks neither for a time range nor for
components. -/
theorem selectsAll_plan (h : x.plan f = .ok p) :
    p.selectsAll = true ↔ f.timeRange = none ∧ f.compFilters = [] := by
  obtain ⟨n, hn, rfl⟩ := Planner.plan_eq_ok.mp h
  constructor
  · intro hall
    obtain ⟨hroot, hd⟩ : n.relaxation.coarse = none ∧ n.deferred = [] := by
      simpa [selectsAll] using hall
    have hsome := Planner.isSome_coarse_calendarNode hn hd
    rw [hroot] at hsome
    simpa using hsome.symm
  · rintro ⟨htime, hcs⟩
    have hd := Planner.deferred_calendarNode hn hcs
    have hroot : n.relaxation.coarse = none := by
      simpa [htime, hcs] using Planner.isSome_coarse_calendarNode hn hd
    simp [selectsAll, hroot, hd]

end Plan

/-- The books of every plan agree with one another. A plan selects every resource exactly if the
calendar node asks neither for a time range nor for components, and a search then finds all that is
in the scope. -/
theorem plan_books_agree {index : FieldIndex} {settings : Settings} {f : CompFilter} {plan : Plan}
    (h : (settings.planner index).plan f = .ok plan) :
    plan.mode = settings.mode ∧ plan.Coherent ∧
      (plan.selectsAll = true ↔ f.timeRange = none ∧ f.compFilters = []) ∧
      (plan.selectsAll = true → ∀ rs scope, Snapshot.missing rs scope = none →
        search (Snapshot.answer rs) index settings f scope =
          .ok (rs.filter fun r => scope.admits r.collection)) := by
  refine ⟨Planner.mode_plan h, Plan.coherent_plan h, Plan.selectsAll_plan h, ?_⟩
  intro hall rs scope hscope
  obtain ⟨hroot, hrecheck⟩ : plan.root = none ∧ plan.recheck = false := by
    simpa [Plan.selectsAll] using hall
  simp [search, h, Snapshot.answer_full hscope, Plan.refine, hroot, hrecheck]

/-- All that a calendar holds; prop-filters of the calendar itself are not looked at. -/
def wholeCalendar : CompFilter where
  name := "VCALENDAR"
  propFilters := [{ name := "COMMENT" }]

theorem plan_books_agree_wholeCalendar :
    ((({} : Settings).planner .standard).plan quietEvents = .ok quietPlan ∧
      quietPlan.deferralsByKind ≠ [] ∧ quietPlan.residual.isSome = true) ∧
    ((({ mode := .legacyAnyOf } : Settings).planner .standard).plan wholeCalendar =
        .ok { mode := .legacyAnyOf } ∧
      Snapshot.missing [bareTodo, bareEvent] { collections := ["/work/"] } = none ∧
      search (Snapshot.answer [bareTodo, bareEvent]) .standard { mode := .legacyAnyOf }
        wholeCalendar { collections := ["/work/"] } = .ok [bareTodo, bareEvent]) := by
  have hquiet : (({} : Settings).planner .standard).plan quietEvents = .ok quietPlan := rfl
  have hwhole : (({ mode := .legacyAnyOf } : Settings).planner .standard).plan wholeCalendar =
      .ok { mode := .legacyAnyOf } := rfl
  obtain ⟨-, hbooks, -⟩ := plan_books_agree hquiet
  obtain ⟨-, -, -, hall⟩ := plan_books_agree hwhole
  exact ⟨⟨hquiet, hbooks.recheck.mp rfl, (hbooks.honorTest rfl).mpr rfl⟩,
    hwhole, rfl, (hall rfl _ _ rfl).trans rfl⟩

end CalendarSearch
