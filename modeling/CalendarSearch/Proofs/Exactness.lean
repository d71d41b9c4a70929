import CalendarSearch.Proofs.Nodes
import CalendarSearch.Search

/-! # Searches that honour the tests are exact

Every node of such a plan is a sound relaxation of its filter, and exact unless it defers something.
The complete predicate of the plan therefore has the meaning of the filter, and the root leaves out
nothing that satisfies it: whatever else a store returns is left out by the second check. -/

namespace CalendarSearch

open Traversal
open Predicate (evalOptional)

namespace Planner

variable {x : Planner}

/-! ### Nodes that honour the tests -/

/-- A node that honours the tests is a sound relaxation, and exact unless something is deferred. -/
structure Honours (n : NodePlan) : Prop where
  sound : n.relaxation.Sound
  exact_eq : n.relaxation.exact = n.deferred.isEmpty

theorem sound_undefine {r : Relaxation} (h : r.Sound) (isNotDefined : Bool) :
    (undefine isNotDefined r).Sound := by
  cases isNotDefined with
  | false => exact h
  | true => exact h.opposite

theorem exact_undefine (isNotDefined : Bool) (r : Relaxation) :
    (undefine isNotDefined r).exact = r.exact := by
  cases isNotDefined <;> rfl

theorem sound_inner {children : List NodePlan} (h : ∀ n ∈ children, Honours n) (test : Junction) :
    (inner test children).Sound := by
  refine Relaxation.Sound.ofParts _ fun r hr => ?_
  obtain ⟨n, hn, rfl⟩ := List.mem_map.mp hr
  exact (h n hn).sound

/-- A node is exact when nothing was deferred below it. -/
theorem exact_inner {children : List NodePlan} (h : ∀ n ∈ children, Honours n) (test : Junction) :
    (inner test children).exact = (children.flatMap NodePlan.deferred).isEmpty := by
  have hall : (inner test children).exact =
      children.all fun n => n.relaxation.exact := by
    cases test <;> exact List.all_map
  rw [hall, Bool.eq_iff_iff, List.isEmpty_iff, List.flatMap_eq_nil_iff, List.all_eq_true]
  exact forall₂_congr fun n hn => by rw [(h n hn).exact_eq, List.isEmpty_iff]

theorem honours_alarmNode (hx : x.mode = .honorTest) {f : CompFilter} {n : NodePlan}
    (h : x.alarmNode f = .ok n) : Honours n := by
  obtain ⟨-, -, range, cs, hrange, -, rfl⟩ := alarmNode_eq_ok.mp h
  constructor
  · rw [assembleAlarm, hx]
    refine sound_undefine (Relaxation.Sound.meet ?_).onOneAlarm _
    exact List.forall_mem_append.mpr ⟨sound_rangePart hrange,
      List.forall_mem_singleton.mpr (sound_divide .alarm f.test cs)⟩
  · rw [assembleAlarm, hx, exact_undefine, ← exact_divide]
    simp [Relaxation.onOneAlarm, Relaxation.meet, all_exact_rangePart hrange]

theorem honours_componentNode (hx : x.mode = .honorTest) {f : CompFilter} {n : NodePlan}
    (h : x.componentNode f = .ok n) : Honours n := by
  obtain ⟨kind, range, cs, alarms, -, hrange, -, halarms, rfl⟩ := componentNode_eq_ok.mp h
  have hinner : ∀ n ∈ alarms, Honours n :=
    forall_mem_right halarms fun _ _ _ hn => honours_alarmNode hx hn
  constructor
  · rw [assembleComponent, hx]
    refine sound_undefine (Relaxation.Sound.meet ?_) _
    exact List.forall_mem_append.mpr ⟨List.forall_mem_cons.mpr
      ⟨.ofPredicate _, sound_rangePart hrange⟩, List.forall_mem_cons.mpr
        ⟨sound_divide kind f.test cs, List.forall_mem_singleton.mpr (sound_inner hinner f.test)⟩⟩
  · have happend (ds es : List Deferral) : (ds ++ es).isEmpty = (ds.isEmpty && es.isEmpty) := by
      cases ds <;> rfl
    rw [assembleComponent, hx, exact_undefine, happend, ← exact_divide, ← exact_inner hinner f.test]
    simp [Relaxation.meet, Relaxation.ofPredicate, all_exact_rangePart hrange]

theorem honours_calendarNode (hx : x.mode = .honorTest) {f : CompFilter} {n : NodePlan}
    (h : x.calendarNode f = .ok n) : Honours n := by
  obtain ⟨-, -, range, components, hrange, hcomponents, rfl⟩ := calendarNode_eq_ok.mp h
  have hinner : ∀ n ∈ components, Honours n :=
    forall_mem_right hcomponents fun _ _ _ hn => honours_componentNode hx hn
  constructor
  · refine Relaxation.Sound.meet ?_
    exact List.forall_mem_append.mpr ⟨sound_rangePart hrange,
      List.forall_mem_singleton.mpr (sound_inner hinner f.test)⟩
  · rw [assembleCalendar, ← exact_inner hinner f.test]
    simp [Relaxation.meet, all_exact_rangePart hrange]

theorem isSome_calendarNode {f : CompFilter} {n : NodePlan} (h : x.calendarNode f = .ok n)
    (hd : n.deferred.isEmpty = false) : n.relaxation.full.isSome = true := by
  obtain ⟨-, -, range, components, -, hcomponents, rfl⟩ := calendarNode_eq_ok.mp h
  have hsome : ∀ r ∈ components.map NodePlan.relaxation, r.full.isSome = true := by
    refine List.forall_mem_map.mpr (forall_mem_right hcomponents fun _ _ n hn => ?_)
    obtain ⟨kind, range, cs, alarms, -, -, -, -, rfl⟩ := componentNode_eq_ok.mp hn
    exact isSome_assembleComponent _ _ _ _ _
  have hinner : (inner f.test components).full.isSome = true := by
    rw [inner, Relaxation.isSome_full_ofParts _ hsome, List.isEmpty_map]
    cases components with
    | nil => cases hd
    | cons n ns => rfl
  rw [assembleCalendar, Relaxation.isSome_full_meet, List.any_append]
  simp [hinner]

end Planner

/-! ### Plans that honour the tests -/

/-- The complete predicate of a plan: the residual, or the root where there is none. -/
def Plan.complete (p : Plan) : Option Predicate := p.residual.or p.root

/-- A plan whose complete predicate has a given meaning, and whose root is no stronger. -/
structure Plan.Honours (p : Plan) (holds : Component → Bool) : Prop where
  mode : p.mode = .honorTest
  recheck : p.recheck = !p.deferred.isEmpty
  residual : p.recheck = p.residual.isSome
  complete : ∀ c, evalOptional none c p.complete = holds c
  root : ∀ c, holds c = true → evalOptional none c p.root = true

/-- The plan of a filter, where the test is honoured, stands for the meaning of the filter. -/
theorem Planner.honours_plan {x : Planner} (hx : x.mode = .honorTest) {f : CompFilter} {p : Plan}
    (h : x.plan f = .ok p) : p.Honours (CompFilter.holdsOfCalendar x.index · f) := by
  obtain ⟨n, hn, rfl⟩ := plan_eq_ok.mp h
  have hon := honours_calendarNode hx hn
  have heval := eval_calendarNode hn
  cases hd : n.deferred.isEmpty with
  | true =>
    have he : n.relaxation.exact = true := hon.exact_eq.trans hd
    have hsame := hon.sound.same he
    exact {
      mode := hx
      recheck := by simp [hd]
      residual := by simp [he]
      complete := fun c => by simp [Plan.complete, he, hsame, heval]
      root := fun c hc => by simp [hsame, heval, hc] }
  | false =>
    have he : n.relaxation.exact = false := hon.exact_eq.trans hd
    have hsome := isSome_calendarNode hn hd
    have hcomplete : n.relaxation.full.or n.relaxation.coarse = n.relaxation.full :=
      Option.or_of_isSome hsome
    exact {
      mode := hx
      recheck := by simp [hd]
      residual := by simp [he, hsome]
      complete := fun c => by simp [Plan.complete, he, hcomplete, heval]
      root := fun c hc => hon.sound.implied none c (by rw [heval, hc]) }

namespace Plan.Honours

variable {p : Plan} {holds : Component → Bool}

/-- Refining filters by what the plan stands for, and leaves the results alone when nothing was
deferred. -/
theorem refine_eq (h : p.Honours holds) (index : FieldIndex) (settings : Settings)
    (found : List Resource) :
    p.refine index settings found = .ok (if p.recheck then
      found.filter fun r => settings.allows r && holds r.component else found) := by
  unfold Plan.refine
  split
  · rename_i hr
    obtain ⟨q, hq⟩ := Option.isSome_iff_exists.mp (h.residual.symm.trans hr)
    have hcheck (r : Resource) : p.residual.all (·.selects r) = holds r.component := by
      rw [← h.complete, Plan.complete, hq]
      rfl
    simp only [Plan.check, h.mode, hcheck]
  · rfl

/-- Where nothing is checked again, the root alone has the meaning. -/
theorem root_eq (h : p.Honours holds) (hr : p.recheck = false) (c : Component) :
    evalOptional none c p.root = holds c := by
  have hnone : p.residual = none := by simpa [hr] using h.residual
  rw [← h.complete c, Plan.complete, hnone, Option.none_or]

end Plan.Honours

/-! ### Whole searches -/

theorem Snapshot.answer_full {rs : List Resource} {scope : Scope}
    (h : Snapshot.missing rs scope = none) (q : Option Predicate) :
    Snapshot.answer rs q scope .full = .ok (rs.filter fun r =>
      scope.admits r.collection && evalOptional none r.component q) := by
  have hmap (l : List Resource) : l.map Detail.full.apply = l := List.map_id' l
  simp only [Snapshot.answer, h, hmap]
  rfl

/-- A search that honours the tests finds, in the order of the snapshot, the resources in the scope
that satisfy the filter. The container matters only where something was deferred. -/
theorem search_honorTest {index : FieldIndex} {settings : Settings} {f : CompFilter} {plan : Plan}
    {rs : List Resource} {scope : Scope} (hmode : settings.mode = .honorTest)
    (hplan : (settings.planner index).plan f = .ok plan)
    (hscope : Snapshot.missing rs scope = none) :
    search (Snapshot.answer rs) index settings f scope = .ok (rs.filter fun r =>
      scope.admits r.collection && f.holdsOfCalendar index r.component &&
        (plan.deferred.isEmpty || settings.allows r)) := by
  have hon : plan.Honours (CompFilter.holdsOfCalendar index · f) :=
    Planner.honours_plan (x := settings.planner index) hmode hplan
  simp only [search, hplan, Snapshot.answer_full hscope, hon.refine_eq]
  congr 1
  cases hr : plan.recheck with
  | true =>
    have hempty : plan.deferred.isEmpty = false := by simpa [hr] using hon.recheck
    rw [if_pos rfl, List.filter_filter]
    refine List.filter_congr fun r _ => ?_
    cases hh : f.holdsOfCalendar index r.component with
    | true => simp [hempty, hon.root r.component hh, Bool.and_comm]
    | false => simp
  | false =>
    have hempty : plan.deferred.isEmpty = true := by simpa [hr] using hon.recheck
    rw [if_neg (by decide)]
    refine List.filter_congr fun r _ => ?_
    rw [hon.root_eq hr, hempty, Bool.true_or, Bool.and_true]

/-- Events with a summary or a comment, none of whose alarms has a trigger. -/
def quietEvents : CompFilter where
  name := "vcalendar"
  compFilters := [{
    name := "VEVENT"
    propFilters := [{ name := "SUMMARY" }, { name := "COMMENT" }]
    compFilters := [{
      name := "VALARM"
      isNotDefined := true
      propFilters := [{ name := "TRIGGER" }] }] }]

/-- The plan for them, honouring the tests: nothing but their kind can be searched by. -/
def quietPlan : Plan where
  root := some (.kind .event)
  recheck := true
  residual := some (.and [.kind .event, .or [.property .summary true, .property .comment true],
    .not (.someAlarm (.property .trigger true))])
  deferred := [⟨.event, .any, [{ name := "SUMMARY" }, { name := "COMMENT" }]⟩,
    ⟨.alarm, .any, [{ name := "TRIGGER" }]⟩]
  named := [.event, .alarm]
  mode := .honorTest

def commentedEvent : Resource where
  href := "/work/1.ics"
  collection := "/work/"
  component := { kind := .event, properties := [{ id := .comment, value := "room 4" }] }

def bareEvent : Resource where
  href := "/work/2.ics"
  collection := "/work/"
  component := { kind := .event }

def archivedEvent : Resource :=
  { commentedEvent with href := "/work/4.ics", container := "X-ARCHIVE" }

theorem search_honorTest_quietEvents :
    ((({ container := some "vcalendar" } : Settings).planner .standard).plan quietEvents =
        .ok quietPlan ∧
      Snapshot.missing [bareEvent, archivedEvent, commentedEvent]
        { collections := ["/work/"] } = none) ∧
    search (Snapshot.answer [bareEvent, archivedEvent, commentedEvent]) .standard
      { container := some "vcalendar" } quietEvents { collections := ["/work/"] } =
        .ok [commentedEvent] := by
  have hplan : (({ container := some "vcalendar" } : Settings).planner .standard).plan
      quietEvents = .ok quietPlan := rfl
  exact ⟨⟨hplan, rfl⟩, (search_honorTest rfl hplan rfl).trans rfl⟩

/-- A sublist that keeps its order and every element that satisfies `p`. -/
inductive Keeps {α : Type} (p : α → Bool) : List α → List α → Prop
  | nil : Keeps p [] []
  | keep {kept found : List α} (a : α) : Keeps p kept found → Keeps p (a :: kept) (a :: found)
  | drop {kept found : List α} {a : α} : p a = false → Keeps p kept found →
      Keeps p kept (a :: found)

theorem Keeps.filter_eq {α : Type} {p q : α → Bool} {kept found : List α} (h : Keeps p kept found)
    (hq : ∀ a, q a = true → p a = true) : kept.filter q = found.filter q := by
  induction h with
  | nil => rfl
  | keep a _ ih => rw [List.filter_cons, List.filter_cons, ih]
  | drop hp _ ih =>
    rename_i a _
    have hqa : ¬q a = true := fun ha => by simp [hq a ha] at hp
    rw [List.filter_cons_of_neg hqa, ih]

/-- The root of a plan that honours the tests is weaker than its complete predicate, so what a store
returns beyond the root is left out again: the answer does not depend on it. -/
theorem honorTest_relaxes {x : Planner} {f : CompFilter} {plan : Plan} (hmode : x.mode = .honorTest)
    (hplan : x.plan f = .ok plan) :
    (∀ r : Resource, plan.complete.all (·.selects r) = true →
        plan.root.all (·.selects r) = true) ∧
      (plan.recheck = true → ∀ index settings kept found,
        Keeps (fun r : Resource => plan.root.all (·.selects r)) kept found →
          plan.refine index settings found = plan.refine index settings kept) := by
  have hon := Planner.honours_plan hmode hplan
  have himplied (r : Resource) : f.holdsOfCalendar x.index r.component = true →
      plan.root.all (·.selects r) = true := hon.root r.component
  constructor
  · intro r hr
    exact himplied r ((hon.complete r.component).symm.trans hr)
  · intro hr index settings kept found hkeeps
    rw [hon.refine_eq, hon.refine_eq, if_pos hr, if_pos hr]
    congr 1
    exact (hkeeps.filter_eq fun r hq => himplied r (Bool.and_eq_true_iff.mp hq).2).symm

def bareTodo : Resource where
  href := "/work/3.ics"
  collection := "/work/"
  component := { kind := .todo }

theorem honorTest_relaxes_quietEvents :
    (({ index := .standard } : Planner).plan quietEvents = .ok quietPlan ∧
      quietPlan.recheck = true ∧
      Keeps (fun r : Resource => quietPlan.root.all (·.selects r)) [bareEvent, commentedEvent]
        [bareEvent, bareTodo, commentedEvent]) ∧
    quietPlan.refine .standard {} [bareEvent, bareTodo, commentedEvent] =
      quietPlan.refine .standard {} [bareEvent, commentedEvent] := by
  have hplan : ({ index := .standard } : Planner).plan quietEvents = .ok quietPlan := rfl
  have hkeeps : Keeps (fun r : Resource => quietPlan.root.all (·.selects r))
      [bareEvent, commentedEvent] [bareEvent, bareTodo, commentedEvent] :=
    .keep _ (.drop rfl (.keep _ .nil))
  exact ⟨⟨hplan, rfl, hkeeps⟩, (honorTest_relaxes rfl hplan).2 rfl _ _ _ _ hkeeps⟩

end CalendarSearch
