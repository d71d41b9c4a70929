import CalendarSearch.Proofs.Exactness

/-! # What a legacy search finds

In legacy mode all that was deferred for a kind is read again and joined by "any", whichever node it
comes from. Each resource is checked against what was deferred for its own kind, and its alarms
against what was deferred for alarms. -/

namespace CalendarSearch

open Traversal
open Predicate (evalOptional)

/-- What is found under a key, where each key with a value has one pair. -/
theorem lookup_filterMap {α β : Type} [BEq α] [LawfulBEq α] (g : α → Option β) (as : List α)
    {a : α} (h : a ∈ as) :
    (as.filterMap fun b => (g b).map fun v => (b, v)).lookup a = g a := by
  -- a key without a value leaves no pair, so a key that comes again finds nothing later either
  have found (as : List α) : (as.filterMap fun b => (g b).map fun v => (b, v)).lookup a =
      if a ∈ as then g a else none := by
    induction as with
    | nil => rfl
    | cons b as ih =>
      by_cases hab : a = b
      · subst hab
        cases hg : g a <;> simp [hg, ih]
      · have hbeq : (a == b) = false := beq_false_of_ne hab
        cases hg : g b <;> simp [hg, ih, hab, List.lookup_cons, hbeq]
  rw [found, if_pos h]

namespace Plan

/-- The prop-filters deferred for components of a kind, over all groups. -/
def filtersFor (p : Plan) (kind : ComponentKind) : List PropFilter :=
  (p.deferralsOf kind).flatMap Deferral.filters

/-- One of the prop-filters deferred for its kind holds of the component, if there are any. -/
def deferredHolds (p : Plan) (x : FieldIndex) (c : Component) : Bool :=
  Junction.any.joins ((p.filtersFor c.kind).map (PropFilter.holds x c))

/-- One alarm of the component satisfies one of the prop-filters deferred for alarms, if there are
any and it has alarms. -/
def deferredHoldsOfAlarms (p : Plan) (x : FieldIndex) (c : Component) : Bool :=
  (p.filtersFor .alarm).isEmpty || c.alarms.isEmpty ||
    c.alarms.any fun alarm => (p.filtersFor .alarm).any (PropFilter.holds x alarm)

/-! ### Deferred prop-filters, read again -/

/-- The predicate asks for any of the prop-filters deferred for a kind, and is there if one was. -/
structure Asks (p : Plan) (x : FieldIndex) (kind : ComponentKind) (q : Option Predicate) :
    Prop where
  isSome : q.isSome = !(p.filtersFor kind).isEmpty
  eval : ∀ owner c, evalOptional owner c q =
    Junction.any.joins ((p.filtersFor kind).map (PropFilter.holds x c))

variable {x : Planner} {p : Plan}

theorem read_filtersFor (h : ∀ d ∈ p.deferred, x.Readable d) (kind : ComponentKind) :
    ∀ f ∈ p.filtersFor kind, ∃ k, x.propCondition f = .ok k := by
  intro f hf
  obtain ⟨d, hd, hf⟩ := List.mem_flatMap.mp hf
  exact (h d (List.mem_of_mem_filter hd)).read f hf

theorem deferredPredicate_asks (h : ∀ d ∈ p.deferred, x.Readable d) (kind : ComponentKind) :
    ∃ q, p.deferredPredicate x kind = .ok q ∧ p.Asks x.index kind q := by
  obtain ⟨ps, hps⟩ : ∃ ps, List.Forall₂ (fun f q => ∃ k, x.propCondition f = .ok k ∧
      k.predicate = q) (p.filtersFor kind) ps := by
    refine exists_forall₂_of_forall_mem fun f hf => ?_
    obtain ⟨k, hk⟩ := read_filtersFor h kind f hf
    exact ⟨k.predicate, k, hk, rfl⟩
  refine ⟨Predicate.ofParts false ps, ?_, ?_, fun owner c => ?_⟩
  · simp only [deferredPredicate, bind_eq_ok, pure_eq_ok, mapM_eq_ok]
    exact ⟨ps, hps, rfl⟩
  · rw [Predicate.isSome_ofParts, isEmpty_eq_isEmpty hps]
  · have heval : ps.map (Predicate.eval owner c) =
        (p.filtersFor kind).map (PropFilter.holds x.index c) := by
      refine map_eq_map hps fun f _ q hq => ?_
      obtain ⟨k, hk, rfl⟩ := hq
      exact (Planner.propCondition_means hk).eval owner c
    rw [← heval]
    exact Predicate.evalOptional_ofParts owner c .any ps

/-- Reading again gives, for each kind, what asks for the prop-filters deferred for it. -/
theorem deferredPredicates_asks (h : ∀ d ∈ p.deferred, x.Readable d) :
    ∃ predicates, p.deferredPredicates x = .ok predicates ∧
      ∀ kind, p.Asks x.index kind (predicates.lookup kind) := by
  choose q hq hasks using deferredPredicate_asks h
  refine ⟨ComponentKind.all.filterMap fun kind => (q kind).map fun v => (kind, v), ?_,
    fun kind => ?_⟩
  · simp only [deferredPredicates, bind_eq_ok, pure_eq_ok, mapM_pair_eq_ok]
    refine ⟨ComponentKind.all.map fun kind => (kind, q kind), ⟨?_, ?_⟩, ?_⟩
    · rw [List.map_map]
      exact List.map_id' _
    · exact List.forall_mem_map.mpr fun kind _ => hq kind
    · exact List.filterMap_map
  · rw [lookup_filterMap q _ kind.mem_all]
    exact hasks kind

/-! ### The check -/

theorem passes_alarms {index : FieldIndex} {q : Option Predicate} (h : p.Asks index .alarm q)
    (r : Resource) :
    (if r.component.alarms.isEmpty then none else q).all
      (fun q => (Predicate.someAlarm q).selects r) = p.deferredHoldsOfAlarms index r.component := by
  unfold deferredHoldsOfAlarms
  cases ha : r.component.alarms.isEmpty with
  | true =>
    rw [Bool.or_true, Bool.true_or]
    rfl
  | false =>
    cases q with
    | none =>
      have hempty : (p.filtersFor .alarm).isEmpty = true := by simpa using h.isSome
      rw [hempty, Bool.true_or, Bool.true_or]
      rfl
    | some q =>
      have hempty : (p.filtersFor .alarm).isEmpty = false := by simpa using h.isSome
      have heval (alarm : Component) : q.eval (some r.component) alarm =
          (p.filtersFor .alarm).any (PropFilter.holds index alarm) := by
        have hq := h.eval (some r.component) alarm
        rw [Junction.joins, List.isEmpty_map, hempty, Bool.false_or, List.any_map] at hq
        exact hq
      rw [hempty, Bool.false_or, Bool.false_or, if_neg Bool.false_ne_true, Option.all_some,
        Predicate.selects, Predicate.eval_someAlarm]
      exact congrArg r.component.alarms.any (funext heval)

/-- A resource passes what was read again by what it holds of its kind and of alarms. -/
theorem passes_eq {index : FieldIndex} {predicates : List (ComponentKind × Predicate)}
    (h : ∀ kind, p.Asks index kind (predicates.lookup kind)) (r : Resource) :
    passes predicates r = ((r.kind = .alarm || p.deferredHolds index r.component) &&
      p.deferredHoldsOfAlarms index r.component) := by
  have hown : (if r.kind = .alarm then none else predicates.lookup r.kind).all (·.selects r) =
      (r.kind = .alarm || p.deferredHolds index r.component) := by
    split
    · rename_i hk
      simp [hk]
    · rename_i hk
      rw [decide_eq_false hk, Bool.false_or]
      exact (h r.kind).eval none r.component
  rw [passes, hown, passes_alarms (h .alarm)]

theorem refine_legacy {index : FieldIndex} {settings : Settings} {f : CompFilter} {p : Plan}
    (hmode : settings.mode = .legacyAnyOf) (h : (settings.planner index).plan f = .ok p)
    (found : List Resource) :
    p.refine index settings found = .ok (if p.deferred.isEmpty then found else
      found.filter fun r => settings.allows r &&
        (r.kind = .alarm || p.deferredHolds index r.component) &&
          p.deferredHoldsOfAlarms index r.component) := by
  obtain ⟨predicates, hread, hasks⟩ := deferredPredicates_asks (Planner.readable_plan h)
  have hcheck : p.check (settings.planner index) = .ok (passes predicates) := by
    have hp : p.mode = .legacyAnyOf := (Planner.mode_plan h).trans hmode
    rw [check, hp, hread]
    rfl
  rw [refine, Planner.recheck_plan h, hcheck]
  cases p.deferred.isEmpty with
  | true => rfl
  | false =>
    simp only [passes_eq hasks, Bool.and_assoc]
    rfl

end Plan

/-- A legacy search finds, in the order of the snapshot, the resources in the scope that satisfy the
root of the plan. Where something was deferred they must also lie in the container, satisfy one of
the prop-filters deferred for their kind, unless they are alarms themselves, and satisfy one of
those deferred for alarms on one of their alarms. -/
theorem search_legacyAnyOf {index : FieldIndex} {settings : Settings} {f : CompFilter} {plan : Plan}
    {rs : List Resource} {scope : Scope} (hmode : settings.mode = .legacyAnyOf)
    (hplan : (settings.planner index).plan f = .ok plan)
    (hscope : Snapshot.missing rs scope = none) :
    search (Snapshot.answer rs) index settings f scope = .ok (rs.filter fun r =>
      scope.admits r.collection && plan.root.all (·.selects r) &&
        (plan.deferred.isEmpty || settings.allows r &&
          (r.kind = .alarm || plan.deferredHolds index r.component) &&
            plan.deferredHoldsOfAlarms index r.component)) := by
  have hroot (q : Option Predicate) (r : Resource) :
      evalOptional none r.component q = q.all (·.selects r) := rfl
  simp only [search, hplan, Snapshot.answer_full hscope, hroot, Plan.refine_legacy hmode hplan]
  cases plan.deferred.isEmpty with
  | true => simp
  | false =>
    simp only [Bool.false_eq_true, if_false, Bool.false_or, List.filter_filter]
    congr 1
    exact List.filter_congr fun r _ => Bool.and_comm _ _

/-- Events with a summary, a comment and an alarm that has a trigger. -/
def remindedEvents : CompFilter where
  name := "VCALENDAR"
  compFilters := [{
    name := "VEVENT"
    propFilters := [{ name := "SUMMARY" }, { name := "COMMENT" }]
    compFilters := [{ name := "VALARM", propFilters := [{ name := "TRIGGER" }] }] }]

/-- The legacy plan for them: neither the comment nor the trigger is indexed. -/
def remindedPlan : Plan where
  root := some (.and [.kind .event, .property .summary true, .property .valarm true])
  recheck := true
  deferred := [⟨.event, .any, [{ name := "COMMENT" }]⟩, ⟨.alarm, .any, [{ name := "TRIGGER" }]⟩]
  named := [.event, .alarm]
  mode := .legacyAnyOf

def remindedEvent : Resource where
  href := "/work/1.ics"
  collection := "/work/"
  component := {
    kind := .event
    properties := [{ id := .summary, value := "review" }, { id := .comment, value := "room 4" }]
    alarms := [{ kind := .alarm }, {
      kind := .alarm
      properties := [{ id := .trigger, value := "-PT15M" }] }] }

def silentEvent : Resource where
  href := "/work/2.ics"
  collection := "/work/"
  component := { remindedEvent.component with alarms := [{ kind := .alarm }] }

def archivedReminder : Resource :=
  { remindedEvent with href := "/work/3.ics", container := "X-ARCHIVE" }

def legacyCalendars : Settings := { mode := .legacyAnyOf, container := some "vcalendar" }

theorem search_legacyAnyOf_remindedEvents :
    ((legacyCalendars.planner .standard).plan remindedEvents = .ok remindedPlan ∧
      Snapshot.missing [silentEvent, archivedReminder, remindedEvent]
        { collections := ["/work/"] } = none) ∧
    search (Snapshot.answer [silentEvent, archivedReminder, remindedEvent]) .standard
      legacyCalendars remindedEvents { collections := ["/work/"] } = .ok [remindedEvent] := by
  have hplan : (legacyCalendars.planner .standard).plan remindedEvents = .ok remindedPlan := rfl
  exact ⟨⟨hplan, rfl⟩, (search_legacyAnyOf rfl hplan rfl).trans rfl⟩

/-- No event has an alarm with a trigger. -/
def noReminders : CompFilter where
  name := "VCALENDAR"
  compFilters := [{
    name := "VEVENT"
    isNotDefined := true
    compFilters := [{ name := "VALARM", propFilters := [{ name := "TRIGGER" }] }] }]

/-- An alarm that is kept by itself, without a trigger. -/
def loneAlarm : Resource where
  href := "/cal/1.ics"
  collection := "/cal/"
  component := { kind := .alarm }

/-- The exception for alarms is needed: what was deferred for alarms is asked of the alarms of a
component, never of a resource that is an alarm itself. -/
theorem loneAlarm_not_checked :
    ¬∀ {index : FieldIndex} {settings : Settings} {f : CompFilter} {plan : Plan}
      {rs : List Resource} {scope : Scope}, settings.mode = .legacyAnyOf →
      (settings.planner index).plan f = .ok plan → Snapshot.missing rs scope = none →
      search (Snapshot.answer rs) index settings f scope = .ok (rs.filter fun r =>
        scope.admits r.collection && plan.root.all (·.selects r) &&
          (plan.deferred.isEmpty || settings.allows r &&
            plan.deferredHolds index r.component &&
              plan.deferredHoldsOfAlarms index r.component)) := by
  intro h
  have hplan : (({ mode := .legacyAnyOf } : Settings).planner .standard).plan noReminders = .ok {
      root := some (.not (.and [.kind .event, .property .valarm true]))
      recheck := true
      deferred := [⟨.alarm, .any, [{ name := "TRIGGER" }]⟩]
      named := [.event, .alarm]
      mode := .legacyAnyOf } := rfl
  have hfound : search (Snapshot.answer [loneAlarm]) .standard { mode := .legacyAnyOf } noReminders
      {} = .ok [loneAlarm] := rfl
  have hnone := hfound.symm.trans (h rfl hplan rfl)
  cases hnone

end CalendarSearch
