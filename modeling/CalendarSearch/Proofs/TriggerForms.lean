import CalendarSearch.Proofs.AlarmForms
import CalendarSearch.Proofs.Triggers

/-! # The two forms of a trigger

A trigger names a time of its own, or says how long before or after a time of its owner the alarm
fires. Both readers pass over blanks and signs and let many irregular texts through, but what comes
first after those is a digit in the one form and the `P` in the other. So no trigger has both forms,
and it does not matter which is tried first. A trigger that has neither form never fires, and no
question about the time at which alarms fire takes notice of such an alarm. -/

namespace CalendarSearch

theorem TimeValue.parse_eq_none_or (value : String) :
    TimeValue.parse value = none ∨ Duration.parse value = none := by
  cases hduration : Duration.parse value with
  | none => exact .inr rfl
  | some seconds => exact .inl (TimeValue.parse_of_duration hduration)

/-- What a trigger may be. -/
inductive TriggerForm where
  /-- A time of its own. -/
  | time
  /-- So long before or after a time of the owner. -/
  | offset
deriving DecidableEq, Repr

/-- When the alarm fires by a trigger of this form, if the trigger has the form. A trigger may have
the form and not fire, where its owner has no such time. -/
def TriggerForm.reading? (trigger : Property) (owner : Component) :
    TriggerForm → Option (Option Instant)
  | time => (TimeValue.parse trigger.value).map fun t => some t.instant
  | offset => (Duration.parse trigger.value).map fun seconds =>
      (owner.anchor? trigger).bind fun anchor => anchor.shift? seconds

namespace Component

/-- When the alarm fires if the forms are tried in this order, and the first that its trigger has
decides. -/
def firingBy? (forms : List TriggerForm) (alarm owner : Component) : Option Instant := do
  let trigger ← alarm.property? .trigger
  (forms.findSome? (TriggerForm.reading? trigger owner)).join

variable {alarm owner : Component} {trigger : Property}

/-! ### Any order of the forms -/

/-- A form that the trigger has is the one that decides. -/
theorem firing?_of_reading? {form : TriggerForm} {fires : Option Instant}
    (h : alarm.property? .trigger = some trigger)
    (hform : form.reading? trigger owner = some fires) : alarm.firing? owner = fires := by
  cases form with
  | time =>
    obtain ⟨t, ht, rfl⟩ := Option.map_eq_some_iff.mp hform
    exact firing?_of_time h ht owner
  | offset =>
    obtain ⟨seconds, hseconds, rfl⟩ := Option.map_eq_some_iff.mp hform
    exact firing?_of_duration h hseconds owner

theorem firingBy?_eq_firing? {forms : List TriggerForm} (htime : .time ∈ forms)
    (hoffset : .offset ∈ forms) : alarm.firingBy? forms owner = alarm.firing? owner := by
  cases htrigger : alarm.property? .trigger with
  | none =>
    rw [firingBy?, firing?, htrigger, Option.bind_eq_bind, Option.bind_none]
    rfl
  | some trigger =>
    rw [firingBy?, htrigger, Option.bind_eq_bind, Option.bind_some]
    cases hfirst : forms.findSome? (TriggerForm.reading? trigger owner) with
    | none =>
      have hnone := List.findSome?_eq_none_iff.mp hfirst
      rw [firing?_of_neither htrigger (Option.map_eq_none_iff.mp (hnone .time htime))
        (Option.map_eq_none_iff.mp (hnone .offset hoffset)), Option.join_none]
    | some fires =>
      obtain ⟨form, -, hform⟩ := List.exists_of_findSome?_eq_some hfirst
      rw [firing?_of_reading? htrigger hform, Option.join_some]

/-! ### Triggers of neither form -/

/-- The alarm has no trigger, or its trigger has neither form. -/
def Untimed (alarm : Component) : Prop :=
  ∀ trigger, alarm.property? .trigger = some trigger →
    TimeValue.parse trigger.value = none ∧ Duration.parse trigger.value = none

theorem Untimed.firing? (h : alarm.Untimed) (owner : Component) : alarm.firing? owner = none := by
  cases htrigger : alarm.property? .trigger with
  | none =>
    rw [Component.firing?, htrigger]
    rfl
  | some trigger =>
    obtain ⟨htime, hduration⟩ := h trigger htrigger
    exact firing?_of_neither htrigger htime hduration owner

theorem Untimed.firesIn (h : alarm.Untimed) (owner : Component) (range : TimeRange) :
    alarm.firesIn owner range = false := by
  rw [Component.firesIn, h.firing?, Option.any_none]

/-- Whether some alarm fires in a range is up to the others. -/
theorem Untimed.any_firesIn (h : alarm.Untimed) (owner : Component) (range : TimeRange)
    (before after : List Component) :
    ((before ++ alarm :: after).any fun alarm => alarm.firesIn owner range) =
      (before ++ after).any fun alarm => alarm.firesIn owner range := by
  rw [List.any_append, List.any_cons, h.firesIn, Bool.false_or, ← List.any_append]

end Component

/-- No text has both forms of a trigger, and so an alarm fires at the same time in whatever order
the forms are tried, as long as both are. An alarm whose trigger has neither form fires in no range,
and whether a component has an alarm that does is answered as if it did not have this one, by either
of the two questions there are. -/
theorem triggerForms_apart :
    (∀ value, TimeValue.parse value = none ∨ Duration.parse value = none) ∧
    (∀ (alarm owner : Component) (forms : List TriggerForm), .time ∈ forms → .offset ∈ forms →
      alarm.firingBy? forms owner = alarm.firing? owner) ∧
    ∀ alarm : Component, alarm.Untimed → ∀ (range : TimeRange) (owner : Option Component),
      (Predicate.firesIn range).eval owner alarm = false ∧
      ∀ (c : Component) (before after : List Component),
        ∀ p ∈ [Predicate.someAlarm (.firesIn range), .propertyIn .valarm range],
          p.eval owner { c with alarms := before ++ alarm :: after } =
            p.eval owner { c with alarms := before ++ after } := by
  refine ⟨TimeValue.parse_eq_none_or, fun _ _ _ => Component.firingBy?_eq_firing?, ?_⟩
  intro alarm huntimed range owner
  constructor
  · cases owner with
    | none => rfl
    | some owner => rw [Predicate.eval, Option.any_some, huntimed.firesIn]
  · intro c before after p hp
    -- when an alarm fires depends on the properties of its owner, and not on its other alarms
    have hfires := huntimed.any_firesIn c range before after
    rcases List.mem_pair.mp hp with rfl | rfl
    · simp only [Predicate.eval, Option.any_some]
      exact hfires
    · simp only [Predicate.eval, Component.propertyIn_valarm]
      exact hfires

/-- Months are no unit of a duration. -/
def monthsBefore : Component where
  kind := .alarm
  properties := [{ id := .trigger, value := "-P2M" }]

def quarterBefore : Component where
  kind := .alarm
  properties := [{ id := .trigger, value := "-PT15M" }]

def sinceEleventh : TimeRange := { start := some ⟨1704931200, false⟩, stop := none }

/-- An alarm a quarter of an hour before nine, with the offset tried first, and one that only seems
to come two months before: alone it does not bring the component into the range, and beside the
other it does not keep it out. -/
theorem triggerForms_apart_quarterBefore :
    monthsBefore.Untimed ∧
    quarterBefore.firingBy? [.offset, .time] untilTen = some ⟨1705308300, false⟩ ∧
    (Predicate.propertyIn .valarm sinceEleventh).eval none
      { untilTen with alarms := [monthsBefore] } = false ∧
    (Predicate.propertyIn .valarm sinceEleventh).eval none
      { untilTen with alarms := [monthsBefore, quarterBefore] } = true := by
  obtain ⟨-, horder, hapart⟩ := triggerForms_apart
  have huntimed : monthsBefore.Untimed := by
    intro trigger htrigger
    cases htrigger
    decide +kernel
  have hsame (others : List Component) := (hapart monthsBefore huntimed sinceEleventh none).2
    untilTen [] others (.propertyIn .valarm sinceEleventh) (by simp)
  refine ⟨huntimed, ?_, (hsame []).trans rfl, (hsame [quarterBefore]).trans (by decide +kernel)⟩
  exact (horder quarterBefore untilTen [.offset, .time] (by simp) (by simp)).trans
    (by decide +kernel)

end CalendarSearch
