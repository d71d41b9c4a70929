import CalendarSearch.Predicate.Eval
import CalendarSearch.Proofs.DurationForms
import CalendarSearch.Proofs.Events

/-! # Alarms that count from the end

A trigger is a time or a duration, and no text is both. A trigger that is a duration may count from
the end of its owner, and then it counts from the end that the owner states as a time. The span of
an owner may also end after a duration, or with the day that it starts on. Such an end is known to
the span alone: an alarm that counts from it does not fire. -/

namespace CalendarSearch

namespace Fields

open Text Duration

/-! ### Durations are not times -/

/-- A year starts with a digit, after its sign if it has one. A duration has its `P` there. -/
theorem year_duration (sign : Sign) (rest : List Char) :
    year (sign.chars ++ 'P' :: rest) = none := by
  cases sign <;> rfl

theorem date_duration (sign : Sign) (rest : List Char) :
    date (sign.chars ++ 'P' :: rest) = none := by
  rw [date, year_duration]
  rfl

end Fields

namespace TimeValue

open Text Duration

/-- A `Z` at the end of a duration stands after its `P`. -/
theorem dropZulu_duration (sign : Sign) (rest : List Char) :
    ∃ rest', dropZulu (sign.chars ++ 'P' :: rest) = sign.chars ++ 'P' :: rest' := by
  unfold dropZulu
  split
  · rename_i hlast
    cases rest with
    | nil => simp at hlast
    | cons c rest =>
      refine ⟨(c :: rest).dropLast, ?_⟩
      rw [List.dropLast_append_of_ne_nil (by simp), List.dropLast_cons_of_ne_nil (by simp)]
  · exact ⟨rest, rfl⟩

theorem parse_of_duration {value : String} {seconds : Int}
    (h : Duration.parse value = some seconds) : parse value = none := by
  obtain ⟨sign, rest, -, htrim, -⟩ := exists_sign h
  obtain ⟨rest', hbare⟩ := dropZulu_duration sign rest
  rw [parse, ofChars, htrim]
  simp only [hbare, Fields.day, Fields.dateTime, Fields.date_duration]
  simp

end TimeValue

namespace Component

/-! ### When an alarm fires -/

variable {alarm owner : Component} {trigger : Property} {seconds : Int}

theorem firing?_of_time {t : TimeValue} (h : alarm.property? .trigger = some trigger)
    (ht : TimeValue.parse trigger.value = some t) (owner : Component) :
    alarm.firing? owner = some t.instant := by
  rw [firing?, h, Option.bind_eq_bind, Option.bind_some, ht]
  rfl

theorem firing?_of_duration (h : alarm.property? .trigger = some trigger)
    (hseconds : Duration.parse trigger.value = some seconds) (owner : Component) :
    alarm.firing? owner = (owner.anchor? trigger).bind fun anchor => anchor.shift? seconds := by
  rw [firing?, h, Option.bind_eq_bind, Option.bind_some, TimeValue.parse_of_duration hseconds,
    hseconds]
  rfl

theorem firing?_of_neither (h : alarm.property? .trigger = some trigger)
    (htime : TimeValue.parse trigger.value = none)
    (hduration : Duration.parse trigger.value = none) (owner : Component) :
    alarm.firing? owner = none := by
  rw [firing?, h, Option.bind_eq_bind, Option.bind_some, htime, hduration]
  rfl

/-! ### Triggers that count from the end -/

/-- The first trigger of the alarm is a duration of so many seconds, and counts from the end. -/
structure CountsFromEnd (alarm : Component) (trigger : Property) (seconds : Int) : Prop where
  first : alarm.property? .trigger = some trigger
  duration : Duration.parse trigger.value = some seconds
  related : (trigger.param? .related).any (Text.alike · "END") = true

/-- The alarm fires so long from the `DTEND` of its owner, or from its `DUE` if it has no
`DTEND`. -/
theorem CountsFromEnd.firing?_eq (h : alarm.CountsFromEnd trigger seconds) (owner : Component) :
    alarm.firing? owner = ((owner.time? .dtend).or (owner.time? .due)).bind fun stated =>
      stated.instant.shift? seconds := by
  rw [firing?_of_duration h.first h.duration, anchor?, if_pos h.related, Option.bind_map]
  rfl

/-- The end that an event or a to-do states as a time: its `DTEND` or its `DUE`. -/
def statedEnd? (c : Component) : Option TimeValue :=
  match c.kind with
  | .event => c.time? .dtend
  | .todo => c.time? .due
  | .journal | .freeBusy | .alarm => none

/-- An event without a due time, or a to-do without a `DTEND`: it may state its own kind of end, and
not the other. -/
def StatesOneEnd (c : Component) : Prop :=
  c.kind = .event ∧ c.time? .due = none ∨ c.kind = .todo ∧ c.time? .dtend = none

theorem StatesOneEnd.statedEnd?_eq (h : owner.StatesOneEnd) :
    (owner.time? .dtend).or (owner.time? .due) = owner.statedEnd? := by
  unfold statedEnd?
  obtain ⟨hkind, hdue⟩ | ⟨hkind, hdtend⟩ := h
  · rw [hkind, hdue, Option.or_none]
  · rw [hkind, hdtend, Option.none_or]

/-- A span that has an end has the one that is stated, if one is. -/
theorem stop_of_statedEnd? {span : Span} {e : Instant} {stated : TimeValue}
    (hspan : owner.span? = some span) (he : span.stop = some e)
    (hstated : owner.statedEnd? = some stated) : e = stated.instant := by
  unfold statedEnd? at hstated
  split at hstated
  case h_1 hkind =>
    rw [span?_event hkind, hstated] at hspan
    obtain ⟨start, -, rfl⟩ := Option.map_eq_some_iff.mp hspan
    exact (Option.some.inj he).symm
  case h_2 hkind =>
    rw [span?_todo hkind, hstated] at hspan
    cases hstart : owner.time? .dtstart with
    | none =>
      -- a to-do that is only due is an instant, and its span has no end
      rw [hstart] at hspan
      cases hspan
      cases he
    | some start =>
      rw [hstart] at hspan
      cases hspan
      exact (Option.some.inj he).symm
  all_goals cases hstated

end Component

open Component

/-- An alarm that counts from the end fires so long after the end of the span of its owner, if that
end is stated as a time, and then the ranges that the instant lies in select it. If the span ends
after a duration, or with the day that it starts on, the alarm does not fire, and no range selects
it. -/
theorem firing_fromEnd {alarm owner : Component} {trigger : Property} {seconds : Int} {span : Span}
    {e : Instant} (howner : owner.StatesOneEnd) (hspan : owner.span? = some span)
    (he : span.stop = some e) (h : alarm.CountsFromEnd trigger seconds) :
    (owner.statedEnd?.isSome = true →
      alarm.firing? owner = e.shift? seconds ∧
      ((e.shift seconds).Representable → ∀ range,
        (Predicate.firesIn range).eval (some owner) alarm = range.contains (e.shift seconds))) ∧
    (owner.statedEnd? = none →
      alarm.firing? owner = none ∧
      ∀ range, (Predicate.firesIn range).eval (some owner) alarm = false) := by
  have hfiring := h.firing?_eq owner
  rw [howner.statedEnd?_eq] at hfiring
  simp only [Predicate.eval, Option.any_some, Component.firesIn]
  constructor
  · intro hstated
    obtain ⟨stated, hstated⟩ := Option.isSome_iff_exists.mp hstated
    rw [hstated, Option.bind_some, ← stop_of_statedEnd? hspan he hstated] at hfiring
    refine ⟨hfiring, fun hrepresentable range => ?_⟩
    rw [hfiring, Instant.shift?, if_pos hrepresentable, Option.any_some]
  · intro hstated
    rw [hstated, Option.bind_none] at hfiring
    exact ⟨hfiring, fun range => by rw [hfiring, Option.any_none]⟩

def afterEnd : Property where
  id := .trigger
  value := "PT5M"
  params := [{ id := .related, value := "end" }]

def alarmAfterEnd : Component := { kind := .alarm, properties := [afterEnd] }

theorem countsFromEnd_alarmAfterEnd : alarmAfterEnd.CountsFromEnd afterEnd 300 :=
  ⟨rfl, by decide +kernel, by decide +kernel⟩

/-- From nine to ten on the fifteenth of January 2024, with the end stated as a time. -/
def untilTen : Component := eventWith [
  { id := .dtstart, value := "20240115T090000Z" },
  { id := .dtend, value := "20240115T100000Z" }]

def forAnHour : Component := eventWith [
  { id := .dtstart, value := "20240115T090000Z" },
  { id := .duration, value := "PT1H" }]

theorem firing_fromEnd_untilTen :
    (untilTen.StatesOneEnd ∧
      untilTen.span? = some ⟨⟨1705309200, false⟩, some ⟨1705312800, false⟩⟩) ∧
    alarmAfterEnd.firing? untilTen = some ⟨1705313100, false⟩ ∧
    alarmAfterEnd.firing? forAnHour = none := by
  have hone : untilTen.StatesOneEnd := .inl ⟨rfl, rfl⟩
  have hspan : untilTen.span? = some ⟨⟨1705309200, false⟩, some ⟨1705312800, false⟩⟩ := by
    decide +kernel
  have hspan' : forAnHour.span? = some ⟨⟨1705309200, false⟩, some ⟨1705312800, false⟩⟩ := by
    decide +kernel
  refine ⟨⟨hone, hspan⟩, ?_, ?_⟩
  · have hfires := firing_fromEnd hone hspan rfl countsFromEnd_alarmAfterEnd
    exact (hfires.1 (by decide +kernel)).1.trans (by decide +kernel)
  · have hfires := firing_fromEnd (.inl ⟨rfl, rfl⟩) hspan' rfl countsFromEnd_alarmAfterEnd
    exact (hfires.2 (by decide +kernel)).1

/-- The end after the duration of an event is the end of its span, but no alarm that counts from it
fires. -/
theorem forAnHour_unfired :
    ¬∀ (alarm owner : Component) (trigger : Property) (seconds : Int) (span : Span) (e : Instant),
      owner.kind = .event ∧ owner.property? .due = none ∨
        owner.kind = .todo ∧ owner.property? .dtend = none →
      owner.span? = some span → span.stop = some e →
      ((∃ stated, owner.statedEnd? = some stated ∧ e = stated.instant) ∨
        ∃ start, owner.time? .dtstart = some start ∧ owner.afterDuration start.instant = some e) →
      alarm.CountsFromEnd trigger seconds → (e.shift seconds).Representable →
      alarm.firing? owner = some (e.shift seconds) := by
  intro h
  have hfires := h alarmAfterEnd forAnHour afterEnd 300
    ⟨⟨1705309200, false⟩, some ⟨1705312800, false⟩⟩ ⟨1705312800, false⟩ (.inl ⟨rfl, rfl⟩)
    (by decide +kernel) rfl
    (.inr ⟨.moment ⟨1705309200, false⟩, by decide +kernel, by decide +kernel⟩)
    countsFromEnd_alarmAfterEnd (by decide +kernel)
  have hnone : alarmAfterEnd.firing? forAnHour = none := by decide +kernel
  cases hnone.symm.trans hfires

end CalendarSearch
