import CalendarSearch.Predicate.Eval
import CalendarSearch.Proofs.Overflow

/-! # When to-dos meet a range

A span is half open, and without an end after its start it is an instant. So a to-do with a start
meets the ranges that end after its start and start before its end, or no later than its start; a
to-do with nothing but a due time is the instant of that. -/

namespace CalendarSearch

namespace TimeRange

/-! ### The bounds of the widened range

An open end of the range is before or after everything. -/

def startsBefore (r : TimeRange) (t : Instant) : Bool := r.earliest.all (· < t)

def startsBy (r : TimeRange) (t : Instant) : Bool := r.earliest.all (· ≤ t)

def endsAfter (r : TimeRange) (t : Instant) : Bool := r.latest.all (t < ·)

def endsFrom (r : TimeRange) (t : Instant) : Bool := r.latest.all (t ≤ ·)

variable {r : TimeRange} {s e : Instant}

theorem startsBy_of_startsBefore (h : r.startsBefore e = true) (hes : e ≤ s) :
    r.startsBy s = true := by
  unfold startsBefore at h
  unfold startsBy
  cases hr : r.earliest with
  | none => rfl
  | some t =>
    simp only [hr, Option.all_some, decide_eq_true_eq, Instant.lt_iff, Instant.le_iff] at h hes ⊢
    omega

theorem startsBefore_of_startsBy (h : r.startsBy s = true) (hse : s < e) :
    r.startsBefore e = true := by
  unfold startsBy at h
  unfold startsBefore
  cases hr : r.earliest with
  | none => rfl
  | some t =>
    simp only [hr, Option.all_some, decide_eq_true_eq, Instant.lt_iff, Instant.le_iff] at h hse ⊢
    omega

theorem meets_none : r.meets s none = (r.startsBy s && r.endsAfter s) := rfl

theorem meets_of_lt (h : s < e) : r.meets s (some e) = (r.startsBefore e && r.endsAfter s) := by
  rw [Bool.and_comm]
  exact if_pos h

theorem meets_of_le (h : e ≤ s) : r.meets s (some e) = (r.startsBy s && r.endsAfter s) :=
  if_neg (Instant.not_lt.mpr h)

/-- One formula for spans that end after their start and for those that do not. -/
theorem meets_some :
    r.meets s (some e) = ((r.startsBefore e || r.startsBy s) && r.endsAfter s) := by
  by_cases hse : s < e
  · have hstart : (r.startsBefore e || r.startsBy s) = r.startsBefore e := by
      rw [Bool.or_eq_left_iff_imp]
      exact fun h => startsBefore_of_startsBy h hse
    rw [hstart, meets_of_lt hse]
  · have hes : e ≤ s := Instant.not_lt.mp hse
    have hstart : (r.startsBefore e || r.startsBy s) = r.startsBy s := by
      rw [Bool.or_eq_right_iff_imp]
      exact fun h => startsBy_of_startsBefore h hes
    rw [hstart, meets_of_le hes]

end TimeRange

/-! ### To-dos -/

namespace Component

/-- What a to-do takes up, by the dates that it has. -/
theorem span?_todo {c : Component} (hkind : c.kind = .todo) :
    c.span? = match c.time? .dtstart, c.time? .due with
      | some start, some due => some ⟨start.instant, some due.instant⟩
      | some start, none => some ⟨start.instant, c.afterDuration start.instant⟩
      | none, some due => some ⟨due.instant, none⟩
      | none, none => none := by
  obtain ⟨kind, properties, alarms⟩ := c
  cases hkind
  rfl

end Component

open Predicate

/-- A to-do with a start and a due time meets a range that ends after the start, and starts before
the due time or no later than the start. If there is no due time, the end after its duration stands
for it. A to-do with nothing but a start or a due time meets a range that starts no later and ends
after it. A to-do without either meets every range. -/
theorem todo_occursIn {c : Component} (hkind : c.kind = .todo) (owner : Option Component)
    (range : TimeRange) :
    (∀ s d, c.time? .dtstart = some s → c.time? .due = some d →
      (Predicate.occursIn range).eval owner c =
        ((range.startsBefore d.instant || range.startsBy s.instant) && range.endsAfter s.instant)) ∧
    (∀ s e, c.time? .dtstart = some s → c.time? .due = none →
      c.afterDuration s.instant = some e →
      (Predicate.occursIn range).eval owner c =
        ((range.startsBefore e || range.startsBy s.instant) && range.endsAfter s.instant)) ∧
    (∀ s, c.time? .dtstart = some s → c.time? .due = none → c.afterDuration s.instant = none →
      (Predicate.occursIn range).eval owner c =
        (range.startsBy s.instant && range.endsAfter s.instant)) ∧
    (∀ d, c.time? .dtstart = none → c.time? .due = some d →
      (Predicate.occursIn range).eval owner c =
        (range.startsBy d.instant && range.endsAfter d.instant)) ∧
    (c.time? .dtstart = none → c.time? .due = none →
      (Predicate.occursIn range).eval owner c = true) := by
  have hspan := Component.span?_todo hkind
  simp only [Predicate.eval, Component.occursIn]
  refine ⟨?startDue, ?startDuration, ?start, ?due, ?undated⟩
  case startDue =>
    intro s d hs hd
    rw [hs, hd] at hspan
    rw [hspan]
    exact TimeRange.meets_some
  case startDuration =>
    intro s e hs hd he
    rw [hs, hd] at hspan
    rw [hspan]
    dsimp only
    rw [he]
    exact TimeRange.meets_some
  case start =>
    intro s hs hd he
    rw [hs, hd] at hspan
    rw [hspan]
    dsimp only
    rw [he]
    exact TimeRange.meets_none
  case due =>
    intro d hs hd
    rw [hs, hd] at hspan
    rw [hspan]
    exact TimeRange.meets_none
  case undated =>
    intro hs hd
    rw [hs, hd] at hspan
    rw [hspan]
    exact decide_eq_true hkind

def todoWith (properties : List Property) : Component := { kind := .todo, properties }

/-- From the second of January 2024; widened, from the first. -/
def fromSecond : TimeRange := { start := some ⟨1704153600, false⟩, stop := none }

/-- Until noon on the third of January 2024; widened, on the fourth. -/
def untilThird : TimeRange := { start := none, stop := some ⟨1704283200, false⟩ }

def dueFirst : Component := todoWith [{ id := .due, value := "20240101T000000Z" }]

def dayBeforeFirst : Component := todoWith [
  { id := .dtstart, value := "20231231T000000Z" },
  { id := .duration, value := "P1D" }]

def dueBeforeStart : Component := todoWith [
  { id := .dtstart, value := "20240105T000000Z" },
  { id := .due, value := "20240104T000000Z" }]

def startedFourth : Component := todoWith [{ id := .dtstart, value := "20240104T000000Z" }]

theorem todo_occursIn_newYear :
    ((Predicate.occursIn untilThird).eval none dueBeforeStart = false ∧
      (Predicate.occursIn fromSecond).eval none dueBeforeStart = true) ∧
    (Predicate.occursIn fromSecond).eval none dayBeforeFirst = false ∧
    (Predicate.occursIn untilThird).eval none startedFourth = true ∧
    (Predicate.occursIn fromSecond).eval none dueFirst = true ∧
    (Predicate.occursIn fromSecond).eval none (todoWith []) = true := by
  refine ⟨⟨?_, ?_⟩, ?_, ?_, ?_, ?_⟩
  · exact (todo_occursIn (c := dueBeforeStart) rfl none untilThird).1
      (.moment ⟨1704412800, false⟩) (.moment ⟨1704326400, false⟩) rfl rfl
  · exact (todo_occursIn (c := dueBeforeStart) rfl none fromSecond).1
      (.moment ⟨1704412800, false⟩) (.moment ⟨1704326400, false⟩) rfl rfl
  · exact (todo_occursIn (c := dayBeforeFirst) rfl none fromSecond).2.1
      (.moment ⟨1703980800, false⟩) ⟨1704067200, false⟩ rfl rfl (by decide +kernel)
  · exact (todo_occursIn (c := startedFourth) rfl none untilThird).2.2.1
      (.moment ⟨1704326400, false⟩) rfl rfl rfl
  · exact (todo_occursIn (c := dueFirst) rfl none fromSecond).2.2.2.1
      (.moment ⟨1704067200, false⟩) rfl rfl
  · exact (todo_occursIn (c := todoWith []) rfl none fromSecond).2.2.2.2 rfl rfl

/-- The overlap table for to-dos: what it asks of the range, by the dates of the to-do. -/
def Component.inTable (c : Component) (range : TimeRange) : Bool :=
  match c.time? .dtstart, c.time? .due with
  | some s, some d =>
    (range.startsBefore d.instant || range.startsBy s.instant) &&
      (range.endsAfter s.instant || range.endsFrom d.instant)
  | some s, none =>
    match c.afterDuration s.instant with
    | some e => range.startsBy e && (range.endsAfter s.instant || range.endsFrom e)
    | none => range.startsBy s.instant && range.endsAfter s.instant
  | none, some d => range.startsBefore d.instant && range.endsFrom d.instant
  | none, none => true

/-- Three lines of the table do not hold: where there is only a due time, it is an instant, which
belongs to the range that it starts and not to the one that it ends; a duration ends before its end;
and a due time before the start does not count for the end of the range. -/
theorem inTable_fails :
    fromSecond.Parsed ∧ untilThird.Parsed ∧
      ((Predicate.occursIn fromSecond).eval none dueFirst = true ∧
        dueFirst.inTable fromSecond = false) ∧
      ((Predicate.occursIn fromSecond).eval none dayBeforeFirst = false ∧
        dayBeforeFirst.inTable fromSecond = true) ∧
      (Predicate.occursIn untilThird).eval none dueBeforeStart = false ∧
        dueBeforeStart.inTable untilThird = true :=
  ⟨⟨some "20240102T000000Z", none, fromSecond, rfl, rfl⟩,
    ⟨none, some "20240103T120000Z", untilThird, rfl, rfl⟩,
    by decide +kernel, by decide +kernel, by decide +kernel⟩

end CalendarSearch
