import CalendarSearch.Proofs.Overlap

/-! # When events meet a range

An event needs a start. It ends at its `DTEND` if that can be read, else after its duration, else
with the day that it starts on, and one that has no end after its start is an instant. -/

namespace CalendarSearch

namespace Instant

/-- A shift goes forward just if its seconds are positive, from a leap second too. -/
theorem lt_shift_iff {t : Instant} {seconds : Int} : t < t.shift seconds ↔ 0 < seconds := by
  by_cases hzero : seconds = 0
  · rw [hzero, shift_zero, lt_iff]
    exact iff_of_false (Int.lt_irrefl _) (Int.lt_irrefl _)
  · rw [lt_iff, shift, if_neg hzero]
    obtain ⟨second, leap⟩ := t
    cases leap with
    | false =>
      simp only [rank, Bool.and_false, Bool.false_eq_true, if_false]
      omega
    | true =>
      -- back from a leap second starts at the second after it
      by_cases hback : seconds < 0
      · simp only [rank, hback, decide_true, Bool.and_true, if_true, Bool.false_eq_true, if_false]
        omega
      · simp only [rank, hback, decide_false, Bool.false_and, if_true, Bool.false_eq_true, if_false]
        omega

theorem shift_le {t : Instant} {seconds : Int} (h : seconds ≤ 0) : t.shift seconds ≤ t := by
  rw [← not_lt, lt_shift_iff]
  omega

theorem eq_shift_of_shift? {t u : Instant} {seconds : Int} (h : t.shift? seconds = some u) :
    u = t.shift seconds := by
  unfold shift? at h
  split at h
  · exact (Option.some.inj h).symm
  · cases h

end Instant

namespace Component

/-- What an event takes up, if it has a start. -/
theorem span?_event {c : Component} (hkind : c.kind = .event) :
    c.span? = (c.time? .dtstart).map fun start =>
      ⟨start.instant, ((c.time? .dtend).map TimeValue.instant).or
        ((c.afterDuration start.instant).or (dayEnd start))⟩ := by
  obtain ⟨kind, properties, alarms⟩ := c
  cases hkind
  rw [span?]
  cases time? _ PropertyName.dtstart <;> rfl

end Component

/-- An event without a start that can be read meets no range. One with an end after its start meets
the ranges that end after its start and start before its end; one whose end is not after its start
meets those that end after its start and start no later than it. The end is the `DTEND`, or what
comes a duration after the start if there is no `DTEND`, or the end of the day if there is neither
and the start is a day. -/
theorem event_occursIn {c : Component} (hkind : c.kind = .event) (owner : Option Component)
    (range : TimeRange) :
    (c.time? .dtstart = none → (Predicate.occursIn range).eval owner c = false) ∧
    (∀ s e, c.time? .dtstart = some s → c.time? .dtend = some e →
      (s.instant < e.instant → (Predicate.occursIn range).eval owner c =
        (range.startsBefore e.instant && range.endsAfter s.instant)) ∧
      (e.instant ≤ s.instant → (Predicate.occursIn range).eval owner c =
        (range.startsBy s.instant && range.endsAfter s.instant))) ∧
    (∀ s d e, c.time? .dtstart = some s → c.time? .dtend = none → c.duration? = some d →
      s.instant.shift? d = some e →
      (0 < d → (Predicate.occursIn range).eval owner c =
        (range.startsBefore e && range.endsAfter s.instant)) ∧
      (d ≤ 0 → (Predicate.occursIn range).eval owner c =
        (range.startsBy s.instant && range.endsAfter s.instant))) ∧
    ∀ s, c.time? .dtstart = some s → c.time? .dtend = none →
      c.afterDuration s.instant = none →
      (s.isDay = true → (Predicate.occursIn range).eval owner c =
        (range.startsBefore s.instant.nextDay && range.endsAfter s.instant)) ∧
      (s.isDay = false → (Predicate.occursIn range).eval owner c =
        (range.startsBy s.instant && range.endsAfter s.instant)) := by
  have hspan := Component.span?_event hkind
  simp only [Predicate.eval, Component.occursIn]
  refine ⟨?unstarted, ?stop, ?duration, ?alone⟩
  case unstarted =>
    intro hs
    rw [hspan, hs]
    exact decide_eq_false (by rw [hkind]; decide)
  case stop =>
    intro s e hs he
    rw [hspan, hs, he]
    exact ⟨fun hlt => TimeRange.meets_of_lt hlt, fun hle => TimeRange.meets_of_le hle⟩
  case duration =>
    intro s d e hs hdtend hd he
    have hafter : c.afterDuration s.instant = some e := by
      rw [Component.afterDuration, hd]
      exact he
    have hshift := Instant.eq_shift_of_shift? he
    rw [hspan, hs, hdtend]
    dsimp only [Option.map_some, Option.map_none, Option.none_or]
    rw [hafter]
    constructor
    · intro hpos
      exact TimeRange.meets_of_lt (hshift ▸ Instant.lt_shift_iff.mpr hpos)
    · intro hneg
      exact TimeRange.meets_of_le (hshift ▸ Instant.shift_le hneg)
  case alone =>
    intro s hs hdtend hafter
    rw [hspan, hs, hdtend]
    dsimp only [Option.map_some, Option.map_none, Option.none_or]
    rw [hafter, Option.none_or, Component.dayEnd]
    constructor
    · intro hday
      rw [if_pos hday]
      exact TimeRange.meets_of_lt (Instant.lt_shift_iff.mpr (by decide))
    · intro hmoment
      rw [if_neg (by rw [hmoment]; decide)]
      exact TimeRange.meets_none

/-- The day before the last of 2023. Widened, the range ends at new year. -/
def thirtiethDecember : TimeRange :=
  { start := some ⟨1703894400, false⟩, stop := some ⟨1703980800, false⟩ }

def eventWith (properties : List Property) : Component := { kind := .event, properties }

/-- The last day of 2023, to the second at which the widened range starts. -/
def lastDay : Component := eventWith [
  { id := .dtstart, value := "20231231T000000Z" },
  { id := .dtend, value := "20240101T000000Z" }]

def endedBeforeStart : Component := eventWith [
  { id := .dtstart, value := "20240101T000000Z" },
  { id := .dtend, value := "20231231T000000Z" }]

def dayFromNewYear : Component := eventWith [
  { id := .dtstart, value := "20240101T000000Z" },
  { id := .duration, value := "P1D" }]

def dayBackFromNewYear : Component := eventWith [
  { id := .dtstart, value := "20240101T000000Z" },
  { id := .duration, value := "-P1D" }]

def allLastDay : Component := eventWith [{ id := .dtstart, value := "20231231" }]

def atNewYear : Component := eventWith [{ id := .dtstart, value := "20240101T000000Z" }]

theorem event_occursIn_newYear :
    (Predicate.occursIn fromSecond).eval none (eventWith []) = false ∧
    (Predicate.occursIn fromSecond).eval none lastDay = false ∧
    (Predicate.occursIn fromSecond).eval none endedBeforeStart = true ∧
    (Predicate.occursIn fromSecond).eval none dayFromNewYear = true ∧
    (Predicate.occursIn fromSecond).eval none dayBackFromNewYear = true ∧
    (Predicate.occursIn fromSecond).eval none allLastDay = false ∧
    (Predicate.occursIn fromSecond).eval none atNewYear = true ∧
    (Predicate.occursIn thirtiethDecember).eval none lastDay = true ∧
    (Predicate.occursIn thirtiethDecember).eval none dayFromNewYear = false ∧
    (Predicate.occursIn thirtiethDecember).eval none atNewYear = false := by
  have hnewYear : TimeValue.parse "20240101T000000Z" = some (.moment ⟨1704067200, false⟩) := rfl
  have hbefore : TimeValue.parse "20231231T000000Z" = some (.moment ⟨1703980800, false⟩) := rfl
  refine ⟨?_, ?_, ?_, ?_, ?_, ?_, ?_, ?_, ?_, ?_⟩
  · exact (event_occursIn (c := eventWith []) rfl none fromSecond).1 rfl
  · exact ((event_occursIn (c := lastDay) rfl none fromSecond).2.1 _ _ hbefore hnewYear).1
      (by decide)
  · exact ((event_occursIn (c := endedBeforeStart) rfl none fromSecond).2.1 _ _ hnewYear hbefore).2
      (by decide)
  · exact ((event_occursIn (c := dayFromNewYear) rfl none fromSecond).2.2.1 _ 86400
      ⟨1704153600, false⟩ hnewYear rfl rfl (by decide +kernel)).1 (by decide)
  · exact ((event_occursIn (c := dayBackFromNewYear) rfl none fromSecond).2.2.1 _ (-86400)
      ⟨1703980800, false⟩ hnewYear rfl rfl (by decide +kernel)).2 (by decide)
  · exact ((event_occursIn (c := allLastDay) rfl none fromSecond).2.2.2
      (.day ⟨1703980800, false⟩) rfl rfl rfl).1 rfl
  · exact ((event_occursIn (c := atNewYear) rfl none fromSecond).2.2.2 _ hnewYear rfl rfl).2 rfl
  · exact ((event_occursIn (c := lastDay) rfl none thirtiethDecember).2.1 _ _ hbefore hnewYear).1
      (by decide)
  · exact ((event_occursIn (c := dayFromNewYear) rfl none thirtiethDecember).2.2.1 _ 86400
      ⟨1704153600, false⟩ hnewYear rfl rfl (by decide +kernel)).1 (by decide)
  · exact ((event_occursIn (c := atNewYear) rfl none thirtiethDecember).2.2.2 _ hnewYear
      rfl rfl).2 rfl

end CalendarSearch
