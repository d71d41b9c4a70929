import CalendarSearch.Proofs.Checked

/-! # Sums of times stay within the calendar

The sums of days that are made unchecked are representable wherever predicates are evaluated. Every
other sum is checked where it is made, and has no value if it is not representable. -/

namespace CalendarSearch

open Traversal

/-! ### Sums that are checked where they are made -/

namespace Instant

theorem representable_shift? {t t' : Instant} {seconds : Int} (h : t.shift? seconds = some t') :
    t'.Representable := by
  unfold shift? at h
  split at h
  · rename_i ht
    cases h
    exact ht
  · cases h

end Instant

namespace Component

variable {c : Component}

theorem representable_time? {id : PropertyName} {t : Instant}
    (h : (c.time? id).map TimeValue.instant = some t) : t.Representable := by
  obtain ⟨v, hv, rfl⟩ := Option.map_eq_some_iff.mp h
  exact (written_time? hv).representable

theorem representable_afterDuration {start t : Instant} (h : c.afterDuration start = some t) :
    t.Representable := by
  obtain ⟨n, -, ht⟩ := Option.bind_eq_some_iff.mp h
  exact Instant.representable_shift? ht

theorem representable_dayEnd {start : TimeValue} {t : Instant} (hstart : start.instant.Written)
    (h : dayEnd start = some t) : t.Representable := by
  unfold dayEnd at h
  split at h
  · cases h
    exact hstart.representable_nextDay
  · cases h

/-- The start and the end of a component, where it has them, are representable. -/
theorem representable_span {span : Span} (h : c.span? = some span) :
    span.start.Representable ∧ ∀ stop, span.stop = some stop → stop.Representable := by
  unfold span? at h
  cases hkind : c.kind with
  | event =>
    rw [hkind] at h
    obtain ⟨start, hstart, h⟩ := Option.bind_eq_some_iff.mp h
    cases h
    have hwritten := written_time? hstart
    refine ⟨hwritten.representable, fun stop hstop => ?_⟩
    rcases Option.or_eq_some_iff.mp hstop with hend | ⟨-, hstop⟩
    · exact representable_time? hend
    · rcases Option.or_eq_some_iff.mp hstop with hafter | ⟨-, hday⟩
      · exact representable_afterDuration hafter
      · exact representable_dayEnd hwritten hday
  | todo =>
    rw [hkind] at h
    dsimp only at h
    split at h
    · rename_i start due hstart hdue
      cases h
      refine ⟨(written_time? hstart).representable, fun stop hstop => ?_⟩
      cases hstop
      exact (written_time? hdue).representable
    · rename_i start hstart hdue
      cases h
      exact ⟨(written_time? hstart).representable, fun _ => representable_afterDuration⟩
    · rename_i due hstart hdue
      cases h
      exact ⟨(written_time? hdue).representable, nofun⟩
    · cases h
  | journal | freeBusy =>
    rw [hkind] at h
    obtain ⟨start, hstart, h⟩ := Option.bind_eq_some_iff.mp h
    cases h
    have hwritten := written_time? hstart
    refine ⟨hwritten.representable, fun stop hstop => ?_⟩
    rcases Option.or_eq_some_iff.mp hstop with hday | ⟨-, hend⟩
    · exact representable_dayEnd hwritten hday
    · exact representable_time? hend
  | alarm =>
    rw [hkind] at h
    cases h

/-- An alarm fires at a written instant or at one that a checked shift gave. -/
theorem representable_firing {alarm owner : Component} {t : Instant}
    (h : alarm.firing? owner = some t) : t.Representable := by
  obtain ⟨trigger, -, h⟩ := Option.bind_eq_some_iff.mp h
  cases hv : TimeValue.parse trigger.value with
  | some v =>
    rw [hv] at h
    cases h
    exact (TimeValue.written_ofChars hv).representable
  | none =>
    rw [hv] at h
    obtain ⟨offset, -, h⟩ := Option.bind_eq_some_iff.mp h
    obtain ⟨time, -, ht⟩ := Option.bind_eq_some_iff.mp h
    exact Instant.representable_shift? ht

end Component

namespace Duration

theorem total_step {p p' : Progress} {c : Char} (h : p.step c = some p')
    (hp : p.total ≤ limit) : p'.total ≤ limit := by
  unfold Progress.step at h
  split at h
  · cases h
    exact hp
  · split at h
    · cases h
      exact hp
    · simp only [Option.bind_eq_bind, Option.bind_eq_some_iff] at h
      obtain ⟨n, -, seconds, -, h⟩ := h
      split at h
      · rename_i htotal
        cases h
        exact htotal
      · cases h

/-- The running total is checked at every unit, so it never passes the limit. -/
theorem total_foldlM {cs : List Char} {p p' : Progress} (h : cs.foldlM Progress.step p = some p')
    (hp : p.total ≤ limit) : p'.total ≤ limit := by
  induction cs generalizing p with
  | nil =>
    cases h
    exact hp
  | cons c cs ih =>
    rw [List.foldlM_cons] at h
    obtain ⟨q, hq, h⟩ := Option.bind_eq_some_iff.mp h
    exact ih h (total_step hq hp)

/-- No accepted duration is longer than the limit. -/
theorem magnitude_le {cs : List Char} {n : Nat} (h : magnitude cs = some n) : n ≤ limit := by
  obtain ⟨p, hp, h⟩ := Option.bind_eq_some_iff.mp h
  have htotal := total_foldlM hp (Nat.zero_le limit)
  split at h
  · cases h
    exact htotal
  · cases h

/-- A duration with a sign is as long as without it, so the sign takes none past the limit. -/
theorem natAbs_parse_le {s : String} {n : Int} (h : parse s = some n) : n.natAbs ≤ limit := by
  unfold parse ofChars at h
  split at h
  · obtain ⟨signed, hsigned, rfl⟩ := Option.map_eq_some_iff.mp h
    obtain ⟨m, hm, hcast⟩ := Option.bind_eq_some_iff.mp hsigned
    cases hcast
    rw [Int.natAbs_neg]
    exact magnitude_le hm
  · obtain ⟨m, hm, rfl⟩ := Option.map_eq_some_iff.mp h
    exact magnitude_le hm
  · obtain ⟨m, hm, rfl⟩ := Option.map_eq_some_iff.mp h
    exact magnitude_le hm
  · cases h

end Duration

/-! ### Every sum -/

/-- The range has been read from its attributes; a zone may have been attached to it since. -/
def TimeRange.Parsed (r : TimeRange) : Prop :=
  ∃ start stop base, parse start stop = .ok base ∧ r = { base with zone := r.zone }

theorem TimeRange.Parsed.written {r : TimeRange} (h : r.Parsed) : r.Written := by
  obtain ⟨start, stop, base, hparse, hr⟩ := h
  obtain ⟨hstart, hstop⟩ := written_parse hparse
  rw [hr]
  exact ⟨hstart, hstop⟩

theorem Planner.Gives.parsed {x : Planner} {r : TimeRange} (h : x.Gives r) : r.Parsed := by
  obtain ⟨text, htext⟩ := h
  simp only [readRange, bind_eq_ok, pure_eq_ok] at htext
  obtain ⟨base, hbase, rfl⟩ := htext
  exact ⟨text.start, text.stop, base, hbase, rfl⟩

/-- No sum leaves the calendar. The four that are made unchecked are representable: both bounds of a
range, moved by a day, and the end of the day of any value. So a checked evaluation of a predicate
gives what the plain one gives, if its ranges have been read from attributes, as they have in the
predicates of every plan. Durations stay within their limit under either sign, and what is summed up
with them is representable or has no value. -/
theorem sums_representable :
    (∀ r : TimeRange, r.Parsed →
      ∀ t, r.earliest = some t ∨ r.latest = some t → t.Representable) ∧
    (∀ (c : Component) (id : PropertyName) (v : TimeValue),
      c.time? id = some v ∨ v ∈ c.timesOf id → v.instant.nextDay.Representable) ∧
    (∀ p : Predicate, p.RangesAre TimeRange.Parsed →
      ∀ owner c, Checked.eval owner c p = .ok (p.eval owner c)) ∧
    (∀ (x : Planner) (f : CompFilter) (plan : Plan) (p : Predicate),
      x.plan f = .ok plan → plan.Evaluates x p → p.RangesAre TimeRange.Parsed) ∧
    (∀ (s : String) (n : Int), Duration.parse s = some n → n.natAbs ≤ Duration.limit) ∧
    (∀ (c : Component) (span : Component.Span), c.span? = some span →
      span.start.Representable ∧ ∀ stop, span.stop = some stop → stop.Representable) ∧
    ∀ (alarm owner : Component) (t : Instant), alarm.firing? owner = some t → t.Representable := by
  refine ⟨?bounds, ?days, ?evaluation, ?plans, fun _ _ => Duration.natAbs_parse_le,
    fun _ _ => Component.representable_span, fun _ _ _ => Component.representable_firing⟩
  case bounds =>
    rintro r hr t (hearliest | hlatest)
    · obtain ⟨s, hs, rfl⟩ := Option.map_eq_some_iff.mp hearliest
      exact (hr.written.start s hs).representable_previousDay
    · obtain ⟨s, hs, rfl⟩ := Option.map_eq_some_iff.mp hlatest
      exact (hr.written.stop s hs).representable_nextDay
  case days =>
    rintro c id v (htime | hmem)
    · exact (Component.written_time? htime).representable_nextDay
    · exact (Component.written_timesOf hmem).representable_nextDay
  case evaluation =>
    intro p hp
    exact Checked.eval_eq_ok p (Predicate.rangesAre_imp (fun _ => TimeRange.Parsed.written) hp)
  case plans =>
    intro x f plan p hplan hp
    exact Predicate.rangesAre_imp (fun _ => Planner.Gives.parsed)
      (Plan.ranges_evaluated hplan hp)

/-- Events until the leap second at the end of the year 9999. -/
def lastEvents : CompFilter where
  name := "VCALENDAR"
  compFilters := [{ name := "VEVENT", timeRange := some { stop := some "99991231T235960Z" } }]

def untilLast : TimeRange := { start := none, stop := some ⟨253402300799, true⟩ }

def lastPlan : Plan where
  root := some (.and [.kind .event, .occursIn untilLast])
  named := [.event]
  mode := .honorTest

def lastAlarm : Component where
  kind := .alarm
  properties := [{ id := .trigger, value := "P1W" }]

def lastEvent : Component where
  kind := .event
  properties := [{ id := .dtstart, value := "99991231" }]
  alarms := [lastAlarm]

theorem sums_representable_lastEvent :
    (untilLast.Parsed ∧ untilLast.latest = some ⟨253402387199, false⟩ ∧
      (⟨253402387199, false⟩ : Instant).Representable) ∧
    (lastEvent.time? .dtstart = some (.day ⟨253402214400, false⟩) ∧
      (⟨253402300800, false⟩ : Instant).Representable) ∧
    (({ index := .standard } : Planner).plan lastEvents = .ok lastPlan ∧
      Checked.eval none lastEvent (.and [.kind .event, .occursIn untilLast]) = .ok true) ∧
    (Duration.parse "P1W" = some 604800 ∧ (604800 : Int).natAbs ≤ Duration.limit) ∧
    (lastEvent.span? = some ⟨⟨253402214400, false⟩, some ⟨253402300800, false⟩⟩ ∧
      (⟨253402214400, false⟩ : Instant).Representable) ∧
    lastAlarm.firing? lastEvent = some ⟨253402819200, false⟩ ∧
      (⟨253402819200, false⟩ : Instant).Representable := by
  obtain ⟨hbounds, hdays, hevaluation, hplans, hdurations, hspans, hfirings⟩ := sums_representable
  have hrange : untilLast.Parsed := ⟨none, some "99991231T235960Z", untilLast, rfl, rfl⟩
  have hlatest : untilLast.latest = some ⟨253402387199, false⟩ := rfl
  have hstart : lastEvent.time? .dtstart = some (.day ⟨253402214400, false⟩) := rfl
  have hplan : ({ index := .standard } : Planner).plan lastEvents = .ok lastPlan := rfl
  have hduration : Duration.parse "P1W" = some 604800 := rfl
  have hspan : lastEvent.span? = some ⟨⟨253402214400, false⟩, some ⟨253402300800, false⟩⟩ := rfl
  have hfiring : lastAlarm.firing? lastEvent = some ⟨253402819200, false⟩ := by decide +kernel
  exact ⟨⟨hrange, hlatest, hbounds _ hrange _ (.inr hlatest)⟩,
    ⟨hstart, hdays _ _ _ (.inl hstart)⟩,
    ⟨hplan, hevaluation _ (hplans _ _ _ _ hplan (.root rfl)) none lastEvent⟩,
    ⟨hduration, hdurations _ _ hduration⟩, ⟨hspan, (hspans _ _ hspan).1⟩,
    hfiring, hfirings _ _ _ hfiring⟩

/-- A range that has not been read may end at the last instant of all, which has no day after it. -/
example : Checked.latest { start := none, stop := some ⟨8210266876799, false⟩ } =
    .error ⟨8210266963199, false⟩ := rfl

end CalendarSearch
