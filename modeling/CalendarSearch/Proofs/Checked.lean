import CalendarSearch.Predicate.Eval
import CalendarSearch.Proofs.Days
import CalendarSearch.Proofs.FieldWidths
import CalendarSearch.Proofs.Ranges

/-! # Evaluation with checked sums

A range is widened by a day at each end, and the value of a date takes up its whole day. Whether
these sums are representable is not asked where they are made. A checked evaluation asks, and stops
at the first sum that is not. It never stops if the bounds of all ranges are written instants: the
texts in a component give no others, as their years have four digits at most. The sums of times and
durations are not looked at here: they are checked where they are made. -/

namespace CalendarSearch

open Traversal

/-! ### Instants in years of four digits -/

namespace Instant

/-- Four digits of year, with a sign, leave the second between the years -9999 and 10000. -/
theorem Written.second_bounds {t : Instant} (h : t.Written) :
    (Date.daysBeforeYear (-9999) - Date.epochDay) * secondsPerDay ≤ t.second ∧
      t.second < (Date.daysBeforeYear 10000 - Date.epochDay) * secondsPerDay := by
  obtain ⟨d, c, hd, hyear, hc, rfl⟩ := h
  obtain ⟨hfirst, hlast⟩ := Date.dayNumber_bounds hd
  have hlow : Date.daysBeforeYear (-9999) ≤ Date.daysBeforeYear d.year :=
    Date.daysBeforeYear_mono (by omega)
  have hhigh : Date.daysBeforeYear (d.year + 1) ≤ Date.daysBeforeYear 10000 :=
    Date.daysBeforeYear_mono (by omega)
  simp only [Clock.valid, Bool.and_eq_true, decide_eq_true_eq] at hc
  simp only [ofDateClock, secondsPerDay]
  omega

/-- A day either way from a written instant stays far inside what can be represented. -/
theorem Written.representable_shift {t : Instant} (h : t.Written) {seconds : Int}
    (hseconds : seconds.natAbs ≤ 86400) : (t.shift seconds).Representable := by
  obtain ⟨hlow, hhigh⟩ := h.second_bounds
  have hfirst : firstSecond = -8334601228800 := rfl
  have hlast : lastSecond = 8210266876799 := rfl
  have hafter : (Date.daysBeforeYear 10000 - Date.epochDay) * secondsPerDay = 253402300800 := rfl
  have hbefore : (Date.daysBeforeYear (-9999) - Date.epochDay) * secondsPerDay =
    -377705116800 := rfl
  rw [Representable, hfirst, hlast]
  unfold shift
  split
  · omega
  · split <;> dsimp only <;> omega

theorem Written.representable {t : Instant} (h : t.Written) : t.Representable :=
  shift_zero t ▸ h.representable_shift (by decide)

theorem Written.representable_nextDay {t : Instant} (h : t.Written) : t.nextDay.Representable :=
  h.representable_shift (by decide)

theorem Written.representable_previousDay {t : Instant} (h : t.Written) :
    t.previousDay.Representable :=
  h.representable_shift (by decide)

end Instant

/-- Every time of a component was parsed from its text, so it is written. -/
theorem Component.written_time? {c : Component} {id : PropertyName} {v : TimeValue}
    (h : c.time? id = some v) : v.instant.Written := by
  obtain ⟨p, -, hv⟩ := Option.bind_eq_some_iff.mp h
  exact TimeValue.written_ofChars hv

theorem Component.written_timesOf {c : Component} {id : PropertyName} {v : TimeValue}
    (h : v ∈ c.timesOf id) : v.instant.Written := by
  obtain ⟨p, -, hp⟩ := List.mem_flatMap.mp h
  obtain ⟨piece, -, hpiece⟩ := List.mem_filterMap.mp hp
  exact TimeValue.written_ofChars hpiece

/-! ### Checked evaluation -/

namespace Checked

/-- A sum; one that is not representable ends the evaluation. -/
def sum (t : Instant) : Except Instant Instant := if t.Representable then .ok t else .error t

/-- Is the test true of one of the elements? All of them are tested, so that no sum is left out. -/
def any {α : Type} (test : α → Except Instant Bool) (as : List α) : Except Instant Bool := do
  return (← as.mapM test).any id

def earliest (r : TimeRange) : Except Instant (Option Instant) :=
  r.start.mapM fun t => sum t.previousDay

def latest (r : TimeRange) : Except Instant (Option Instant) := r.stop.mapM fun t => sum t.nextDay

def contains (r : TimeRange) (t : Instant) : Except Instant Bool := do
  let earliest ← earliest r
  let latest ← latest r
  return earliest.all (· ≤ t) && latest.all (t < ·)

def meets (r : TimeRange) (start : Instant) (stop : Option Instant) : Except Instant Bool :=
  match stop with
  | some stop =>
    if start < stop then do
      let latest ← latest r
      let earliest ← earliest r
      return latest.all (start < ·) && earliest.all (· < stop)
    else contains r start
  | none => contains r start

def dayEnd (start : TimeValue) : Except Instant (Option Instant) :=
  if start.isDay then some <$> sum start.instant.nextDay else return none

/-- When a component takes place. The end of the day is summed up even if it is not needed; to-dos
have no such sum. -/
def span? (c : Component) : Except Instant (Option Component.Span) :=
  match c.kind with
  | .event =>
    match c.time? .dtstart with
    | some start => do
      let day ← dayEnd start
      let stop := ((c.time? .dtend).map TimeValue.instant).or
        ((c.afterDuration start.instant).or day)
      return some ⟨start.instant, stop⟩
    | none => return none
  | .journal | .freeBusy =>
    match c.time? .dtstart with
    | some start => do
      let day ← dayEnd start
      return some ⟨start.instant, day.or ((c.time? .dtend).map TimeValue.instant)⟩
    | none => return none
  | .todo | .alarm => return c.span?

def occursIn (c : Component) (range : TimeRange) : Except Instant Bool := do
  match ← span? c with
  | some span => meets range span.start span.stop
  | none => return c.kind = .todo

def firesIn (alarm owner : Component) (range : TimeRange) : Except Instant Bool :=
  match alarm.firing? owner with
  | some t => contains range t
  | none => return false

def timeIn (range : TimeRange) : TimeValue → Except Instant Bool
  | .day start => do
    let stop ← sum start.nextDay
    meets range start (some stop)
  | .moment t => contains range t

def propertyIn (c : Component) (id : PropertyName) (range : TimeRange) : Except Instant Bool :=
  if id = .valarm then any (fun alarm => firesIn alarm c range) c.alarms
  else any (timeIn range) (c.timesOf id)

mutual

/-- Is the predicate true of the component? Tests without times are made as they are. -/
def eval (owner : Option Component) (c : Component) : Predicate → Except Instant Bool
  | .and parts => do return (← evalParts owner c parts).all id
  | .or parts => do return (← evalParts owner c parts).any id
  | .not part => do return !(← eval owner c part)
  | .occursIn range => occursIn c range
  | .someAlarm part => any (fun alarm => eval (some c) alarm part) c.alarms
  | .firesIn range =>
    match owner with
    | some owner => firesIn c owner range
    | none => return false
  | .propertyIn id range => propertyIn c id range
  | .kind k => return (Predicate.kind k).eval owner c
  | .property id expected => return (Predicate.property id expected).eval owner c
  | .propertyText id test => return (Predicate.propertyText id test).eval owner c
  | .param id name expected => return (Predicate.param id name expected).eval owner c
  | .paramText id name test => return (Predicate.paramText id name test).eval owner c

def evalParts (owner : Option Component) (c : Component) :
    List Predicate → Except Instant (List Bool)
  | [] => return []
  | p :: ps => do
    let first ← eval owner c p
    let rest ← evalParts owner c ps
    return first :: rest

end

/-! ### No sum fails -/

theorem sum_eq_ok {t : Instant} (h : t.Representable) : sum t = .ok t := if_pos h

/-- A search with checked tests is the plain one as long as no test it can reach overflows. -/
theorem any_eq_ok {α : Type} {test : α → Except Instant Bool} {plain : α → Bool} {as : List α}
    (h : ∀ a ∈ as, test a = .ok (plain a)) : any test as = .ok (as.any plain) := by
  have hmap : as.mapM test = .ok (as.map plain) := by
    rw [mapM_eq_ok, List.forall₂_map_right_iff, List.forall₂_same]
    exact h
  rw [any, hmap]
  show Except.ok ((as.map plain).any id) = _
  rw [List.any_map, Function.id_comp]

section Ranges

variable {r : TimeRange} (hr : r.Written)

include hr

theorem earliest_eq_ok : earliest r = .ok r.earliest := by
  unfold earliest TimeRange.earliest
  cases hstart : r.start with
  | none => rfl
  | some t =>
    rw [Option.mapM_some, sum_eq_ok (hr.start t hstart).representable_previousDay]
    rfl

theorem latest_eq_ok : latest r = .ok r.latest := by
  unfold latest TimeRange.latest
  cases hstop : r.stop with
  | none => rfl
  | some t =>
    rw [Option.mapM_some, sum_eq_ok (hr.stop t hstop).representable_nextDay]
    rfl

theorem contains_eq_ok (t : Instant) : contains r t = .ok (r.contains t) := by
  rw [contains, earliest_eq_ok hr, latest_eq_ok hr]
  rfl

theorem meets_eq_ok (start : Instant) (stop : Option Instant) :
    meets r start stop = .ok (r.meets start stop) := by
  unfold meets TimeRange.meets
  cases stop with
  | none => exact contains_eq_ok hr start
  | some stop =>
    dsimp only
    split
    · rw [earliest_eq_ok hr, latest_eq_ok hr]
      rfl
    · exact contains_eq_ok hr start

end Ranges

theorem dayEnd_eq_ok {start : TimeValue} (h : start.instant.Written) :
    dayEnd start = .ok (Component.dayEnd start) := by
  unfold dayEnd Component.dayEnd
  split
  · rw [sum_eq_ok h.representable_nextDay]
    rfl
  · rfl

/-- The span of a component adds at most a day or a duration, and the duration is checked by the
code itself. -/
theorem span?_eq_ok (c : Component) : span? c = .ok c.span? := by
  have hday {start : TimeValue} (hstart : c.time? .dtstart = some start) :
      dayEnd start = .ok (Component.dayEnd start) := dayEnd_eq_ok (Component.written_time? hstart)
  unfold span? Component.span?
  cases c.kind with
  | todo => rfl
  | alarm => rfl
  | event | journal | freeBusy =>
    cases hstart : c.time? .dtstart with
    | none => rfl
    | some start =>
      simp only [hday hstart]
      rfl

section Tests

variable {range : TimeRange} (hr : range.Written)

include hr

theorem occursIn_eq_ok (c : Component) : occursIn c range = .ok (c.occursIn range) := by
  rw [occursIn, span?_eq_ok]
  unfold Component.occursIn
  cases c.span? with
  | none => rfl
  | some span => exact meets_eq_ok hr span.start span.stop

theorem firesIn_eq_ok (alarm owner : Component) :
    firesIn alarm owner range = .ok (alarm.firesIn owner range) := by
  unfold firesIn Component.firesIn
  cases alarm.firing? owner with
  | none => rfl
  | some t => exact contains_eq_ok hr t

theorem timeIn_eq_ok {v : TimeValue} (h : v.instant.Written) :
    timeIn range v = .ok (Component.timeIn range v) := by
  cases v with
  | day start =>
    have hsum : sum start.nextDay = .ok start.nextDay := sum_eq_ok h.representable_nextDay
    rw [timeIn, hsum]
    exact meets_eq_ok hr start (some start.nextDay)
  | moment t => exact contains_eq_ok hr t

theorem propertyIn_eq_ok (c : Component) (id : PropertyName) :
    propertyIn c id range = .ok (c.propertyIn id range) := by
  unfold propertyIn Component.propertyIn
  split
  · exact any_eq_ok fun alarm _ => firesIn_eq_ok hr alarm c
  · exact any_eq_ok fun v hv => timeIn_eq_ok hr (Component.written_timesOf hv)

end Tests

open Predicate

mutual

/-- Over written ranges no sum of an evaluation overflows, so the checked evaluator is the plain
one. -/
theorem eval_eq_ok : ∀ (p : Predicate), p.RangesAre TimeRange.Written →
    ∀ (owner : Option Component) (c : Component), eval owner c p = .ok (p.eval owner c)
  | .and ps, h, owner, c => by
    rw [eval, evalParts_eq_ok ps (ofTests_rangeIs.everywhere_and.mp h), eval_and]
    show Except.ok ((ps.map (Predicate.eval owner c)).all id) = _
    rw [List.all_map, Function.id_comp]
  | .or ps, h, owner, c => by
    rw [eval, evalParts_eq_ok ps (ofTests_rangeIs.everywhere_or.mp h), eval_or]
    show Except.ok ((ps.map (Predicate.eval owner c)).any id) = _
    rw [List.any_map, Function.id_comp]
  | .not p, h, owner, c => by
    rw [eval, eval_eq_ok p (ofTests_rangeIs.everywhere_not.mp h), eval_not]
    rfl
  | .someAlarm p, h, owner, c => by
    rw [eval, eval_someAlarm]
    exact any_eq_ok fun alarm _ =>
      eval_eq_ok p (ofTests_rangeIs.everywhere_someAlarm.mp h) (some c) alarm
  | .occursIn range, h, owner, c => by
    rw [eval, occursIn_eq_ok (h _ (.whole _) range rfl), Predicate.eval]
  | .firesIn range, h, owner, c => by
    cases owner with
    | none => rfl
    | some owner => exact firesIn_eq_ok (h _ (.whole _) range rfl) c owner
  | .propertyIn id range, h, owner, c => by
    rw [eval, propertyIn_eq_ok (h _ (.whole _) range rfl), Predicate.eval]
  | .kind _, _, _, _ | .property _ _, _, _, _ | .propertyText _ _, _, _, _
  | .param _ _ _, _, _, _ | .paramText _ _ _, _, _, _ => rfl

theorem evalParts_eq_ok : ∀ (ps : List Predicate), (∀ p ∈ ps, p.RangesAre TimeRange.Written) →
    ∀ (owner : Option Component) (c : Component),
      evalParts owner c ps = .ok (ps.map (Predicate.eval owner c))
  | [], _, _, _ => by rw [evalParts]; rfl
  | p :: ps, h, owner, c => by
    obtain ⟨hp, hps⟩ := List.forall_mem_cons.mp h
    rw [evalParts, eval_eq_ok p hp, evalParts_eq_ok ps hps]
    rfl

end

end Checked

end CalendarSearch
