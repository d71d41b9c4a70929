import CalendarSearch.Proofs.Overlap
import Mathlib.Data.Option.Basic

/-! # The widened range as a tolerance for zones

A value without a zone is read in UTC, but the clocks that it was meant for may be up to a day ahead
or behind. It meets the widened range just if some shift of at most a day makes it meet the range as
that is written. So nothing that a zone could move into the range is missed, and nothing that lies
further away is let in. -/

namespace CalendarSearch

namespace Instant

/-- The instant that clocks so many seconds ahead show. A change of zone keeps a leap second, as it
is one on all clocks, where `shift` moves on from the second before or after it. Both are the same
for every other instant: see `shift_eq_moved`. -/
def moved (t : Instant) (offset : Int) : Instant := ⟨t.second + offset, t.leap⟩

/-- Away from leap seconds a change of zone is a sum of seconds. -/
theorem shift_eq_moved {t : Instant} (h : t.leap = false) (seconds : Int) :
    t.shift seconds = t.moved seconds := by
  obtain ⟨second, leap⟩ := t
  cases h
  unfold shift moved
  by_cases hzero : seconds = 0
  · simp [hzero]
  · simp [hzero]

@[simp] theorem second_moved (t : Instant) (offset : Int) :
    (t.moved offset).second = t.second + offset := rfl

/-- The first second that does not come before the instant. -/
def nextSecond (t : Instant) : Int := t.second + if t.leap then 1 else 0

theorem rank_eq (t : Instant) : t.rank = t.second + t.nextSecond := by
  rw [rank, nextSecond, Int.two_mul, Int.add_assoc]

theorem second_le_nextSecond (t : Instant) :
    t.second ≤ t.nextSecond ∧ t.nextSecond ≤ t.second + 1 := by
  unfold nextSecond
  split <;> omega

theorem nextSecond_of_not_leap {t : Instant} (h : t.leap = false) : t.nextSecond = t.second := by
  rw [nextSecond, h, if_neg Bool.false_ne_true, Int.add_zero]

@[simp] theorem nextSecond_moved (t : Instant) (offset : Int) :
    (t.moved offset).nextSecond = t.nextSecond + offset := Int.add_right_comm _ _ _

/-- A leap second ranks between two seconds, so a rank counts half seconds. -/
theorem rank_moved (t : Instant) (offset : Int) : (t.moved offset).rank = t.rank + 2 * offset := by
  rw [rank_eq, rank_eq, second_moved, nextSecond_moved]
  omega

theorem rank_previousDay {t : Instant} (h : t.leap = false) :
    t.previousDay.rank = t.rank - 2 * secondsPerDay := by
  rw [previousDay, shift_eq_moved h, rank_moved]
  omega

theorem rank_nextDay {t : Instant} (h : t.leap = false) :
    t.nextDay.rank = t.rank + 2 * secondsPerDay := by
  rw [nextDay, shift_eq_moved h, rank_moved]

variable {b t : Instant}

theorem le_iff_of_not_leap (h : b.leap = false) : b ≤ t ↔ b.second ≤ t.second := by
  have ht := t.second_le_nextSecond
  rw [le_iff, rank_eq, rank_eq, nextSecond_of_not_leap h]
  omega

theorem lt_iff_of_not_leap (h : b.leap = false) : t < b ↔ t.second < b.second := by
  rw [← not_le, le_iff_of_not_leap h, Int.not_le]

/-- A leap second comes after its second, so it counts as the next one here. -/
theorem lt_iff_nextSecond (h : b.leap = false) : b < t ↔ b.second < t.nextSecond := by
  have ht := t.second_le_nextSecond
  rw [lt_iff, rank_eq, rank_eq, nextSecond_of_not_leap h]
  omega

theorem second_lt_nextSecond {s e : Instant} (h : s < e) : s.second < e.nextSecond := by
  have hs := s.second_le_nextSecond
  have he := e.second_le_nextSecond
  rw [lt_iff, rank_eq, rank_eq] at h
  omega

end Instant

namespace TimeRange

/-- Does the instant lie in the range as it is written? -/
def encloses (r : TimeRange) (t : Instant) : Bool := r.start.all (· ≤ t) && r.stop.all (t < ·)

/-- Does the span, which ends after its start, cross the range as it is written? -/
def crosses (r : TimeRange) (start stop : Instant) : Bool :=
  r.stop.all (start < ·) && r.start.all (· < stop)

/-- The bounds of the range are in order, and they are no leap seconds. -/
structure Regular (r : TimeRange) : Prop where
  ordered : ∀ s e, r.start = some s → r.stop = some e → s < e
  start : ∀ s, r.start = some s → s.leap = false
  stop : ∀ e, r.stop = some e → e.leap = false

/-- A range that is made of bounds without leap seconds. -/
theorem regular_of_ofBounds {start stop : Option Instant} {r : TimeRange}
    (h : ofBounds start stop = .ok r) (hstart : ∀ s, start = some s → s.leap = false)
    (hstop : ∀ e, stop = some e → e.leap = false) : r.Regular := by
  obtain ⟨-, hordered, rfl⟩ := ofBounds_eq_ok.mp h
  exact ⟨hordered, hstart, hstop⟩

/-! ### Offsets of at most a day -/

/-- At most a day ahead or behind. -/
def WithinDay (offset : Int) : Prop :=
  -Instant.secondsPerDay ≤ offset ∧ offset ≤ Instant.secondsPerDay

instance (offset : Int) : Decidable (WithinDay offset) := inferInstanceAs (Decidable (_ ∧ _))

/-- Offsets of at most a day reach between two bounds, which have room between them, just if the
lower one is at most a day, and the upper one above a day back. -/
theorem exists_offset_iff {low high : Option Int}
    (hroom : ∀ l h, low = some l → high = some h → l < h) :
    (∃ offset, WithinDay offset ∧
      low.all (· ≤ offset) = true ∧ high.all (offset < ·) = true) ↔
    low.all (· ≤ Instant.secondsPerDay) = true ∧ high.all (-Instant.secondsPerDay < ·) = true := by
  have hday : Instant.secondsPerDay = 86400 := rfl
  simp only [Option.all_eq_true, decide_eq_true_eq]
  constructor
  · rintro ⟨offset, ⟨hback, hahead⟩, hlow, hhigh⟩
    constructor
    · intro l hl
      exact Int.le_trans (hlow l hl) hahead
    · intro h hh
      exact Int.lt_of_le_of_lt hback (hhigh h hh)
  · rintro ⟨hlow, hhigh⟩
    -- the offset furthest back that reaches the lower bound
    cases low with
    | none =>
      exact ⟨-Instant.secondsPerDay, ⟨Int.le_refl _, by decide⟩, by simp, hhigh⟩
    | some l =>
      have hl := hlow l rfl
      refine ⟨max (-Instant.secondsPerDay) l, ⟨by omega, by omega⟩, ?_, ?_⟩
      · rintro l' ⟨⟩
        omega
      · intro h hh
        have hlh := hroom l h rfl hh
        have hback := hhigh h hh
        omega

/-! ### Bounds seen from a shifted instant -/

variable {r : TimeRange}

/-- Tests of a bound agree if they agree on what it is. An open end passes all of them. -/
theorem all_congr {bound : Option Instant} {p q : Instant → Prop} [DecidablePred p]
    [DecidablePred q] (h : ∀ t, bound = some t → (p t ↔ q t)) :
    bound.all (fun t => p t) = bound.all fun t => q t := by
  cases bound with
  | none => rfl
  | some t => exact decide_eq_decide.mpr (h t rfl)

/-- How far the start of the range lies after a second. -/
def startAfter (r : TimeRange) (second : Int) : Option Int := r.start.map (·.second - second)

/-- How far the end of the range lies after a second. -/
def stopAfter (r : TimeRange) (second : Int) : Option Int := r.stop.map (·.second - second)

theorem start_le_moved (hr : r.Regular) (t : Instant) (offset : Int) :
    r.start.all (· ≤ t.moved offset) = (r.startAfter t.second).all (· ≤ offset) := by
  rw [startAfter, Option.all_map]
  refine all_congr fun b hb => ?_
  rw [Instant.le_iff_of_not_leap (hr.start b hb), Instant.second_moved]
  omega

theorem start_lt_moved (hr : r.Regular) (t : Instant) (offset : Int) :
    r.start.all (· < t.moved offset) = (r.startAfter (t.nextSecond - 1)).all (· ≤ offset) := by
  rw [startAfter, Option.all_map]
  refine all_congr fun b hb => ?_
  rw [Instant.lt_iff_nextSecond (hr.start b hb), Instant.nextSecond_moved]
  omega

theorem moved_lt_stop (hr : r.Regular) (t : Instant) (offset : Int) :
    r.stop.all (t.moved offset < ·) = (r.stopAfter t.second).all (offset < ·) := by
  rw [stopAfter, Option.all_map]
  refine all_congr fun b hb => ?_
  rw [Instant.lt_iff_of_not_leap (hr.stop b hb), Instant.second_moved]
  omega

/-! ### The widened range

Its tests are those of the range as it is written, on clocks that are a whole day off. -/

/-- Reaching a day further is the same as moving the instant a day, for a bound that is no leap
second. -/
theorem startsBy_eq (hr : r.Regular) (t : Instant) :
    r.startsBy t = r.start.all (· ≤ t.moved Instant.secondsPerDay) := by
  rw [startsBy, earliest, Option.all_map]
  refine all_congr fun b hb => ?_
  rw [Instant.le_iff, Instant.le_iff, Instant.rank_previousDay (hr.start b hb), Instant.rank_moved]
  omega

theorem startsBefore_eq (hr : r.Regular) (t : Instant) :
    r.startsBefore t = r.start.all (· < t.moved Instant.secondsPerDay) := by
  rw [startsBefore, earliest, Option.all_map]
  refine all_congr fun b hb => ?_
  rw [Instant.lt_iff, Instant.lt_iff, Instant.rank_previousDay (hr.start b hb), Instant.rank_moved]
  omega

theorem endsAfter_eq (hr : r.Regular) (t : Instant) :
    r.endsAfter t = r.stop.all (t.moved (-Instant.secondsPerDay) < ·) := by
  rw [endsAfter, latest, Option.all_map]
  refine all_congr fun b hb => ?_
  rw [Instant.lt_iff, Instant.lt_iff, Instant.rank_nextDay (hr.stop b hb), Instant.rank_moved]
  omega

/-- A start and an end of the range have room between them, seen from the two ends of a span. -/
theorem startAfter_lt_stopAfter (hr : r.Regular) {first last : Int} (h : first ≤ last) :
    ∀ l h, r.startAfter last = some l → r.stopAfter first = some h → l < h := by
  intro l h hl hh
  obtain ⟨b, hstart, rfl⟩ := Option.map_eq_some_iff.mp hl
  obtain ⟨b', hstop, rfl⟩ := Option.map_eq_some_iff.mp hh
  have hlt := (Instant.lt_iff_of_not_leap (hr.stop b' hstop)).mp (hr.ordered b b' hstart hstop)
  omega

/-- Some shift within a day makes the interval cross exactly when the widened bounds are met. -/
theorem crosses_moved_iff (hr : r.Regular) {s e : Instant} (hse : s < e) :
    (∃ offset, WithinDay offset ∧ r.crosses (s.moved offset) (e.moved offset) = true) ↔
      r.startsBefore e = true ∧ r.endsAfter s = true := by
  have hspan : s.second ≤ e.nextSecond - 1 :=
    Int.le_sub_one_of_lt (Instant.second_lt_nextSecond hse)
  have hoffset := exists_offset_iff (startAfter_lt_stopAfter hr hspan)
  simp only [← start_lt_moved hr, ← moved_lt_stop hr] at hoffset
  rw [startsBefore_eq hr, endsAfter_eq hr, ← hoffset]
  simp only [crosses, Bool.and_eq_true, and_comm (a := r.stop.all _ = true)]

theorem encloses_moved_iff (hr : r.Regular) (t : Instant) :
    (∃ offset, WithinDay offset ∧ r.encloses (t.moved offset) = true) ↔
      r.startsBy t = true ∧ r.endsAfter t = true := by
  have hoffset := exists_offset_iff (startAfter_lt_stopAfter hr (Int.le_refl t.second))
  simp only [← start_le_moved hr, ← moved_lt_stop hr] at hoffset
  rw [startsBy_eq hr, endsAfter_eq hr, ← hoffset]
  simp only [encloses, Bool.and_eq_true]

theorem contains_eq (t : Instant) : r.contains t = (r.startsBy t && r.endsAfter t) := rfl

/-- A span meets the widened range just if some shift of at most a day makes it cross the range as
it is written, and an instant lies in the widened range just if some such shift puts it into the
range as it is written. A span without an end after its start is the instant of its start. -/
theorem widened_iff_shifted {r : TimeRange} (hr : r.Regular) :
    (∀ s e : Instant, s < e → (r.meets s (some e) = true ↔
      ∃ offset, WithinDay offset ∧ r.crosses (s.moved offset) (e.moved offset) = true)) ∧
    (∀ t : Instant, r.contains t = true ↔
      ∃ offset, WithinDay offset ∧ r.encloses (t.moved offset) = true) ∧
    (∀ s : Instant, r.meets s none = r.contains s) ∧
    ∀ s e : Instant, e ≤ s → r.meets s (some e) = r.contains s := by
  refine ⟨?span, ?instant, fun _ => rfl, ?_⟩
  case span =>
    intro s e hse
    rw [crosses_moved_iff hr hse, meets_of_lt hse, Bool.and_eq_true]
  case instant =>
    intro t
    rw [encloses_moved_iff hr, contains_eq, Bool.and_eq_true]
  · intro s e hes
    rw [meets_of_le hes, contains_eq]

def secondOfSeptember : TimeRange where
  start := some ⟨1094083200, false⟩
  stop := some ⟨1094169600, false⟩

/-- Two hours on the day before are met if clocks are half a day ahead. The leap second at the end
of the day after lies in the range on clocks that are a day behind, and the start of the day after
that on none. -/
theorem widened_iff_shifted_september :
    secondOfSeptember.Regular ∧
    ((⟨1094032800, false⟩ : Instant) < ⟨1094040000, false⟩ ∧
      secondOfSeptember.meets ⟨1094032800, false⟩ (some ⟨1094040000, false⟩) = true) ∧
    secondOfSeptember.contains ⟨1094255999, true⟩ = true ∧
    (¬ ∃ offset, WithinDay offset ∧
      secondOfSeptember.encloses (Instant.moved ⟨1094256000, false⟩ offset) = true) ∧
    secondOfSeptember.meets ⟨1094256000, false⟩ none = false ∧
    ((⟨1094040000, false⟩ : Instant) ≤ ⟨1094256000, false⟩ ∧
      secondOfSeptember.meets ⟨1094256000, false⟩ (some ⟨1094040000, false⟩) = false) := by
  have hbounds : ofBounds secondOfSeptember.start secondOfSeptember.stop = .ok secondOfSeptember :=
    rfl
  have hr : secondOfSeptember.Regular :=
    regular_of_ofBounds hbounds (fun s hs => Option.some.inj hs ▸ rfl)
      (fun e he => Option.some.inj he ▸ rfl)
  obtain ⟨hspan, hinstant, hnone, hback⟩ := widened_iff_shifted hr
  have hout : secondOfSeptember.contains ⟨1094256000, false⟩ = false := rfl
  refine ⟨hr, ⟨by decide, ?_⟩, ?_, ?_, ?_, by decide, ?_⟩
  · exact (hspan _ _ (by decide)).mpr ⟨43201, by decide, by decide⟩
  · exact (hinstant _).mpr ⟨-86400, by decide, by decide⟩
  · rw [← hinstant, hout]
    exact Bool.false_ne_true
  · rw [hnone, hout]
  · rw [hback _ _ (by decide), hout]

end TimeRange

end CalendarSearch
