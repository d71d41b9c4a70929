import CalendarSearch.Proofs.Traversal
import CalendarSearch.Time.Range
import CalendarSearch.Time.Value
import Mathlib.Algebra.Group.Nat.Defs
import Mathlib.Data.List.Basic
import Mathlib.Data.List.Induction
import Mathlib.Data.List.TakeWhile

/-! # How wide the fields of a time are

A year with a sign takes every digit that follows, so its digits are limited only by the bytes of
the text. But the other fields take bytes too: a field has a digit, and between two numbers stands a
blank unless the first has all its digits. What the length of a time leaves to its year is four
digits. -/

namespace CalendarSearch

namespace Text

/-! ### Bytes and digits -/

theorem toNat_of_isDigit {c : Char} (h : c.isDigit = true) : 48 ≤ c.toNat ∧ c.toNat ≤ 57 := by
  simpa [Char.isDigit, UInt32.le_iff_toNat_le] using h

theorem digitValue_le {c : Char} (h : c.isDigit = true) : digitValue c ≤ 9 := by
  have hc := toNat_of_isDigit h
  show c.toNat - 48 ≤ 9
  omega

/-- A numeral is bounded by the number of its digits. -/
theorem numeral_lt {ds : List Char} (h : ∀ c ∈ ds, c.isDigit = true) :
    numeral ds < 10 ^ ds.length := by
  induction ds using List.reverseRecOn with
  | nil => simp [numeral]
  | append_singleton ds c ih =>
    have hds := ih fun d hd => h d (List.mem_append_left [c] hd)
    have hc := digitValue_le (h c (by simp))
    simp only [numeral, List.foldl_append, List.foldl_cons, List.foldl_nil, List.length_append,
      List.length_singleton, Nat.pow_succ] at hds ⊢
    omega

end Text

/-- An instant that a day of a year of at most four digits and a time of day name. -/
def Instant.Written (t : Instant) : Prop :=
  ∃ d c, d.valid = true ∧ d.year.natAbs < 10 ^ 4 ∧ c.valid = true ∧ t = ofDateClock d c

namespace Fields

open Text

/-! ### What is read, field by field -/

theorem date_eq_some {d : Date} {cs rest : List Char} :
    date cs = some (d, rest) ↔
      ∃ afterYear afterMonth, year cs = some (d.year, afterYear) ∧
        number 2 afterYear = some (d.month, afterMonth) ∧
        number 2 afterMonth = some (d.day, rest) ∧ d.valid = true := by
  obtain ⟨y, m, n⟩ := d
  simp only [date, Option.bind_eq_bind, Option.bind_eq_some_iff, Prod.exists]
  constructor
  · rintro ⟨year, afterYear, hyear, month, afterMonth, hmonth, day, afterDay, hday, h⟩
    split at h
    · rename_i hvalid
      cases h
      exact ⟨afterYear, afterMonth, hyear, hmonth, hday, hvalid⟩
    · cases h
  · rintro ⟨afterYear, afterMonth, hyear, hmonth, hday, hvalid⟩
    exact ⟨y, afterYear, hyear, m, afterMonth, hmonth, n, rest, hday, if_pos hvalid⟩

theorem clock_eq_some {c : Clock} {cs rest : List Char} :
    clock cs = some (c, rest) ↔
      ∃ afterHour afterMinute, number 2 cs = some (c.hour, afterHour) ∧
        number 2 afterHour = some (c.minute, afterMinute) ∧
        number 2 afterMinute = some (c.second, rest) ∧ c.valid = true := by
  obtain ⟨h, m, s⟩ := c
  simp only [clock, Option.bind_eq_bind, Option.bind_eq_some_iff, Prod.exists]
  constructor
  · rintro ⟨hour, afterHour, hhour, minute, afterMinute, hminute, second, afterSecond, hsecond, h⟩
    split at h
    · rename_i hvalid
      cases h
      exact ⟨afterHour, afterMinute, hhour, hminute, hsecond, hvalid⟩
    · cases h
  · rintro ⟨afterHour, afterMinute, hhour, hminute, hsecond, hvalid⟩
    exact ⟨h, afterHour, hhour, m, afterMinute, hminute, s, rest, hsecond, if_pos hvalid⟩

theorem dateTime_eq_some {t : Instant} {cs : List Char} :
    dateTime cs = some t ↔
      ∃ d c rest, date cs = some (d, 'T' :: rest) ∧ clock rest = some (c, []) ∧
        .ofDateClock d c = t := by
  unfold dateTime
  constructor
  · intro h
    split at h
    · rename_i d rest hdate
      split at h
      · rename_i c hclock
        exact ⟨d, c, rest, hdate, hclock, Option.some.inj h⟩
      · cases h
    · cases h
  · rintro ⟨d, c, rest, hdate, hclock, rfl⟩
    simp only [hdate, hclock]

/-! ### Fields -/

def startsWithDigit (cs : List Char) : Bool := cs.head?.any Char.isDigit

/-- The bytes that fields may take. A text that starts with a digit has one to spare, as it needs no
blank before its first field. -/
def room (cs : List Char) : Nat := byteLength cs + if startsWithDigit cs then 1 else 0

/-- The digits that a field takes, and what follows them. -/
structure Taken (cs ds rest : List Char) : Prop where
  split : cs = ds ++ rest
  nonempty : ds ≠ []
  isDigit : ∀ c ∈ ds, c.isDigit = true

theorem Taken.byteLength_le {cs ds rest : List Char} (h : Taken cs ds rest) :
    ds.length + byteLength rest ≤ byteLength cs := by
  have hds := length_le_byteLength ds
  rw [h.split, byteLength_append]
  omega

theorem Taken.length_pos {cs ds rest : List Char} (h : Taken cs ds rest) : 0 < ds.length :=
  List.length_pos_iff.mpr h.nonempty

theorem Taken.startsWithDigit {cs ds rest : List Char} (h : Taken cs ds rest) :
    startsWithDigit cs = true := by
  obtain ⟨rfl, hne, hdigit⟩ := h
  cases ds with
  | nil => exact absurd rfl hne
  | cons c ds => simpa [Fields.startsWithDigit] using hdigit c List.mem_cons_self

/-- A field that has taken less than it may has taken all the digits there are. -/
theorem startsWithDigit_drop {width : Nat} {cs : List Char}
    (h : ((cs.take width).takeWhile Char.isDigit).length < width) :
    startsWithDigit (cs.drop ((cs.take width).takeWhile Char.isDigit).length) = false := by
  induction cs generalizing width with
  | nil => simp [startsWithDigit]
  | cons c cs ih =>
    cases width with
    | zero => simp at h
    | succ width =>
      by_cases hc : c.isDigit = true
      · simp only [List.take_succ_cons, List.takeWhile_cons, hc, if_true, List.length_cons,
          List.drop_succ_cons] at h ⊢
        exact ih (by omega)
      · simp [startsWithDigit, hc]

/-- A field takes the digits at hand, at most its width of them. -/
theorem taken_of_number {width n : Nat} {cs rest : List Char}
    (h : number width cs = some (n, rest)) :
    ∃ ds, Taken (trimLeft cs) ds rest ∧ numeral ds = n ∧ ds.length ≤ width ∧
      (ds.length < width → startsWithDigit rest = false) := by
  unfold number at h
  dsimp only at h
  split at h
  · cases h
  · rename_i hne
    cases h
    have hprefix : ((trimLeft cs).take width).takeWhile Char.isDigit <+: trimLeft cs :=
      (List.takeWhile_prefix _).trans (List.take_prefix _ _)
    refine ⟨_, ⟨(List.prefix_iff_eq_append.mp hprefix).symm, by simpa using hne, ?_⟩, rfl, ?_,
      startsWithDigit_drop⟩
    · intro c hc
      exact List.mem_takeWhile_imp hc
    · exact (List.takeWhile_prefix _).length_le.trans (List.length_take_le _ _)

theorem taken_of_digits {n : Nat} {cs rest : List Char} (h : digits cs = some (n, rest)) :
    ∃ ds, Taken cs ds rest ∧ numeral ds = n ∧ startsWithDigit rest = false := by
  unfold digits at h
  dsimp only at h
  split at h
  · cases h
  · rename_i hne
    cases h
    refine ⟨_, ⟨List.takeWhile_append_dropWhile.symm, by simpa using hne, ?_⟩, rfl, ?_⟩
    · intro c hc
      exact List.mem_takeWhile_imp hc
    · rw [startsWithDigit]
      cases hrest : cs.dropWhile Char.isDigit with
      | nil => rfl
      | cons c rest =>
        have hne : cs.dropWhile Char.isDigit ≠ [] := by simp [hrest]
        simpa [hrest] using List.head_dropWhile_not Char.isDigit hne

/-- Blanks before a field take bytes, unless it stands at the start. -/
theorem byteLength_trimLeft_lt {cs : List Char} (h : startsWithDigit (trimLeft cs) = true) :
    byteLength (trimLeft cs) < room cs := by
  cases cs with
  | nil => simp [trimLeft, startsWithDigit] at h
  | cons c cs =>
    by_cases hc : isBlank c = true
    · have htrim : trimLeft (c :: cs) = trimLeft cs := List.dropWhile_cons_of_pos hc
      have hle := byteLength_trimLeft_le cs
      have hpos := c.utf8Size_pos
      rw [htrim, room, byteLength_cons]
      omega
    · have htrim : trimLeft (c :: cs) = c :: cs := List.dropWhile_cons_of_neg hc
      rw [htrim] at h ⊢
      rw [room, h, if_pos rfl]
      omega

theorem room_number {width n : Nat} {cs rest : List Char} (hwidth : 2 ≤ width)
    (h : number width cs = some (n, rest)) : room rest + 2 ≤ room cs := by
  obtain ⟨ds, htaken, -, -, hrest⟩ := taken_of_number h
  have htrim := byteLength_trimLeft_lt htaken.startsWithDigit
  have hbytes := htaken.byteLength_le
  have hpos := htaken.length_pos
  rw [room]
  by_cases hone : ds.length = 1
  · rw [hrest (by omega), if_neg Bool.false_ne_true]
    omega
  · split <;> omega

/-! ### Years of four digits -/

theorem numeral_lt_of_digits {n : Nat} {cs rest : List Char} (h : digits cs = some (n, rest))
    (hbytes : byteLength cs ≤ 4 + room rest) : n < 10 ^ 4 := by
  obtain ⟨ds, htaken, rfl, hrest⟩ := taken_of_digits h
  have hle := htaken.byteLength_le
  rw [room, hrest, if_neg Bool.false_ne_true] at hbytes
  have hlength : ds.length ≤ 4 := by omega
  exact (numeral_lt htaken.isDigit).trans_le (Nat.pow_le_pow_right (by decide) hlength)

theorem numeral_lt_of_number {width n : Nat} {cs rest : List Char}
    (h : number width cs = some (n, rest)) : n < 10 ^ width := by
  obtain ⟨ds, htaken, rfl, hlength, -⟩ := taken_of_number h
  exact (numeral_lt htaken.isDigit).trans_le (Nat.pow_le_pow_right (by decide) hlength)

/-- A year may take more than four digits, but the length of the whole leaves no room for them. -/
theorem natAbs_year_lt {y : Int} {cs rest : List Char} (h : year cs = some (y, rest))
    (hbytes : byteLength cs ≤ 5 + room rest) : y.natAbs < 10 ^ 4 := by
  have htrim := byteLength_trimLeft_le cs
  -- the sign takes a byte
  have signed {c : Char} {r : List Char} {n : Nat} (hcs : trimLeft cs = c :: r)
      (hn : digits r = some (n, rest)) : n < 10 ^ 4 := by
    have hc := c.utf8Size_pos
    rw [hcs, byteLength_cons] at htrim
    exact numeral_lt_of_digits hn (by omega)
  unfold year at h
  split at h
  · rename_i r hcs
    obtain ⟨⟨n, rest'⟩, hn, heq⟩ := Option.map_eq_some_iff.mp h
    cases heq
    rw [Int.natAbs_neg, Int.natAbs_natCast]
    exact signed hcs hn
  · rename_i r hcs
    obtain ⟨⟨n, rest'⟩, hn, heq⟩ := Option.map_eq_some_iff.mp h
    cases heq
    exact signed hcs hn
  · obtain ⟨⟨n, rest'⟩, hn, heq⟩ := Option.map_eq_some_iff.mp h
    cases heq
    exact numeral_lt_of_number hn

/-- A date whose text has nine bytes at most, or as many more as the fields after it take. -/
theorem natAbs_year_lt_of_date {d : Date} {cs rest : List Char} (h : date cs = some (d, rest))
    (hbytes : byteLength cs ≤ 9 + room rest) : d.valid = true ∧ d.year.natAbs < 10 ^ 4 := by
  obtain ⟨afterYear, afterMonth, hyear, hmonth, hday, hvalid⟩ := date_eq_some.mp h
  have hroomMonth := room_number (Nat.le_refl 2) hmonth
  have hroomDay := room_number (Nat.le_refl 2) hday
  exact ⟨hvalid, natAbs_year_lt hyear (by omega)⟩

theorem room_clock {c : Clock} {cs rest : List Char} (h : clock cs = some (c, rest)) :
    c.valid = true ∧ room rest + 6 ≤ room cs := by
  obtain ⟨afterHour, afterMinute, hhour, hminute, hsecond, hvalid⟩ := clock_eq_some.mp h
  have hroomHour := room_number (Nat.le_refl 2) hhour
  have hroomMinute := room_number (Nat.le_refl 2) hminute
  have hroomSecond := room_number (Nat.le_refl 2) hsecond
  exact ⟨hvalid, by omega⟩

/-! ### Times -/

theorem written_day {t : Instant} {cs : List Char} (h : day cs = some t)
    (hbytes : byteLength cs ≤ 8) : t.Written := by
  unfold day at h
  split at h
  · rename_i d hdate
    cases h
    obtain ⟨hvalid, hyear⟩ := natAbs_year_lt_of_date hdate (by omega)
    exact ⟨d, ⟨0, 0, 0⟩, hvalid, hyear, rfl, rfl⟩
  · cases h

theorem written_dateTime {t : Instant} {cs : List Char} (h : dateTime cs = some t)
    (hbytes : byteLength cs ≤ 15) : t.Written := by
  obtain ⟨d, c, rest, hdate, hclock, rfl⟩ := dateTime_eq_some.mp h
  obtain ⟨hc, hroom⟩ := room_clock hclock
  have hrest : room rest ≤ byteLength rest + 1 := by
    rw [room]
    split <;> omega
  have hmark : room ('T' :: rest) = 1 + byteLength rest := rfl
  obtain ⟨hvalid, hyear⟩ := natAbs_year_lt_of_date hdate (by omega)
  exact ⟨d, c, hvalid, hyear, hc, rfl⟩

end Fields

/-- Every value of a property, whatever its text. -/
theorem TimeValue.written_ofChars {v : TimeValue} {cs : List Char} (h : ofChars cs = some v) :
    v.instant.Written := by
  unfold ofChars at h
  dsimp only at h
  split at h
  · rename_i hbytes
    obtain ⟨t, ht, rfl⟩ := Option.map_eq_some_iff.mp h
    exact Fields.written_day ht hbytes.le
  · split at h
    · split at h
      · rename_i hbytes
        obtain ⟨t, ht, rfl⟩ := Option.map_eq_some_iff.mp h
        exact Fields.written_dateTime ht hbytes.le
      · cases h
    · cases h

namespace TimeRange

open Traversal

/-- What is read of an attribute is all but its `Z`. -/
theorem dateTime_of_parseBound {value : String} {t : Instant} (h : parseBound value = .ok t) :
    ∃ cs, value.toList = cs ++ ['Z'] ∧ Text.byteLength cs = 15 ∧ Fields.dateTime cs = some t := by
  unfold parseBound at h
  dsimp only at h
  split at h
  · rename_i hform
    simp only [Bool.and_eq_true, decide_eq_true_eq] at hform
    obtain ⟨⟨hbytes, -⟩, hend⟩ := hform
    obtain ⟨cs, after, hvalue, hcs⟩ := Text.charAtByte_eq_some_iff.mp hend
    have hafter : after = [] := by
      have hmark : ('Z').utf8Size = 1 := rfl
      have hlength := Text.length_le_byteLength after
      rw [hvalue, Text.byteLength_append, Text.byteLength_cons, hmark] at hbytes
      exact List.length_eq_zero_iff.mp (by omega)
    rw [hvalue, hafter, List.dropLast_concat] at h
    split at h
    · rename_i ht
      cases h
      exact ⟨cs, hafter ▸ hvalue, hcs, ht⟩
    · cases h
  · cases h

/-- Every bound that is accepted is written with at most four digits of year. -/
theorem written_parseBound {value : String} {t : Instant} (h : parseBound value = .ok t) :
    t.Written := by
  obtain ⟨cs, -, hbytes, ht⟩ := dateTime_of_parseBound h
  exact Fields.written_dateTime ht hbytes.le

/-- The bounds of the range are written instants. -/
structure Written (r : TimeRange) : Prop where
  start : ∀ t, r.start = some t → t.Written
  stop : ∀ t, r.stop = some t → t.Written

theorem written_mapM_parseBound {value : Option String} {bound : Option Instant}
    (h : value.mapM parseBound = .ok bound) : ∀ t, bound = some t → t.Written := by
  intro t ht
  cases value with
  | none =>
    cases h
    cases ht
  | some value =>
    simp only [Option.mapM_some, map_eq_ok] at h
    obtain ⟨t', ht', rfl⟩ := h
    cases ht
    exact written_parseBound ht'

/-- A range is made of the bounds there are, if there is one and two are in order. -/
theorem ofBounds_eq_ok {start stop : Option Instant} {r : TimeRange} :
    ofBounds start stop = .ok r ↔ (start.isSome = true ∨ stop.isSome = true) ∧
      (∀ s e, start = some s → stop = some e → s < e) ∧ r = { start, stop } := by
  unfold ofBounds
  cases start with
  | none =>
    cases stop with
    | none => simp
    | some e => simp [eq_comm]
  | some s =>
    cases stop with
    | none => simp [eq_comm]
    | some e =>
      dsimp only
      split
      · rename_i hle
        simp [← Instant.not_le, hle]
      · rename_i hle
        simp [← Instant.not_le, hle, eq_comm]

theorem written_parse {start stop : Option String} {r : TimeRange} (h : parse start stop = .ok r) :
    r.Written := by
  simp only [parse, bind_eq_ok] at h
  obtain ⟨first, hfirst, last, hlast, h⟩ := h
  rw [(ofBounds_eq_ok.mp h).2.2]
  exact ⟨written_mapM_parseBound hfirst, written_mapM_parseBound hlast⟩

end TimeRange

end CalendarSearch
