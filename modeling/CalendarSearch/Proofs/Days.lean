import CalendarSearch.Time.Instant
import Mathlib.Tactic.SplitIfs

/-! # Days and their years

The months of a year fill it without a gap, so a day of the calendar has a number between the first
day of its year and the first day of the next. The number gives the day back: its year is the one
that the number falls into, and within the year whole months are counted off. -/

namespace CalendarSearch

namespace Date

/-! ### Months -/

/-- An entry of a list and all before it come to no more than the whole list. -/
theorem foldr_take_add_le (lengths : List Nat) (m : Nat) :
    (lengths.take m).foldr (· + ·) 0 + (lengths[m]?).getD 0 ≤ lengths.foldr (· + ·) 0 := by
  induction lengths generalizing m with
  | nil => simp
  | cons length lengths ih =>
    cases m with
    | zero => simp
    | succ m =>
      have hm := ih m
      simp only [List.take_succ_cons, List.foldr_cons, List.getElem?_cons_succ]
      omega

def yearLength (year : Int) : Nat := (monthLengths year).foldr (· + ·) 0

theorem yearLength_eq (year : Int) : yearLength year = if isLeapYear year then 366 else 365 := by
  unfold yearLength monthLengths
  split <;> rfl

theorem daysBeforeMonth_add_le (year : Int) (month : Nat) :
    daysBeforeMonth year month + monthLength year month ≤ yearLength year := by
  cases month with
  | zero => simp [daysBeforeMonth, monthLength]
  | succ m => exact foldr_take_add_le (monthLengths year) m

/-! ### Years -/

/-- Leap years by the closed formula and by the rule are the same years. -/
theorem daysBeforeYear_succ (year : Int) :
    daysBeforeYear (year + 1) = daysBeforeYear year + yearLength year := by
  rw [yearLength_eq]
  unfold daysBeforeYear isLeapYear
  split_ifs with hleap
  · simp only [Bool.and_eq_true, beq_iff_eq, Bool.or_eq_true, bne_iff_ne] at hleap
    omega
  · simp only [Bool.and_eq_true, beq_iff_eq, Bool.or_eq_true, bne_iff_ne] at hleap
    omega

theorem daysBeforeYear_mono {a b : Int} (h : a ≤ b) : daysBeforeYear a ≤ daysBeforeYear b := by
  unfold daysBeforeYear
  omega

theorem valid_iff {d : Date} :
    d.valid = true ↔
      (firstYear ≤ d.year ∧ d.year ≤ lastYear) ∧
        1 ≤ d.day ∧ d.day ≤ monthLength d.year d.month := by
  simp only [valid, Bool.and_eq_true, decide_eq_true_eq, and_assoc]

/-- The number of a day lies in its year. -/
theorem dayNumber_bounds {d : Date} (h : d.valid = true) :
    daysBeforeYear d.year ≤ d.dayNumber + epochDay ∧
      d.dayNumber + epochDay < daysBeforeYear (d.year + 1) := by
  have hmonth := daysBeforeMonth_add_le d.year d.month
  obtain ⟨-, hfirst, hlast⟩ := valid_iff.mp h
  rw [daysBeforeYear_succ, dayNumber]
  omega

/-! ### The day with a number -/

theorem yearOfDay_spec (day : Int) :
    daysBeforeYear (yearOfDay day) ≤ day ∧ day < daysBeforeYear (yearOfDay day + 1) := by
  unfold yearOfDay
  dsimp only
  split_ifs with hbefore hafter
  · -- the guess never comes after the day
    unfold daysBeforeYear at hbefore
    omega
  · unfold daysBeforeYear at hafter ⊢
    omega
  · exact ⟨by omega, by omega⟩

theorem yearOfDay_eq {year day : Int} (hfirst : daysBeforeYear year ≤ day)
    (hlast : day < daysBeforeYear (year + 1)) : yearOfDay day = year := by
  obtain ⟨hfirst', hlast'⟩ := yearOfDay_spec day
  rcases Int.lt_trichotomy (yearOfDay day) year with hlt | heq | hgt
  · have := daysBeforeYear_mono (show yearOfDay day + 1 ≤ year by omega)
    omega
  · exact heq
  · have := daysBeforeYear_mono (show year + 1 ≤ yearOfDay day by omega)
    omega

/-- Counting off whole months ends at the month whose days the count falls into. -/
theorem splitMonths_eq_iff {lengths : List Nat} {day m rest : Nat}
    (h : day < lengths.foldr (· + ·) 0) :
    splitMonths lengths day = (m, rest) ↔
      rest < (lengths[m]?).getD 0 ∧ (lengths.take m).foldr (· + ·) 0 + rest = day := by
  induction lengths generalizing day m with
  | nil => simp at h
  | cons length lengths ih =>
    rw [splitMonths]
    rw [List.foldr_cons] at h
    split_ifs with hday
    · cases m with
      | zero =>
        simp only [Prod.mk.injEq, true_and, List.getElem?_cons_zero, Option.getD_some,
          List.take_zero, List.foldr_nil]
        omega
      | succ m =>
        simp only [Prod.mk.injEq, List.take_succ_cons, List.foldr_cons]
        omega
    · cases m with
      | zero =>
        simp only [Prod.mk.injEq, List.getElem?_cons_zero, Option.getD_some,
          List.take_zero, List.foldr_nil]
        omega
      | succ m =>
        have hrest := @ih (day - length) m (by omega)
        simp only [Prod.ext_iff] at hrest
        simp only [Prod.mk.injEq, Nat.add_right_cancel_iff, List.getElem?_cons_succ,
          List.take_succ_cons, List.foldr_cons]
        rw [hrest]
        omega

/-- A month that has a day is one of the twelve. -/
theorem month_mem {year : Int} {month day : Nat} (hone : 1 ≤ day)
    (hday : day ≤ monthLength year month) : 1 ≤ month ∧ month ≤ 12 := by
  cases month with
  | zero =>
    have : monthLength year 0 = 0 := rfl
    omega
  | succ m =>
    have hlength : (monthLengths year).length = 12 := rfl
    by_cases hm : m < 12
    · omega
    · have : monthLength year (m + 1) = 0 := by
        rw [monthLength, List.getElem?_eq_none (by omega), Option.getD_none]
      omega

theorem monthLength_le (year : Int) (month : Nat) : monthLength year month ≤ 31 := by
  have hlengths : ∀ length ∈ monthLengths year, length ≤ 31 := by
    unfold monthLengths
    split <;> decide
  cases month with
  | zero => exact Nat.zero_le 31
  | succ m =>
    rw [monthLength]
    cases hm : (monthLengths year)[m]? with
    | none => exact Nat.zero_le 31
    | some length => exact hlengths length (List.mem_of_getElem? hm)

theorem splitMonths_dayNumber {d : Date} (h : d.valid = true) :
    splitMonths (monthLengths d.year) (d.dayNumber + epochDay - daysBeforeYear d.year).toNat =
      (d.month - 1, d.day - 1) := by
  obtain ⟨hfirst, hlast⟩ := dayNumber_bounds h
  rw [daysBeforeYear_succ, yearLength] at hlast
  rw [splitMonths_eq_iff (by omega)]
  obtain ⟨-, hone, hday⟩ := valid_iff.mp h
  obtain ⟨m, hm⟩ := Nat.exists_eq_add_of_le' (month_mem hone hday).1
  rw [dayNumber, daysBeforeMonth]
  rw [hm, monthLength] at hday
  rw [hm, Nat.add_sub_cancel]
  omega

/-- A date is found again from the number of its day. -/
theorem ofDayNumber_dayNumber {d : Date} (h : d.valid = true) : ofDayNumber d.dayNumber = d := by
  obtain ⟨hfirst, hlast⟩ := dayNumber_bounds h
  have hyear := yearOfDay_eq hfirst hlast
  have hsplit := splitMonths_dayNumber h
  obtain ⟨-, hone, hday⟩ := valid_iff.mp h
  have hmonth := (month_mem hone hday).1
  rw [ofDayNumber]
  dsimp only
  rw [hyear, hsplit, Nat.sub_add_cancel hmonth, Nat.sub_add_cancel hone]

/-- The day with a number is in its month, and has this number. -/
theorem ofDayNumber_spec (n : Int) :
    (1 ≤ (ofDayNumber n).day ∧
      (ofDayNumber n).day ≤ monthLength (ofDayNumber n).year (ofDayNumber n).month) ∧
    (ofDayNumber n).dayNumber = n := by
  obtain ⟨hfirst, hlast⟩ := yearOfDay_spec (n + epochDay)
  rw [daysBeforeYear_succ, yearLength] at hlast
  obtain ⟨m, rest, hsplit⟩ : ∃ m rest, splitMonths (monthLengths (yearOfDay (n + epochDay)))
      (n + epochDay - daysBeforeYear (yearOfDay (n + epochDay))).toNat = (m, rest) := ⟨_, _, rfl⟩
  have hd : ofDayNumber n = ⟨yearOfDay (n + epochDay), m + 1, rest + 1⟩ := by
    rw [ofDayNumber]
    dsimp only
    rw [hsplit]
  obtain ⟨hrest, hsum⟩ := (splitMonths_eq_iff (by omega)).mp hsplit
  rw [hd]
  refine ⟨⟨Nat.le_add_left 1 rest, hrest⟩, ?_⟩
  rw [dayNumber, daysBeforeMonth, Nat.add_sub_cancel]
  dsimp only
  omega

end Date

end CalendarSearch
