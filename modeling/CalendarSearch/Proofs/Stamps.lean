import CalendarSearch.Proofs.Days
import CalendarSearch.Proofs.Digits

/-! # Times written in full

A time of which every field has all its digits is read field by field, and it is what is written of
the instant that it names. So for the years of four digits the writer and both readers agree. -/

namespace CalendarSearch

/-! ### An instant is a day and a time of day -/

theorem Clock.valid_iff {c : Clock} :
    c.valid = true ↔ c.hour ≤ 23 ∧ c.minute ≤ 59 ∧ c.second ≤ 60 := by
  simp only [valid, Bool.and_eq_true, decide_eq_true_eq, and_assoc]

namespace Instant

/-- The day of an instant made from a date and a clock time is that date. -/
theorem date_ofDateClock {d : Date} {c : Clock} (hd : d.valid = true) (hc : c.valid = true) :
    (ofDateClock d c).date = d := by
  rw [Clock.valid_iff] at hc
  have hday : (ofDateClock d c).second / secondsPerDay = d.dayNumber := by
    simp only [ofDateClock, secondsPerDay]
    omega
  rw [date, hday, Date.ofDayNumber_dayNumber hd]

theorem clock_ofDateClock {d : Date} {c : Clock} (hc : c.valid = true) :
    (ofDateClock d c).clock = c := by
  obtain ⟨hour, minute, second⟩ := c
  simp only [Clock.valid_iff] at hc
  have hrest : ((ofDateClock d ⟨hour, minute, second⟩).second % secondsPerDay).toNat =
      hour * 3600 + minute * 60 + min second 59 := by
    simp only [ofDateClock, secondsPerDay]
    omega
  rw [clock, hrest]
  simp only [ofDateClock, beq_iff_eq, Clock.mk.injEq]
  split <;> omega

/-- The leap second is the one after the last second of a minute. -/
def LeapEndsMinute (t : Instant) : Prop := t.leap = true → t.second % 60 = 59

/-- An instant is its date and its clock time, as long as a leap second stands at the end of a
minute. -/
theorem ofDateClock_date_clock {t : Instant} (h : t.LeapEndsMinute) :
    ofDateClock t.date t.clock = t := by
  have hday : t.date.dayNumber = t.second / secondsPerDay := (Date.ofDayNumber_spec _).2
  obtain ⟨second, leap⟩ := t
  simp only [ofDateClock, hday, clock, secondsPerDay, Instant.mk.injEq]
  cases leap with
  | false =>
    simp only [Bool.false_eq_true, if_false, beq_eq_false_iff_ne]
    omega
  | true =>
    have hleap : second % 60 = 59 := h rfl
    simp only [if_true, beq_iff_eq]
    omega

def midnight (t : Instant) : Instant := ⟨t.second / secondsPerDay * secondsPerDay, false⟩

theorem ofDate_date (t : Instant) : ofDate t.date = t.midnight := by
  have hday : t.date.dayNumber = t.second / secondsPerDay := (Date.ofDayNumber_spec _).2
  rw [ofDate, ofDateClock, hday, midnight]
  simp

theorem valid_clock {t : Instant} (h : t.LeapEndsMinute) : t.clock.valid = true := by
  rw [Clock.valid_iff]
  obtain ⟨second, leap⟩ := t
  simp only [clock, secondsPerDay]
  cases leap with
  | false =>
    simp only [Bool.false_eq_true, if_false]
    omega
  | true =>
    have hleap : second % 60 = 59 := h rfl
    simp only [if_true]
    omega

theorem valid_date {t : Instant} (hfirst : Date.firstYear ≤ t.date.year)
    (hlast : t.date.year ≤ Date.lastYear) : t.date.valid = true :=
  Date.valid_iff.mpr ⟨⟨hfirst, hlast⟩, (Date.ofDayNumber_spec (t.second / secondsPerDay)).1⟩

end Instant

/-! ### Fields with all their digits -/

namespace Digits

open Text

variable {width : Nat}

theorem eq_cons (ds : Digits width) (hwidth : 0 < width) :
    ∃ c cs, ds.chars = c :: cs ∧ c.isDigit = true := by
  obtain ⟨c, cs, hcs⟩ := List.exists_cons_of_length_pos (ds.length_eq ▸ hwidth)
  exact ⟨c, cs, hcs, ds.isDigit c (hcs ▸ List.mem_cons_self)⟩

theorem trimLeft_append (ds : Digits width) (hwidth : 0 < width) (rest : List Char) :
    trimLeft (ds.chars ++ rest) = ds.chars ++ rest := by
  obtain ⟨c, cs, hcs, hc⟩ := ds.eq_cons hwidth
  rw [hcs]
  exact List.dropWhile_cons_of_neg (by simp [isBlank_of_isDigit hc])

/-- A field written in full is read at its width, and what follows is left alone. -/
theorem number_append (ds : Digits width) (hwidth : 0 < width) (rest : List Char) :
    Fields.number width (ds.chars ++ rest) = some (ds.value, rest) := by
  obtain ⟨c, cs, hcs, -⟩ := ds.eq_cons hwidth
  have hrun : ((ds.chars ++ rest).take width).takeWhile Char.isDigit = ds.chars := by
    rw [List.take_left' ds.length_eq, List.takeWhile_eq_self_iff]
    exact ds.isDigit
  have hne : ds.chars.isEmpty = false := by
    rw [hcs]
    rfl
  rw [Fields.number, ds.trimLeft_append hwidth, hrun, hne, List.drop_left]
  rfl

/-- Four digits are the whole year: a sign is what could make it longer. -/
theorem year_append (ds : Digits 4) (rest : List Char) :
    Fields.year (ds.chars ++ rest) = some ((ds.value : Int), rest) := by
  obtain ⟨c, cs, hcs, hc⟩ := ds.eq_cons (by decide)
  have htrim := ds.trimLeft_append (by decide) rest
  unfold Fields.year
  split
  · rename_i heq
    rw [htrim, hcs] at heq
    cases heq
    cases hc
  · rename_i heq
    rw [htrim, hcs] at heq
    cases heq
    cases hc
  · rw [htrim, ds.number_append (by decide)]
    rfl

end Digits

/-! ### Times in full -/

/-- The digits of a time written in full. -/
structure Stamp where
  year : Digits 4
  month : Digits 2
  day : Digits 2
  hour : Digits 2
  minute : Digits 2
  second : Digits 2

namespace Stamp

open Text

def dayChars (s : Stamp) : List Char := s.year.chars ++ (s.month.chars ++ s.day.chars)

def clockChars (s : Stamp) : List Char := s.hour.chars ++ (s.minute.chars ++ s.second.chars)

/-- The form `YYYYMMDD`. -/
def dayText (s : Stamp) : String := String.ofList s.dayChars

def chars (s : Stamp) : List Char := s.dayChars ++ 'T' :: s.clockChars

/-- The form `YYYYMMDDTHHMMSSZ`. -/
def text (s : Stamp) : String := String.ofList (s.chars ++ ['Z'])

def date (s : Stamp) : Date := ⟨s.year.value, s.month.value, s.day.value⟩

def clock (s : Stamp) : Clock := ⟨s.hour.value, s.minute.value, s.second.value⟩

/-- Is there such a day, and such a time of day? -/
def valid (s : Stamp) : Bool := s.date.valid && s.clock.valid

def instant (s : Stamp) : Instant := .ofDateClock s.date s.clock

variable (s : Stamp)

/-! ### Reading -/

theorem date_append (rest : List Char) :
    Fields.date (s.dayChars ++ rest) = if s.date.valid then some (s.date, rest) else none := by
  simp only [Fields.date, dayChars, List.append_assoc, s.year.year_append,
    s.month.number_append (by decide : 0 < 2), s.day.number_append (by decide : 0 < 2),
    Option.bind_eq_bind, Option.bind_some]
  rfl

theorem clock_append (rest : List Char) :
    Fields.clock (s.clockChars ++ rest) = if s.clock.valid then some (s.clock, rest) else none := by
  simp only [Fields.clock, clockChars, List.append_assoc, s.hour.number_append (by decide : 0 < 2),
    s.minute.number_append (by decide : 0 < 2), s.second.number_append (by decide : 0 < 2),
    Option.bind_eq_bind, Option.bind_some]
  rfl

theorem day_dayChars :
    Fields.day s.dayChars = if s.date.valid then some (.ofDate s.date) else none := by
  have hdate := s.date_append []
  rw [List.append_nil] at hdate
  rw [Fields.day, hdate]
  cases s.date.valid <;> rfl

/-- The digits of a stamp are read as its instant, when its fields are in range. -/
theorem dateTime_chars : Fields.dateTime s.chars = if s.valid then some s.instant else none := by
  have hclock := s.clock_append []
  rw [List.append_nil] at hclock
  rw [Fields.dateTime, chars, date_append, valid]
  cases hd : s.date.valid with
  | false => rfl
  | true =>
    simp only [if_true, Bool.true_and, hclock]
    cases s.clock.valid <;> rfl

theorem toList_text : s.text.toList = s.chars ++ ['Z'] := by rw [text, String.toList_ofList]

theorem byteLength_dayChars : byteLength s.dayChars = 8 := by
  simp only [dayChars, byteLength_append, Digits.byteLength_chars]

theorem take_chars (rest : List Char) : (s.chars ++ rest).take 8 = s.dayChars := by
  have hlength : s.dayChars.length = 8 := by
    simp only [dayChars, List.length_append, Digits.length_eq]
  rw [chars, List.append_assoc, List.take_left' hlength]

theorem byteLength_chars : byteLength s.chars = 15 := by
  have hmark : byteLength ['T'] = 1 := rfl
  rw [chars, ← List.singleton_append, byteLength_append, byteLength_append, byteLength_dayChars,
    hmark]
  simp only [clockChars, byteLength_append, Digits.byteLength_chars]

/-- Sixteen bytes is the length that a bound must have. -/
theorem byteLength_text : byteLength (s.chars ++ ['Z']) = 16 := by
  rw [byteLength_append, byteLength_chars]
  rfl

/-- Both marks stand in their places, so all that is left is whether there is such a time. -/
theorem parseBound_text :
    TimeRange.parseBound s.text =
      if s.valid then .ok s.instant else .error (.invalid (.timeDate s.text)) := by
  have hmark : charAtByte 8 (s.chars ++ ['Z']) = some 'T' :=
    charAtByte_eq_some_iff.mpr
      ⟨s.dayChars, s.clockChars ++ ['Z'], List.append_assoc _ _ _, s.byteLength_dayChars⟩
  have hend : charAtByte 15 (s.chars ++ ['Z']) = some 'Z' :=
    charAtByte_eq_some_iff.mpr ⟨s.chars, [], rfl, s.byteLength_chars⟩
  rw [TimeRange.parseBound, toList_text, byteLength_text, hmark, hend, List.dropLast_concat,
    s.dateTime_chars]
  cases s.valid <;> rfl

theorem isDigit_dayChars {c : Char} (hc : c ∈ s.dayChars) : c.isDigit = true := by
  simp only [dayChars, List.mem_append] at hc
  rcases hc with hc | hc | hc
  · exact s.year.isDigit c hc
  · exact s.month.isDigit c hc
  · exact s.day.isDigit c hc

theorem isDigit_clockChars {c : Char} (hc : c ∈ s.clockChars) : c.isDigit = true := by
  simp only [clockChars, List.mem_append] at hc
  rcases hc with hc | hc | hc
  · exact s.hour.isDigit c hc
  · exact s.minute.isDigit c hc
  · exact s.second.isDigit c hc

theorem isDigit_or_eq_mark {c : Char} (hc : c ∈ s.chars) : c.isDigit = true ∨ c = 'T' := by
  simp only [chars, List.mem_append, List.mem_cons] at hc
  rcases hc with hc | hc | hc
  · exact .inl (s.isDigit_dayChars hc)
  · exact .inr hc
  · exact .inl (s.isDigit_clockChars hc)

theorem isBlank_of_mem {c : Char} (hc : c ∈ s.chars ++ ['Z']) : isBlank c = false := by
  rw [List.mem_append, List.mem_singleton] at hc
  rcases hc with hc | rfl
  · rcases s.isDigit_or_eq_mark hc with hdigit | rfl
    · exact isBlank_of_isDigit hdigit
    · rfl
  · rfl

theorem trim_text : trim (s.chars ++ ['Z']) = s.chars ++ ['Z'] :=
  trim_eq_self fun _ => s.isBlank_of_mem

theorem trim_chars : trim s.chars = s.chars :=
  trim_eq_self fun _ hc => s.isBlank_of_mem (List.mem_append_left _ hc)

theorem trim_dayChars : trim s.dayChars = s.dayChars :=
  trim_eq_self fun _ hc => isBlank_of_isDigit (s.isDigit_dayChars hc)

theorem dropZulu_chars : TimeValue.dropZulu s.chars = s.chars := by
  rw [TimeValue.dropZulu, if_neg]
  intro hlast
  rcases s.isDigit_or_eq_mark (List.mem_of_getLast? hlast) with h | h <;> cases h

theorem dropZulu_text : TimeValue.dropZulu (s.chars ++ ['Z']) = s.chars := by
  rw [TimeValue.dropZulu, List.getLast?_concat, if_pos rfl, List.dropLast_concat]

/-- A calendar value in full, with or without its `Z`. -/
theorem parse_text :
    TimeValue.parse s.text = if s.valid then some (.moment s.instant) else none := by
  rw [TimeValue.parse, toList_text, TimeValue.ofChars, trim_text, byteLength_text, dropZulu_text]
  dsimp only
  rw [byteLength_chars, dateTime_chars]
  cases s.valid <;> rfl

theorem parse_chars :
    TimeValue.parse (String.ofList s.chars) =
      if s.valid then some (.moment s.instant) else none := by
  rw [TimeValue.parse, String.toList_ofList, TimeValue.ofChars, trim_chars, dropZulu_chars]
  dsimp only
  rw [byteLength_chars, dateTime_chars]
  cases s.valid <;> rfl

theorem parse_dayText :
    TimeValue.parse s.dayText = if s.date.valid then some (.day (.ofDate s.date)) else none := by
  rw [TimeValue.parse, dayText, String.toList_ofList, TimeValue.ofChars, trim_dayChars,
    byteLength_dayChars, day_dayChars]
  cases s.date.valid <;> rfl

end Stamp

/-- The form `YYYYMMDDTHHMMSSZ`: eight digits, a `T`, six digits and a `Z`. -/
def InFull (value : String) : Prop :=
  ∃ (day : Digits 8) (time : Digits 6), value.toList = day.chars ++ 'T' :: (time.chars ++ ['Z'])

/-- The texts of the full form are those of the stamps, whether or not their fields exist. -/
theorem inFull_iff {value : String} : InFull value ↔ ∃ s : Stamp, value = s.text := by
  constructor
  · rintro ⟨day, time, hvalue⟩
    obtain ⟨year, rest, hday⟩ := @Digits.exists_append 4 4 day
    obtain ⟨month, day', hrest⟩ := @Digits.exists_append 2 2 rest
    obtain ⟨hour, rest', htime⟩ := @Digits.exists_append 2 4 time
    obtain ⟨minute, second, hrest'⟩ := @Digits.exists_append 2 2 rest'
    refine ⟨⟨year, month, day', hour, minute, second⟩, String.toList_injective ?_⟩
    simp only [hvalue, hday, hrest, htime, hrest', Stamp.toList_text, Stamp.chars, Stamp.dayChars,
      Stamp.clockChars, List.append_assoc, List.cons_append]
  · rintro ⟨s, rfl⟩
    refine ⟨⟨s.dayChars, ?_, fun _ => s.isDigit_dayChars⟩,
      ⟨s.clockChars, ?_, fun _ => s.isDigit_clockChars⟩, ?_⟩
    · simp only [Stamp.dayChars, List.length_append, Digits.length_eq]
    · simp only [Stamp.clockChars, List.length_append, Digits.length_eq]
    · rw [s.toList_text, Stamp.chars, List.append_assoc, List.cons_append]

/-! ### Writing -/

namespace Stamp

variable (s : Stamp)

theorem toList_yearText : (Instant.yearText s.year.value).toList = s.year.chars := by
  have hyear : (s.year.value : Int) ≤ 9999 := by
    have := s.year.value_lt
    omega
  rw [Instant.yearText, if_pos (by simp [hyear])]
  exact s.year.toList_padded_value (by decide)

/-- What is written of the instant is what it was read from. -/
theorem basic_instant (h : s.valid = true) : s.instant.basic = s.text := by
  obtain ⟨hdate, hclock⟩ := Bool.and_eq_true_iff.mp h
  have hd : s.instant.date = s.date := Instant.date_ofDateClock hdate hclock
  have hc : s.instant.clock = s.clock := Instant.clock_ofDateClock hclock
  apply String.toList_injective
  rw [Instant.basic, toList_text, hd, hc]
  have hmark : "T".toList = ['T'] := rfl
  have hend : "Z".toList = ['Z'] := rfl
  simp only [date, clock, chars, dayChars, clockChars, toString, String.toList_append,
    toList_yearText, Digits.toList_padded_value, (by decide : 0 < 2), hmark, hend,
    List.append_assoc, List.cons_append, List.nil_append]

end Stamp

/-- Every date of years 0 to 9999 and every clock time can be written as a stamp. -/
theorem exists_stamp {d : Date} {c : Clock} (hd : d.valid = true) (hc : c.valid = true)
    (hfirst : 0 ≤ d.year) (hlast : d.year ≤ 9999) : ∃ s : Stamp, s.date = d ∧ s.clock = c := by
  obtain ⟨-, hone, hday⟩ := Date.valid_iff.mp hd
  have hlength := Date.monthLength_le d.year d.month
  have hmonth := (Date.month_mem hone hday).2
  obtain ⟨hhour, hminute, hsecond⟩ := Clock.valid_iff.mp hc
  obtain ⟨year, month, day⟩ := d
  obtain ⟨hour, minute, second⟩ := c
  dsimp only at *
  refine ⟨{
    year := .ofNat year.toNat (by decide) (by omega)
    month := .ofNat month (by decide) (by omega)
    day := .ofNat day (by decide) (by omega)
    hour := .ofNat hour (by decide) (by omega)
    minute := .ofNat minute (by decide) (by omega)
    second := .ofNat second (by decide) (by omega) }, ?date, ?clock⟩
  case date =>
    simp only [Stamp.date, Digits.value_ofNat, Int.toNat_of_nonneg hfirst]
  case clock =>
    simp only [Stamp.clock, Digits.value_ofNat]

/-- Every instant in a year of four digits can be written in full. -/
theorem Instant.exists_stamp {t : Instant} (hfirst : 0 ≤ t.date.year) (hlast : t.date.year ≤ 9999)
    (hleap : t.LeapEndsMinute) : ∃ s : Stamp, s.valid = true ∧ s.instant = t := by
  have hbefore : Date.firstYear ≤ 0 := by decide
  have hafter : 9999 ≤ Date.lastYear := by decide
  have hdate : t.date.valid = true :=
    valid_date (Int.le_trans hbefore hfirst) (Int.le_trans hlast hafter)
  have hclock := valid_clock hleap
  obtain ⟨s, hd, hc⟩ := CalendarSearch.exists_stamp hdate hclock hfirst hlast
  refine ⟨s, ?_, ?_⟩
  · rw [Stamp.valid, hd, hc, hdate, hclock]
    rfl
  · rw [Stamp.instant, hd, hc, ofDateClock_date_clock hleap]

/-- A stamp is read when its month, its day of that month and its clock fields exist. -/
theorem Stamp.valid_iff {s : Stamp} :
    s.valid = true ↔
      (1 ≤ s.month.value ∧ s.month.value ≤ 12) ∧
      (1 ≤ s.day.value ∧ s.day.value ≤ Date.monthLength s.year.value s.month.value) ∧
      s.hour.value ≤ 23 ∧ s.minute.value ≤ 59 ∧ s.second.value ≤ 60 := by
  have hyear : Date.firstYear ≤ s.year.value ∧ (s.year.value : Int) ≤ Date.lastYear := by
    have := s.year.value_lt
    have hfirst : Date.firstYear = -262143 := rfl
    have hlast : Date.lastYear = 262142 := rfl
    omega
  rw [valid, Bool.and_eq_true, Date.valid_iff, Clock.valid_iff]
  constructor
  · rintro ⟨⟨-, hday⟩, hclock⟩
    exact ⟨Date.month_mem hday.1 hday.2, hday, hclock⟩
  · rintro ⟨-, hday, hclock⟩
    exact ⟨⟨hyear, hday⟩, hclock⟩

open TimeRange in
/-- The writer and the readers of times agree for every instant in a year of four digits, leap
seconds included. Digits in the form of a time name an instant just if there is such a day and such
a time of day. -/
theorem basic_readers_agree :
    (∀ t : Instant, 0 ≤ t.date.year → t.date.year ≤ 9999 → t.LeapEndsMinute →
      parseBound t.basic = .ok t ∧
      TimeValue.parse t.basic = some (.moment t) ∧
      TimeValue.parse (String.ofList t.basic.toList.dropLast) = some (.moment t) ∧
      TimeValue.parse (String.ofList (t.basic.toList.take 8)) = some (.day t.midnight)) ∧
    ∀ s : Stamp, (∃ t, parseBound s.text = .ok t) ↔
      (1 ≤ s.month.value ∧ s.month.value ≤ 12) ∧
      (1 ≤ s.day.value ∧ s.day.value ≤ Date.monthLength s.year.value s.month.value) ∧
      s.hour.value ≤ 23 ∧ s.minute.value ≤ 59 ∧ s.second.value ≤ 60 := by
  refine ⟨?written, ?read⟩
  case written =>
    intro t hfirst hlast hleap
    obtain ⟨s, hvalid, rfl⟩ := t.exists_stamp hfirst hlast hleap
    obtain ⟨hdate, hclock⟩ := Bool.and_eq_true_iff.mp hvalid
    have hmidnight : s.instant.midnight = .ofDate s.date := by
      rw [← Instant.ofDate_date, Stamp.instant, Instant.date_ofDateClock hdate hclock]
    have hbound := s.parseBound_text
    have hvalue := s.parse_text
    have hfloating := s.parse_chars
    have hday := s.parse_dayText
    rw [if_pos hvalid] at hbound hvalue hfloating
    rw [if_pos hdate, ← hmidnight] at hday
    rw [s.basic_instant hvalid, s.toList_text, List.dropLast_concat, s.take_chars]
    exact ⟨hbound, hvalue, hfloating, hday⟩
  case read =>
    intro s
    rw [s.parseBound_text, ← Stamp.valid_iff]
    cases s.valid <;> simp

def lastOf2016 : Instant := ⟨1483228799, true⟩

/-- The leap second at the end of February 2024, in full. -/
def leapDay : Stamp where
  year := .ofNat 2024 (by decide) (by decide)
  month := .ofNat 2 (by decide) (by decide)
  day := .ofNat 29 (by decide) (by decide)
  hour := .ofNat 23 (by decide) (by decide)
  minute := .ofNat 59 (by decide) (by decide)
  second := .ofNat 60 (by decide) (by decide)

theorem basic_readers_agree_lastOf2016 :
    lastOf2016.basic = "20161231T235960Z" ∧
    (0 ≤ lastOf2016.date.year ∧ lastOf2016.date.year ≤ 9999 ∧ lastOf2016.LeapEndsMinute) ∧
    (TimeRange.parseBound "20161231T235960Z" = .ok lastOf2016 ∧
      TimeValue.parse "20161231T235960Z" = some (.moment lastOf2016) ∧
      TimeValue.parse "20161231T235960" = some (.moment lastOf2016) ∧
      TimeValue.parse "20161231" = some (.day ⟨1483142400, false⟩)) ∧
    leapDay.text = "20240229T235960Z" ∧ ∃ t, TimeRange.parseBound leapDay.text = .ok t := by
  have hbasic : lastOf2016.basic = "20161231T235960Z" := by decide +kernel
  have hfirst : 0 ≤ lastOf2016.date.year := by decide +kernel
  have hlast : lastOf2016.date.year ≤ 9999 := by decide +kernel
  have hleap : lastOf2016.LeapEndsMinute := fun _ => rfl
  obtain ⟨hbound, hvalue, hfloating, hday⟩ := basic_readers_agree.1 lastOf2016 hfirst hlast hleap
  rw [hbasic] at hbound hvalue hfloating hday
  exact ⟨hbasic, ⟨hfirst, hlast, hleap⟩, ⟨hbound, hvalue, hfloating, hday⟩, by decide +kernel,
    (basic_readers_agree.2 leapDay).mpr (by decide +kernel)⟩

end CalendarSearch
