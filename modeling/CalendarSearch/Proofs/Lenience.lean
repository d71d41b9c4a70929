import CalendarSearch.Proofs.Refusal
import CalendarSearch.Proofs.Stamps

/-! # Times that are not written in full

The attributes of a range have sixteen bytes with `T` and `Z` in their places, but the fields
between these may have blanks before them instead of some of their digits, and a year may have a
sign. Nothing else is let through: a time without blanks and signs has no way to make up its length
but by digits. So it is in full, and it is what is written of its instant. -/

namespace CalendarSearch

namespace Fields

open Text

/-! ### Fields without blanks -/

/-- At most so many digits, and what follows them. -/
def Leads (width : Nat) (cs rest : List Char) : Prop :=
  ∃ ds, cs = ds ++ rest ∧ ds.length ≤ width ∧ ∀ c ∈ ds, c.isDigit = true

def isPlain (c : Char) : Bool := !isBlank c && c != '+' && c != '-'

theorem isPlain_of_isDigit {c : Char} (h : c.isDigit = true) : isPlain c = true := by
  have hplus : c ≠ '+' := by
    rintro rfl
    cases h
  have hminus : c ≠ '-' := by
    rintro rfl
    cases h
  simp [isPlain, isBlank_of_isDigit h, hplus, hminus]

variable {cs rest : List Char}

theorem Leads.trans {m n : Nat} {mid : List Char} (h : Leads m cs mid) (h' : Leads n mid rest) :
    Leads (m + n) cs rest := by
  obtain ⟨ds, rfl, hlength, hds⟩ := h
  obtain ⟨es, rfl, hlength', hes⟩ := h'
  refine ⟨ds ++ es, (List.append_assoc ds es rest).symm, ?_, List.forall_mem_append.mpr ⟨hds, hes⟩⟩
  rw [List.length_append]
  omega

theorem Leads.plain {m : Nat} (h : Leads m cs rest) (hplain : ∀ c ∈ cs, isPlain c = true) :
    ∀ c ∈ rest, isPlain c = true := by
  obtain ⟨ds, rfl, -⟩ := h
  exact fun c hc => hplain c (List.mem_append_right ds hc)

theorem trimLeft_of_plain (hplain : ∀ c ∈ cs, isPlain c = true) : trimLeft cs = cs :=
  trimLeft_eq_self fun c hc => by
    have := hplain c hc
    simp only [isPlain, Bool.and_eq_true, Bool.not_eq_true'] at this
    exact this.1.1

/-- Without blanks to skip, a number takes its width of characters at most. -/
theorem leads_of_number {width n : Nat} (h : number width cs = some (n, rest))
    (hplain : ∀ c ∈ cs, isPlain c = true) : Leads width cs rest := by
  obtain ⟨ds, htaken, -, hlength, -⟩ := taken_of_number h
  rw [trimLeft_of_plain hplain] at htaken
  exact ⟨ds, htaken.split, hlength, htaken.isDigit⟩

theorem leads_of_year {y : Int} (h : year cs = some (y, rest))
    (hplain : ∀ c ∈ cs, isPlain c = true) : Leads 4 cs rest := by
  have htrim := trimLeft_of_plain hplain
  unfold year at h
  split at h
  · rename_i r hcs
    rw [htrim] at hcs
    exact absurd (hplain '-' (hcs ▸ List.mem_cons_self)) (by decide)
  · rename_i r hcs
    rw [htrim] at hcs
    exact absurd (hplain '+' (hcs ▸ List.mem_cons_self)) (by decide)
  · obtain ⟨⟨n, rest'⟩, hn, heq⟩ := Option.map_eq_some_iff.mp h
    cases heq
    rw [htrim] at hn
    exact leads_of_number hn hplain

theorem leads_of_date {d : Date} (h : date cs = some (d, rest))
    (hplain : ∀ c ∈ cs, isPlain c = true) : Leads 8 cs rest := by
  obtain ⟨afterYear, afterMonth, hyear, hmonth, hday, -⟩ := date_eq_some.mp h
  have hfirst := leads_of_year hyear hplain
  have hsecond := leads_of_number hmonth (hfirst.plain hplain)
  have hthird := leads_of_number hday (hsecond.plain (hfirst.plain hplain))
  exact (hfirst.trans hsecond).trans hthird

theorem leads_of_clock {c : Clock} (h : clock cs = some (c, rest))
    (hplain : ∀ c ∈ cs, isPlain c = true) : Leads 6 cs rest := by
  obtain ⟨afterHour, afterMinute, hhour, hminute, hsecond, -⟩ := clock_eq_some.mp h
  have hfirst := leads_of_number hhour hplain
  have hsecond' := leads_of_number hminute (hfirst.plain hplain)
  have hthird := leads_of_number hsecond (hsecond'.plain (hfirst.plain hplain))
  exact (hfirst.trans hsecond').trans hthird

/-- A time without blanks and signs is nothing but digits around its mark. -/
theorem exists_runs {t : Instant} (h : dateTime cs = some t)
    (hplain : ∀ c ∈ cs, isPlain c = true) :
    ∃ day time, cs = day ++ 'T' :: time ∧
      (day.length ≤ 8 ∧ ∀ c ∈ day, c.isDigit = true) ∧
      time.length ≤ 6 ∧ ∀ c ∈ time, c.isDigit = true := by
  obtain ⟨d, c, rest, hdate, hclock, -⟩ := dateTime_eq_some.mp h
  have hleads := leads_of_date hdate hplain
  have hrest : ∀ c ∈ rest, isPlain c = true := fun c hc =>
    hleads.plain hplain c (List.mem_cons_of_mem 'T' hc)
  obtain ⟨day, rfl, hday⟩ := hleads
  obtain ⟨time, hsplit, htime⟩ := leads_of_clock hclock hrest
  rw [List.append_nil] at hsplit
  exact ⟨day, time, hsplit ▸ rfl, hday, htime⟩

end Fields

/-- A year before year 0 is written with its sign, so there is one character too many. -/
theorem Instant.length_basic_of_neg {t : Instant} (h : t.date.year < 0) :
    17 ≤ t.basic.toList.length := by
  have hyear : yearText t.date.year = "-" ++ Text.padded 4 t.date.year.natAbs := by
    have hspan : ¬ (0 ≤ t.date.year && t.date.year ≤ 9999) = true := by
      simp only [Bool.and_eq_true, decide_eq_true_eq]
      omega
    rw [yearText, if_neg hspan, if_pos h]
  have hmark : "T".toList.length = 1 := rfl
  have hend : "Z".toList.length = 1 := rfl
  have hsign : "-".toList.length = 1 := rfl
  have hdigits := Text.le_length_padded 4 t.date.year.natAbs
  have hmonth := Text.le_length_padded 2 t.date.month
  have hday := Text.le_length_padded 2 t.date.day
  have hhour := Text.le_length_padded 2 t.clock.hour
  have hminute := Text.le_length_padded 2 t.clock.minute
  have hsecond := Text.le_length_padded 2 t.clock.second
  simp only [basic, hyear, toString, String.toList_append, List.length_append]
  omega

namespace TimeRange

open Fields Text

variable {value : String} {t : Instant}

/-- An accepted bound of digits and marks alone is in the full form: its length leaves no field
short. -/
theorem inFull_of_plain (h : parseBound value = .ok t)
    (hplain : ∀ c ∈ value.toList, isPlain c = true) : InFull value := by
  obtain ⟨cs, hvalue, hbytes, ht⟩ := dateTime_of_parseBound h
  have hcs : ∀ c ∈ cs, isPlain c = true := fun c hc =>
    hplain c (hvalue ▸ List.mem_append_left _ hc)
  obtain ⟨day, time, rfl, ⟨hday, hdayDigits⟩, htime, htimeDigits⟩ := exists_runs ht hcs
  have hmark : ('T').utf8Size = 1 := rfl
  rw [byteLength_append, byteLength_cons, hmark, byteLength_of_isDigit hdayDigits,
    byteLength_of_isDigit htimeDigits] at hbytes
  refine ⟨⟨day, by omega, hdayDigits⟩, ⟨time, by omega, htimeDigits⟩, ?_⟩
  rw [hvalue, List.append_assoc, List.cons_append]

theorem plain_of_inFull (h : InFull value) : ∀ c ∈ value.toList, isPlain c = true := by
  obtain ⟨day, time, hvalue⟩ := h
  intro c hc
  simp only [hvalue, List.mem_append, List.mem_cons, List.not_mem_nil, or_false] at hc
  rcases hc with hc | rfl | hc | rfl
  · exact isPlain_of_isDigit (day.isDigit c hc)
  · rfl
  · exact isPlain_of_isDigit (time.isDigit c hc)
  · rfl

/-- In the full form the text is the one its instant is written as. -/
theorem basic_of_inFull (h : parseBound value = .ok t) (hfull : InFull value) :
    t.basic = value := by
  obtain ⟨s, rfl⟩ := inFull_iff.mp hfull
  rw [s.parseBound_text] at h
  split at h
  · rename_i hvalid
    cases h
    exact s.basic_instant hvalid
  · cases h

theorem inFull_of_basic (h : parseBound value = .ok t) (hbasic : t.basic = value) :
    InFull value := by
  obtain ⟨d, c, hd, hyear, hc, ht⟩ := written_parseBound h
  have hdate : t.date = d := by rw [ht, Instant.date_ofDateClock hd hc]
  by_cases hneg : d.year < 0
  · have hlength := Instant.length_basic_of_neg (hdate ▸ hneg)
    obtain ⟨cs, hvalue, hbytes, -⟩ := dateTime_of_parseBound h
    have hle := length_le_byteLength cs
    rw [hbasic, hvalue, List.length_append, List.length_singleton] at hlength
    omega
  · obtain ⟨s, hsdate, hsclock⟩ := exists_stamp hd hc (by omega) (by omega)
    have hvalid : s.valid = true := by rw [Stamp.valid, hsdate, hsclock, hd, hc, Bool.and_self]
    have hinstant : s.instant = t := by rw [Stamp.instant, hsdate, hsclock, ht]
    exact inFull_iff.mpr ⟨s, by rw [← hbasic, ← hinstant, s.basic_instant hvalid]⟩

/-- What is not read as the bound of a range makes the filter invalid. What is read is in full just
if it has no blanks and no signs, and just if it is what is written of its instant. -/
theorem parseBound_form (value : String) :
    ((∃ t, parseBound value = .ok t) ∨ ∃ flaw, parseBound value = .error (.invalid flaw)) ∧
    ∀ t, parseBound value = .ok t →
      (InFull value ↔ ∀ c ∈ value.toList, isPlain c = true) ∧ (InFull value ↔ t.basic = value) := by
  constructor
  · cases h : parseBound value with
    | ok t => exact .inl ⟨t, rfl⟩
    | error e =>
      obtain ⟨flaw, rfl⟩ := parseBound_error h
      exact .inr ⟨flaw, rfl⟩
  · intro t h
    exact ⟨⟨plain_of_inFull, inFull_of_plain h⟩, ⟨basic_of_inFull h, inFull_of_basic h⟩⟩

/-- The second of September 2004, with a blank for every zero that leads. -/
theorem blanks_accepted :
    (∃ t, parseBound "2004 9 2T 0 0 0Z" = .ok t ∧ t.basic = "20040902T000000Z") ∧
      ¬ InFull "2004 9 2T 0 0 0Z" := by
  refine ⟨⟨⟨1094083200, false⟩, rfl, by decide +kernel⟩, ?_⟩
  intro h
  exact absurd (plain_of_inFull h ' ' (by decide)) (by decide)

theorem parseBound_form_september :
    (parseBound "2004 9 2T 0 0 0Z" = .ok ⟨1094083200, false⟩ ∧ ¬ InFull "2004 9 2T 0 0 0Z") ∧
    parseBound "20040902T000000Z" = .ok ⟨1094083200, false⟩ ∧ InFull "20040902T000000Z" := by
  have hblanks : parseBound "2004 9 2T 0 0 0Z" = .ok ⟨1094083200, false⟩ := rfl
  have hfull : parseBound "20040902T000000Z" = .ok ⟨1094083200, false⟩ := rfl
  refine ⟨⟨hblanks, ?_⟩, hfull, ?_⟩
  · intro h
    exact absurd (((parseBound_form _).2 _ hblanks).2.mp h) (by decide +kernel)
  · exact ((parseBound_form _).2 _ hfull).2.mpr (by decide +kernel)

end TimeRange

end CalendarSearch
