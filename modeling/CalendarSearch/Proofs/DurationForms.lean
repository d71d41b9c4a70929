import CalendarSearch.Proofs.Durations

/-! # The durations that are let through

Of what it has read the reader keeps the sum, whether the `T` has come, whether there was a unit,
and the digits that wait for one. So it knows the two halves of a duration apart, but it does not
know which units there have been. What it lets through are the spellings with a part at least; such
a spelling follows the grammar just if its units go from large to small, weeks stand alone, and
something follows the `T`. -/

namespace CalendarSearch.Duration

open Text

/-! ### What is read is spelled -/

/-- The letters that stand for a unit are those of the five units, split by the `T` mark. -/
theorem exists_unit {inTime : Bool} {c : Char} {n : Nat} (h : unitSeconds inTime c = some n) :
    ∃ u : TimeUnit, u.inTime = inTime ∧ u.letter = c := by
  unfold unitSeconds at h
  split at h
  · exact ⟨.week, rfl, rfl⟩
  · exact ⟨.day, rfl, rfl⟩
  · exact ⟨.hour, rfl, rfl⟩
  · exact ⟨.minute, rfl, rfl⟩
  · exact ⟨.second, rfl, rfl⟩
  · cases h

theorem exists_numeral {ds : List Char} (hne : ds ≠ []) (hds : ∀ c ∈ ds, c.isDigit = true) :
    ∃ n : Numeral, n.chars = ds := by
  cases ds with
  | nil => exact absurd rfl hne
  | cons c ds => exact ⟨.ofDigits c ds (List.all_eq_true.mpr hds), rfl⟩

namespace Body

theorem exists_mark {b : Body} (h : b.time = none) :
    ∃ b' : Body, b'.chars = b.chars ++ ['T'] ∧ b'.time.isSome = true ∧ b'.parts = b.parts := by
  refine ⟨⟨b.date, some [], b.dateUnits, by simp⟩, ?_, rfl, ?_⟩
  · rw [chars, chars, h, List.append_assoc]
    rfl
  · rw [parts, parts, h]
    rfl

theorem exists_append {b : Body} {p : Part} (hp : p.unit.inTime = b.time.isSome) :
    ∃ b' : Body, b'.chars = b.chars ++ p.chars ∧ b'.time.isSome = b.time.isSome ∧
      b'.parts = b.parts ++ [p] := by
  obtain ⟨date, time, hdate, htime⟩ := b
  have hone : [p].flatMap Part.chars = p.chars := by
    rw [List.flatMap_cons, List.flatMap_nil, List.append_nil]
  cases time with
  | none =>
    have hunits : ∀ q ∈ date ++ [p], q.unit.inTime = false :=
      List.forall_mem_append.mpr ⟨hdate, List.forall_mem_singleton.mpr hp⟩
    refine ⟨⟨date ++ [p], none, hunits, by simp⟩, ?_, rfl, ?_⟩
    · simp only [chars, timeChars, List.flatMap_append, hone, List.append_nil]
    · simp only [parts, Option.getD_none, List.append_nil]
  | some ps =>
    have hunits : ∀ q ∈ ps ++ [p], q.unit.inTime = true :=
      List.forall_mem_append.mpr ⟨htime ps rfl, List.forall_mem_singleton.mpr hp⟩
    refine ⟨⟨date, some (ps ++ [p]), hdate, by rintro _ ⟨⟩; exact hunits⟩, ?_, rfl, ?_⟩
    · simp only [chars, timeChars, List.flatMap_append, hone, List.append_assoc, List.cons_append]
    · simp only [parts, Option.getD_some, List.append_assoc]

end Body

/-- What has been read so far is a body, and digits that wait for their unit. -/
structure Progress.Follows (p : Progress) (b : Body) (waiting cs : List Char) : Prop where
  split : cs = b.chars ++ waiting
  isDigit : ∀ c ∈ waiting, c.isDigit = true
  pending : p.pending = none ↔ waiting = []
  inTime : p.inTime = b.time.isSome
  seen : p.seen = !b.parts.isEmpty

/-- One character keeps the reader in step with a body and the digits still waiting for a unit. -/
theorem Progress.Follows.step {p p' : Progress} {b : Body} {waiting cs : List Char} {c : Char}
    (h : p.Follows b waiting cs) (hstep : p.step c = some p') :
    ∃ b' waiting', p'.Follows b' waiting' (cs ++ [c]) := by
  obtain ⟨rfl, hdigits, hpending, hinTime, hseen⟩ := h
  unfold Progress.step at hstep
  split at hstep
  · -- one more digit waits
    rename_i hc
    cases hstep
    refine ⟨b, waiting ++ [c], List.append_assoc _ _ _, ?_, by simp, hinTime, hseen⟩
    exact List.forall_mem_append.mpr ⟨hdigits, List.forall_mem_singleton.mpr hc⟩
  · split at hstep
    · -- the mark, where no digits wait
      rename_i hmark
      obtain ⟨rfl, hdate, hnone⟩ := hmark
      cases hstep
      have htime : b.time = none := by
        rw [hdate] at hinTime
        exact Option.not_isSome_iff_eq_none.mp (by simp [← hinTime])
      obtain ⟨b', hchars, hsome, hparts⟩ := Body.exists_mark htime
      have hwaiting : waiting = [] := hpending.mp hnone
      refine ⟨b', [], ?_, by simp, by simpa using hnone, hsome.symm, ?_⟩
      · rw [hchars, hwaiting, List.append_nil, List.append_nil]
      · rw [hparts]
        exact hseen
    · -- the unit of the digits that wait
      simp only [Option.bind_eq_bind, Option.bind_eq_some_iff] at hstep
      obtain ⟨n, hn, seconds, hseconds, hstep⟩ := hstep
      split at hstep
      · cases hstep
        obtain ⟨u, hu, rfl⟩ := exists_unit hseconds
        have hne : waiting ≠ [] := fun hnil => by
          rw [hpending.mpr hnil] at hn
          cases hn
        obtain ⟨number, rfl⟩ := exists_numeral hne hdigits
        obtain ⟨b', hchars, hsome, hparts⟩ := Body.exists_append (b := b) (p := ⟨number, u⟩)
          (hu.trans hinTime)
        refine ⟨b', [], ?_, by simp, by simp, hinTime.trans hsome.symm, ?_⟩
        · rw [hchars, List.append_assoc, List.append_nil]
          rfl
        · rw [hparts]
          simp
      · cases hstep

theorem Progress.Follows.run {p p' : Progress} {b : Body} {waiting before cs : List Char}
    (h : p.Follows b waiting before) (hrun : cs.foldlM Progress.step p = some p') :
    ∃ b' waiting', p'.Follows b' waiting' (before ++ cs) := by
  induction cs generalizing p b waiting before with
  | nil =>
    cases hrun
    exact ⟨b, waiting, (List.append_nil before).symm ▸ h⟩
  | cons c cs ih =>
    rw [List.foldlM_cons] at hrun
    obtain ⟨q, hq, hrun⟩ := Option.bind_eq_some_iff.mp hrun
    obtain ⟨b', waiting', hfollows⟩ := h.step hq
    have hih := ih hfollows hrun
    rwa [List.append_assoc, List.singleton_append] at hih

/-- Whatever is read as a magnitude is spelled by a body with at least one part. -/
theorem exists_body {cs : List Char} {n : Nat} (h : magnitude cs = some n) :
    ∃ b : Body, cs = b.chars ∧ b.parts ≠ [] := by
  obtain ⟨p, hp, h⟩ := Option.bind_eq_some_iff.mp h
  have hstart : ({} : Progress).Follows ⟨[], none, by simp, by simp⟩ [] [] :=
    ⟨rfl, by simp, by simp, rfl, rfl⟩
  obtain ⟨b, waiting, hfollows⟩ := hstart.run hp
  split at h
  · rename_i hend
    have hwaiting : waiting = [] := hfollows.pending.mp hend.1
    refine ⟨b, ?_, ?_⟩
    · have hsplit := hfollows.split
      rwa [hwaiting, List.append_nil, List.nil_append] at hsplit
    · intro hparts
      have hseen := hfollows.seen
      rw [hparts, hend.2] at hseen
      cases hseen
  · cases h

/-- An accepted value is, trimmed, a sign, a `P` and a magnitude. -/
theorem exists_sign {value : String} {n : Int} (h : parse value = some n) :
    ∃ (sign : Sign) (rest : List Char) (m : Nat),
      trim value.toList = sign.chars ++ 'P' :: rest ∧ magnitude rest = some m := by
  unfold parse ofChars at h
  split at h
  · rename_i rest htrim
    obtain ⟨m, hm, -⟩ := Option.map_eq_some_iff.mp h
    obtain ⟨m, hm, -⟩ := Option.bind_eq_some_iff.mp hm
    exact ⟨.minus, rest, m, htrim, hm⟩
  · rename_i rest htrim
    obtain ⟨m, hm, -⟩ := Option.map_eq_some_iff.mp h
    exact ⟨.plus, rest, m, htrim, hm⟩
  · rename_i rest htrim
    obtain ⟨m, hm, -⟩ := Option.map_eq_some_iff.mp h
    exact ⟨.none, rest, m, htrim, hm⟩
  · cases h

/-- A text is read just if it is spelled, with a part at least, and the parts fit. -/
theorem exists_parse_iff {value : String} :
    (∃ n, parse value = some n) ↔
      ∃ s : Spelling, trim value.toList = s.chars ∧ s.parts ≠ [] ∧ s.Fits := by
  constructor
  · rintro ⟨n, hn⟩
    obtain ⟨sign, rest, m, htrim, hm⟩ := exists_sign hn
    obtain ⟨b, rfl, hparts⟩ := exists_body hm
    have hs := Spelling.parse_of_trim (s := ⟨b, sign⟩) htrim
    rw [hn] at hs
    split at hs
    · rename_i hfits
      exact ⟨⟨b, sign⟩, htrim, hparts, Spelling.fits_iff.mpr hfits.2⟩
    · cases hs
  · rintro ⟨s, htrim, hparts, hfits⟩
    refine ⟨s.value, ?_⟩
    rw [Spelling.parse_of_trim htrim, if_pos ⟨hparts, Spelling.fits_iff.mp hfits⟩]

/-! ### The grammar -/

/-- A number and the letter of its unit, or nothing. -/
def field (letter : Char) (n : Option Numeral) : List Char := n.elim [] fun n => n.chars ++ [letter]

/-- A duration by the grammar: weeks alone, or days, or a time with or without days. A time has
hours, minutes or seconds, in this order. -/
inductive IsDuration : List Char → Prop
  | weeks (sign : Sign) (n : Numeral) : IsDuration (sign.chars ++ 'P' :: field 'W' (some n))
  | days (sign : Sign) (n : Numeral) : IsDuration (sign.chars ++ 'P' :: field 'D' (some n))
  | time (sign : Sign) (day hour minute second : Option Numeral)
    (any : hour.isSome ∨ minute.isSome ∨ second.isSome) :
    IsDuration (sign.chars ++ 'P' ::
      (field 'D' day ++ 'T' :: (field 'H' hour ++ field 'M' minute ++ field 'S' second)))

def units (ps : List Part) : List TimeUnit := ps.map Part.unit

theorem units_append (ps qs : List Part) : units (ps ++ qs) = units ps ++ units qs :=
  List.map_append

/-- Every unit is smaller than those before it. -/
def Descends (us : List TimeUnit) : Prop := us.Pairwise fun u v => v.seconds < u.seconds

/-- What the grammar asks of a spelling beyond its form. -/
structure Spelling.Regular (s : Spelling) : Prop where
  nonempty : s.parts ≠ []
  /-- Something follows the `T`. -/
  timed : s.time ≠ some []
  descends : Descends (units s.parts)
  weeksAlone : .week ∈ units s.parts → units s.parts = [.week]

/-! ### What a text says of its spelling -/

namespace TimeUnit

def ofLetter? (c : Char) : Option TimeUnit :=
  [week, day, hour, minute, second].find? (·.letter = c)

theorem ofLetter?_letter (u : TimeUnit) : ofLetter? u.letter = some u := by cases u <;> rfl

theorem ofLetter?_of_isDigit {c : Char} (h : c.isDigit = true) : ofLetter? c = none := by
  rw [ofLetter?, List.find?_eq_none]
  rintro u - heq
  have hu := u.isDigit_letter
  rw [of_decide_eq_true heq, h] at hu
  cases hu

end TimeUnit

theorem exists_last_letter {ps : List Part} (hne : ps ≠ []) :
    ∃ (front : List Char) (u : TimeUnit), ps.flatMap Part.chars = front ++ [u.letter] := by
  rcases List.eq_nil_or_concat' ps with rfl | ⟨qs, p, rfl⟩
  · exact absurd rfl hne
  · refine ⟨qs.flatMap Part.chars ++ p.number.chars, p.unit, ?_⟩
    rw [List.flatMap_append, List.flatMap_cons, List.flatMap_nil, List.append_nil, Part.chars,
      List.append_assoc]

/-- The unit letters of a text are the units of its parts, digits standing for none. -/
theorem filterMap_parts (ps : List Part) :
    (ps.flatMap Part.chars).filterMap TimeUnit.ofLetter? = units ps := by
  induction ps with
  | nil => rfl
  | cons p ps ih =>
    have hnumber : p.number.chars.filterMap TimeUnit.ofLetter? = [] :=
      List.filterMap_eq_nil_iff.mpr fun c hc => TimeUnit.ofLetter?_of_isDigit (Numeral.isDigit c hc)
    rw [List.flatMap_cons, List.filterMap_append, ih, Part.chars, List.filterMap_append, hnumber,
      List.nil_append, List.filterMap_cons_some (TimeUnit.ofLetter?_letter p.unit)]
    rfl

namespace Spelling

/-- The letters of units tell which units there are. -/
theorem filterMap_chars (s : Spelling) :
    s.chars.filterMap TimeUnit.ofLetter? = units s.parts := by
  have hsign : s.sign.chars.filterMap TimeUnit.ofLetter? = [] := by cases s.sign <;> rfl
  have hstart : TimeUnit.ofLetter? 'P' = none := rfl
  have hmark : TimeUnit.ofLetter? 'T' = none := rfl
  have htime : (Body.timeChars s.time).filterMap TimeUnit.ofLetter? = units (s.time.getD []) := by
    cases s.time with
    | none => rfl
    | some ps => rw [Body.timeChars, List.filterMap_cons_none hmark, filterMap_parts]; rfl
  rw [chars, List.filterMap_append, hsign, List.nil_append, List.filterMap_cons_none hstart,
    Body.chars, List.filterMap_append, filterMap_parts, htime, Body.parts, units_append]

/-- The last character tells whether anything follows the `T`. -/
theorem getLast?_chars (s : Spelling) : s.chars.getLast? = some 'T' ↔ s.time = some [] := by
  suffices h : ∃ front c, s.chars = front ++ [c] ∧ (c = 'T' ↔ s.time = some []) by
    obtain ⟨front, c, hchars, hc⟩ := h
    rw [hchars, List.getLast?_concat, Option.some_inj, hc]
  obtain ⟨⟨date, time, hdate, htime⟩, sign⟩ := s
  rcases time with _ | _ | ⟨p, ps⟩
  · by_cases hnil : date = []
    · subst hnil
      exact ⟨sign.chars, 'P', rfl, by simp⟩
    · obtain ⟨front, u, hlast⟩ := exists_last_letter hnil
      refine ⟨sign.chars ++ 'P' :: front, u.letter, ?_, by simp [u.letter_ne_mark]⟩
      simp only [chars, Body.chars, Body.timeChars, hlast, List.append_nil, List.append_assoc,
        List.cons_append]
  · refine ⟨sign.chars ++ 'P' :: date.flatMap Part.chars, 'T', ?_, by simp⟩
    simp only [chars, Body.chars, Body.timeChars, List.flatMap_nil, List.append_assoc,
      List.cons_append]
  · obtain ⟨front, u, hlast⟩ := exists_last_letter (List.cons_ne_nil p ps)
    refine ⟨sign.chars ++ 'P' :: (date.flatMap Part.chars ++ 'T' :: front), u.letter, ?_,
      by simp [u.letter_ne_mark]⟩
    simp only [chars, Body.chars, Body.timeChars, hlast, List.append_assoc, List.cons_append]

/-- Whether a spelling is regular depends on what it looks like and not on how it was cut up. -/
theorem regular_congr {s t : Spelling} (h : s.chars = t.chars) : s.Regular ↔ t.Regular := by
  have hunits : units s.parts = units t.parts := by rw [← filterMap_chars, h, filterMap_chars]
  have htime : s.time = some [] ↔ t.time = some [] := by rw [← getLast?_chars, h, getLast?_chars]
  have hparts : s.parts = [] ↔ t.parts = [] := by
    rw [← List.map_eq_nil_iff, ← units, hunits, units, List.map_eq_nil_iff]
  constructor
  · intro hs
    exact ⟨fun ht => hs.nonempty (hparts.mpr ht), fun ht => hs.timed (htime.mpr ht),
      hunits ▸ hs.descends, hunits ▸ hs.weeksAlone⟩
  · intro ht
    exact ⟨fun hs => ht.nonempty (hparts.mp hs), fun hs => ht.timed (htime.mp hs),
      hunits ▸ ht.descends, hunits ▸ ht.weeksAlone⟩

end Spelling

/-! ### Fields of the grammar -/

def partOf (u : TimeUnit) (n : Option Numeral) : List Part := (n.map (⟨·, u⟩)).toList

theorem flatMap_partOf (u : TimeUnit) (n : Option Numeral) :
    (partOf u n).flatMap Part.chars = field u.letter n := by
  cases n with
  | none => rfl
  | some n => exact List.append_nil _

theorem unit_of_mem_partOf {u : TimeUnit} {n : Option Numeral} {p : Part} (hp : p ∈ partOf u n) :
    p.unit = u := by
  obtain ⟨n, -, rfl⟩ := Option.map_eq_some_iff.mp (Option.mem_toList.mp hp)
  rfl

theorem units_partOf_sublist (u : TimeUnit) (n : Option Numeral) :
    List.Sublist (units (partOf u n)) [u] := by
  cases n with
  | none => exact List.nil_sublist _
  | some n => exact List.Sublist.refl _

namespace Spelling

/-- One number alone, of weeks or days. -/
def alone (sign : Sign) (n : Numeral) (u : TimeUnit) (hu : u.inTime = false) : Spelling where
  sign := sign
  date := [⟨n, u⟩]
  time := none
  dateUnits := List.forall_mem_singleton.mpr hu
  timeUnits := by simp

/-- Days, and hours, minutes and seconds after a `T`, as far as they are given. -/
def ofFields (sign : Sign) (day hour minute second : Option Numeral) : Spelling where
  sign := sign
  date := partOf .day day
  time := some (partOf .hour hour ++ (partOf .minute minute ++ partOf .second second))
  dateUnits := fun p hp => by
    rw [unit_of_mem_partOf hp]
    rfl
  timeUnits := by
    rintro _ ⟨⟩
    simp only [List.forall_mem_append]
    refine ⟨fun p hp => ?_, fun p hp => ?_, fun p hp => ?_⟩ <;> rw [unit_of_mem_partOf hp] <;> rfl

variable {sign : Sign} {n : Numeral} {u : TimeUnit} {day hour minute second : Option Numeral}

theorem chars_alone (hu : u.inTime = false) :
    (alone sign n u hu).chars = sign.chars ++ 'P' :: field u.letter (some n) := by
  simp only [alone, chars, Body.chars, Body.timeChars, List.flatMap_cons, List.flatMap_nil,
    List.append_nil]
  rfl

theorem regular_alone (hu : u.inTime = false) : (alone sign n u hu).Regular where
  nonempty := List.cons_ne_nil _ _
  timed := by simp [alone]
  descends := List.pairwise_singleton _ u
  weeksAlone := fun hweek => by
    have hunit : .week = u := List.mem_singleton.mp hweek
    rw [hunit]
    rfl

theorem chars_ofFields :
    (ofFields sign day hour minute second).chars = sign.chars ++ 'P' ::
      (field 'D' day ++ 'T' :: (field 'H' hour ++ field 'M' minute ++ field 'S' second)) := by
  simp only [ofFields, chars, Body.chars, Body.timeChars, List.flatMap_append, flatMap_partOf,
    TimeUnit.letter, List.append_assoc]

/-- Each unit is written at most once, from days down to seconds. -/
theorem units_ofFields_sublist :
    List.Sublist (units (ofFields sign day hour minute second).parts)
      [.day, .hour, .minute, .second] := by
  have h := (units_partOf_sublist .day day).append <|
    (units_partOf_sublist .hour hour).append <|
      (units_partOf_sublist .minute minute).append (units_partOf_sublist .second second)
  simp only [← units_append] at h
  exact h

theorem time_ofFields_ne (any : hour.isSome ∨ minute.isSome ∨ second.isSome) :
    (ofFields sign day hour minute second).time ≠ some [] := by
  intro htime
  rcases any with h | h | h <;> obtain ⟨n, rfl⟩ := Option.isSome_iff_exists.mp h <;>
    simp [ofFields, partOf] at htime

theorem regular_ofFields (any : hour.isSome ∨ minute.isSome ∨ second.isSome) :
    (ofFields sign day hour minute second).Regular where
  nonempty := by
    intro hparts
    have htime : (ofFields sign day hour minute second).time = some [] :=
      congrArg some (List.append_eq_nil_iff.mp hparts).2
    exact time_ofFields_ne any htime
  timed := time_ofFields_ne any
  descends := by
    have hall : Descends [.day, .hour, .minute, .second] := by simp [Descends, TimeUnit.seconds]
    exact hall.sublist units_ofFields_sublist
  weeksAlone := fun hweek => absurd (units_ofFields_sublist.subset hweek) (by decide)

end Spelling

/-- A duration of the grammar is a regular spelling. -/
theorem IsDuration.exists_regular {cs : List Char} (h : IsDuration cs) :
    ∃ s : Spelling, cs = s.chars ∧ s.Regular := by
  cases h with
  | weeks sign n =>
    have hu : TimeUnit.week.inTime = false := rfl
    exact ⟨.alone sign n .week hu, (Spelling.chars_alone hu).symm, Spelling.regular_alone hu⟩
  | days sign n =>
    have hu : TimeUnit.day.inTime = false := rfl
    exact ⟨.alone sign n .day hu, (Spelling.chars_alone hu).symm, Spelling.regular_alone hu⟩
  | time sign day hour minute second any =>
    exact ⟨.ofFields sign day hour minute second, Spelling.chars_ofFields.symm,
      Spelling.regular_ofFields any⟩

/-! ### A regular spelling is a duration of the grammar -/

theorem TimeUnit.eq_of_seconds {u v : TimeUnit} (h : u.seconds = v.seconds) : u = v := by
  cases u <;> cases v <;> first | rfl | (exact absurd h (by decide))

/-- The first of the parts is the largest, so it has the unit or all are smaller. -/
theorem exists_field {ps : List Part} {u : TimeUnit} (hps : Descends (units ps))
    (hle : ∀ p ∈ ps, p.unit.seconds ≤ u.seconds) :
    ∃ (n : Option Numeral) (rest : List Part),
      ps.flatMap Part.chars = field u.letter n ++ rest.flatMap Part.chars ∧
      Descends (units rest) ∧ ∀ p ∈ rest, p ∈ ps ∧ p.unit.seconds < u.seconds := by
  cases ps with
  | nil => exact ⟨none, [], rfl, hps, by simp⟩
  | cons p ps =>
    obtain ⟨hsmaller, hrest⟩ := List.pairwise_cons.mp hps
    have hbelow : ∀ q ∈ ps, q.unit.seconds < p.unit.seconds := fun q hq =>
      hsmaller q.unit (List.mem_map_of_mem hq)
    have hp : p.unit.seconds ≤ u.seconds := hle p List.mem_cons_self
    by_cases hunit : p.unit = u
    · refine ⟨some p.number, ps, ?_, hrest, fun q hq => ⟨List.mem_cons_of_mem p hq, ?_⟩⟩
      · rw [List.flatMap_cons, Part.chars, hunit]
        rfl
      · exact hunit ▸ hbelow q hq
    · have hlt : p.unit.seconds < u.seconds :=
        Nat.lt_of_le_of_ne hp fun h => hunit (TimeUnit.eq_of_seconds h)
      refine ⟨none, p :: ps, rfl, hps, fun q hq => ⟨hq, ?_⟩⟩
      rcases List.mem_cons.mp hq with rfl | hq
      · exact hlt
      · exact (hbelow q hq).trans hlt

theorem exists_timeFields {ps : List Part} (hps : Descends (units ps))
    (htime : ∀ p ∈ ps, p.unit.inTime = true) :
    ∃ hour minute second : Option Numeral,
      ps.flatMap Part.chars = field 'H' hour ++ field 'M' minute ++ field 'S' second := by
  have hhour (u : TimeUnit) (h : u.inTime = true) : u.seconds ≤ TimeUnit.hour.seconds := by
    cases u <;> first | decide | cases h
  have hminute (u : TimeUnit) (h : u.seconds < TimeUnit.hour.seconds) :
      u.seconds ≤ TimeUnit.minute.seconds := by
    cases u <;> revert h <;> decide
  have hsecond (u : TimeUnit) (h : u.seconds < TimeUnit.minute.seconds) :
      u.seconds ≤ TimeUnit.second.seconds := by
    cases u <;> revert h <;> decide
  obtain ⟨hour, afterHour, hsplit, hdescends, hafter⟩ :=
    exists_field hps fun p hp => hhour p.unit (htime p hp)
  obtain ⟨minute, afterMinute, hsplit', hdescends', hafter'⟩ :=
    exists_field hdescends fun p hp => hminute p.unit (hafter p hp).2
  obtain ⟨second, rest, hsplit'', -, hrest⟩ :=
    exists_field hdescends' fun p hp => hsecond p.unit (hafter' p hp).2
  have hnil : rest = [] := List.eq_nil_iff_forall_not_mem.mpr fun p hp =>
    absurd (hrest p hp).2 (Nat.not_lt.mpr p.unit.seconds_pos)
  refine ⟨hour, minute, second, ?_⟩
  rw [hsplit, hsplit', hsplit'', hnil, List.flatMap_nil, List.append_nil, List.append_assoc]
  rfl

theorem exists_dateField {ps : List Part} (hps : Descends (units ps))
    (hdate : ∀ p ∈ ps, p.unit.inTime = false) (hweek : .week ∉ units ps) :
    ∃ day : Option Numeral, ps.flatMap Part.chars = field 'D' day := by
  have hday : ∀ p ∈ ps, p.unit = .day := fun p hp => by
    have hne : p.unit ≠ .week := fun h => hweek (h ▸ List.mem_map_of_mem hp)
    have hunit := hdate p hp
    cases hu : p.unit <;> simp_all [TimeUnit.inTime]
  obtain ⟨day, rest, hsplit, -, hrest⟩ := exists_field (u := .day) hps fun p hp =>
    (congrArg TimeUnit.seconds (hday p hp)).le
  have hnil : rest = [] := List.eq_nil_iff_forall_not_mem.mpr fun p hp => by
    obtain ⟨hmem, hlt⟩ := hrest p hp
    rw [hday p hmem] at hlt
    exact absurd hlt (Nat.lt_irrefl _)
  exact ⟨day, by rw [hsplit, hnil, List.flatMap_nil, List.append_nil]; rfl⟩

namespace Spelling

variable {s : Spelling}

theorem chars_of_time_none (h : s.time = none) :
    s.chars = s.sign.chars ++ 'P' :: s.date.flatMap Part.chars := by
  rw [chars, Body.chars, h, Body.timeChars, List.append_nil]

theorem chars_of_time_some {ps : List Part} (h : s.time = some ps) :
    s.chars =
      s.sign.chars ++ 'P' :: (s.date.flatMap Part.chars ++ 'T' :: ps.flatMap Part.chars) := by
  rw [chars, Body.chars, h, Body.timeChars]

theorem parts_of_time_none (h : s.time = none) : s.parts = s.date := by
  rw [Body.parts, h, Option.getD_none, List.append_nil]

theorem parts_of_time_some {ps : List Part} (h : s.time = some ps) : s.parts = s.date ++ ps := by
  rw [Body.parts, h, Option.getD_some]

/-- A regular spelling with a week in it is that week alone. -/
theorem Regular.isDuration_weeks (h : s.Regular) (hweek : .week ∈ units s.parts) :
    IsDuration s.chars := by
  obtain ⟨p, hp, hunit⟩ := List.map_eq_singleton_iff.mp (h.weeksAlone hweek)
  cases htime : s.time with
  | none =>
    rw [parts_of_time_none htime] at hp
    have hfield : s.date.flatMap Part.chars = field 'W' (some p.number) := by
      rw [hp, List.flatMap_cons, List.flatMap_nil, List.append_nil, Part.chars, hunit]
      rfl
    rw [chars_of_time_none htime, hfield]
    exact .weeks s.sign p.number
  | some ps =>
    rw [parts_of_time_some htime] at hp
    have hmem : p ∈ ps := by
      rcases List.append_eq_singleton_iff.mp hp with ⟨-, hps⟩ | ⟨-, hps⟩
      · rw [hps]
        exact List.mem_singleton_self p
      · exact absurd (hps ▸ htime) h.timed
    have hin := s.timeUnits ps htime p hmem
    rw [hunit] at hin
    cases hin

theorem Regular.isDuration_fields (h : s.Regular) (hweek : .week ∉ units s.parts) :
    IsDuration s.chars := by
  have hparts : s.parts ≠ [] := h.nonempty
  have hdate : List.Sublist s.date s.parts := List.sublist_append_left s.date _
  obtain ⟨day, hday⟩ := exists_dateField (h.descends.sublist (hdate.map _)) s.dateUnits
    fun hmem => hweek ((hdate.map _).subset hmem)
  cases htime : s.time with
  | none =>
    rw [parts_of_time_none htime] at hparts
    rw [chars_of_time_none htime, hday]
    cases day with
    | some n => exact .days s.sign n
    | none =>
      obtain ⟨front, u, hlast⟩ := exists_last_letter hparts
      rw [hday] at hlast
      simp [field] at hlast
  | some ps =>
    have hne : ps ≠ [] := fun hnil => h.timed (hnil ▸ htime)
    have hps : List.Sublist ps s.parts := by
      rw [parts_of_time_some htime]
      exact List.sublist_append_right s.date ps
    obtain ⟨hour, minute, second, hfields⟩ :=
      exists_timeFields (h.descends.sublist (hps.map _)) (s.timeUnits ps htime)
    have hany : hour.isSome ∨ minute.isSome ∨ second.isSome := by
      by_contra hnone
      simp only [not_or, Option.not_isSome_iff_eq_none] at hnone
      obtain ⟨rfl, rfl, rfl⟩ := hnone
      obtain ⟨front, u, hlast⟩ := exists_last_letter hne
      rw [hfields] at hlast
      simp [field] at hlast
    rw [chars_of_time_some htime, hday, hfields]
    exact .time s.sign day hour minute second hany

/-- A spelling is regular exactly when its text is in the grammar of durations. -/
theorem isDuration_iff : IsDuration s.chars ↔ s.Regular := by
  constructor
  · intro h
    obtain ⟨t, hchars, ht⟩ := h.exists_regular
    exact (regular_congr hchars).mpr ht
  · intro h
    by_cases hweek : .week ∈ units s.parts
    · exact h.isDuration_weeks hweek
    · exact h.isDuration_fields hweek

end Spelling

/-- A text is read just if it is spelled, between blanks, with one part at least, and the parts fit.
The durations of the grammar are among what is spelled: those with one part at least where something
follows the `T`, the units go from large to small, and weeks stand alone. -/
theorem parse_forms (value : String) :
    ((∃ n, parse value = some n) ↔
      ∃ s : Spelling, trim value.toList = s.chars ∧ s.parts ≠ [] ∧ s.Fits) ∧
    (IsDuration (trim value.toList) ↔ ∃ s : Spelling, trim value.toList = s.chars ∧ s.Regular) ∧
    ∀ s t : Spelling, s.chars = t.chars → (s.Regular ↔ t.Regular) := by
  refine ⟨exists_parse_iff, ⟨IsDuration.exists_regular, ?_⟩, fun s t => Spelling.regular_congr⟩
  rintro ⟨s, htrim, hregular⟩
  rw [htrim]
  exact Spelling.isDuration_iff.mpr hregular

/-- A day, and a `T` that nothing follows. -/
def bareMark : Spelling where
  sign := .none
  date := [⟨one, .day⟩]
  time := some []
  dateUnits := by decide
  timeUnits := by decide

def weekAndDay : Spelling where
  sign := .none
  date := [⟨one, .week⟩, ⟨one, .day⟩]
  time := none
  dateUnits := by decide
  timeUnits := by decide

def secondFirst : Spelling where
  sign := .none
  date := []
  time := some [⟨one, .second⟩, ⟨one, .hour⟩]
  dateUnits := by decide
  timeUnits := by decide

def dayTwice : Spelling where
  sign := .none
  date := [⟨one, .day⟩, ⟨one, .day⟩]
  time := none
  dateUnits := by decide
  timeUnits := by decide

def dayAndMinute : Spelling where
  sign := .minus
  date := [⟨one, .day⟩]
  time := some [⟨one, .minute⟩]
  dateUnits := by decide
  timeUnits := by decide

theorem irregular_read :
    (parse "P1DT" = some 86400 ∧ ¬ IsDuration (trim "P1DT".toList)) ∧
    (parse "P1W1D" = some 691200 ∧ ¬ IsDuration (trim "P1W1D".toList)) ∧
    (parse "PT1S1H" = some 3601 ∧ ¬ IsDuration (trim "PT1S1H".toList)) ∧
    parse "P1D1D" = some 172800 ∧ ¬ IsDuration (trim "P1D1D".toList) := by
  refine ⟨⟨rfl, fun h => ?_⟩, ⟨rfl, fun h => ?_⟩, ⟨rfl, fun h => ?_⟩, rfl, fun h => ?_⟩
  · have hregular := (Spelling.isDuration_iff (s := bareMark)).mp h
    exact hregular.timed rfl
  · have hregular := (Spelling.isDuration_iff (s := weekAndDay)).mp h
    exact absurd (hregular.weeksAlone (by decide)) (by decide)
  · have hregular := (Spelling.isDuration_iff (s := secondFirst)).mp h
    have hdescends : ¬ [TimeUnit.second, .hour].Pairwise fun u v => v.seconds < u.seconds := by
      decide
    exact hdescends hregular.descends
  · have hregular := (Spelling.isDuration_iff (s := dayTwice)).mp h
    have hdescends : ¬ [TimeUnit.day, .day].Pairwise fun u v => v.seconds < u.seconds := by
      decide
    exact hdescends hregular.descends

theorem parse_forms_bareMark :
    (trim "P1DT".toList = bareMark.chars ∧ bareMark.parts ≠ [] ∧ ¬ bareMark.Regular ∧
      (∃ n, parse "P1DT" = some n) ∧ ¬ IsDuration (trim "P1DT".toList)) ∧
    trim " -P1DT1M".toList = dayAndMinute.chars ∧ dayAndMinute.Regular ∧
      IsDuration (trim " -P1DT1M".toList) := by
  have hmark : trim "P1DT".toList = bareMark.chars := rfl
  have hirregular : ¬ bareMark.Regular := fun h => h.timed rfl
  have hfits : bareMark.Fits := Spelling.fits_iff.mpr (by decide)
  have hminute : trim " -P1DT1M".toList = dayAndMinute.chars := rfl
  have hregular : dayAndMinute.Regular :=
    ⟨by decide, by simp [dayAndMinute], by unfold Descends; decide, fun h => absurd h (by decide)⟩
  obtain ⟨hread, hgrammar, hcongr⟩ := parse_forms "P1DT"
  refine ⟨⟨hmark, by decide, hirregular, hread.mpr ⟨bareMark, hmark, by decide, hfits⟩, ?_⟩,
    hminute, hregular, (parse_forms " -P1DT1M").2.1.mpr ⟨dayAndMinute, hminute, hregular⟩⟩
  intro h
  obtain ⟨s, hs, hregular⟩ := hgrammar.mp h
  exact hirregular ((hcongr s bareMark (hs.symm.trans hmark)).mp hregular)

end CalendarSearch.Duration
