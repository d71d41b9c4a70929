import CalendarSearch.Proofs.Digits
import CalendarSearch.Time.Duration
import Mathlib.Algebra.GroupWithZero.Nat

/-! # Durations as they are written

A duration is spelled by a sign, a `P`, weeks and days, and hours, minutes and seconds after a `T`.
The reader takes the parts one by one and adds up their seconds. As no sum of the first parts is
larger than the whole sum, all that is asked of a text in this form is that the whole does not pass
the limit: then it is read as the exact sum, and otherwise it has no value. -/

namespace CalendarSearch

namespace Text

theorem trimLeft_append_of_isBlank {before cs : List Char} (h : ∀ c ∈ before, isBlank c = true) :
    trimLeft (before ++ cs) = trimLeft cs :=
  List.dropWhile_append_of_pos h

/-- Blanks around a text without blanks are what is trimmed. -/
theorem trim_between {before cs after : List Char} (hbefore : ∀ c ∈ before, isBlank c = true)
    (hcs : ∀ c ∈ cs, isBlank c = false) (hafter : ∀ c ∈ after, isBlank c = true) :
    trim (before ++ cs ++ after) = cs := by
  have hreverse : ∀ c ∈ cs.reverse, isBlank c = false := fun c hc => hcs c (List.mem_reverse.mp hc)
  have hleft : trimLeft (cs ++ after) = if cs = [] then [] else cs ++ after := by
    cases cs with
    | nil =>
      have h : trimLeft (after ++ []) = [] := trimLeft_append_of_isBlank hafter
      rwa [List.append_nil] at h
    | cons c cs => exact List.dropWhile_cons_of_neg (by simp [hcs c List.mem_cons_self])
  rw [trim, List.append_assoc, trimLeft_append_of_isBlank hbefore, hleft]
  by_cases hnil : cs = []
  · rw [if_pos hnil, hnil]
    rfl
  · rw [if_neg hnil, List.reverse_append,
      trimLeft_append_of_isBlank fun c hc => hafter c (List.mem_reverse.mp hc),
      trimLeft_eq_self hreverse, List.reverse_reverse]

end Text

namespace Duration

open Text

/-! ### Spelling -/

inductive TimeUnit where
  | week | day | hour | minute | second
deriving DecidableEq

namespace TimeUnit

def letter : TimeUnit → Char
  | week => 'W'
  | day => 'D'
  | hour => 'H'
  | minute => 'M'
  | second => 'S'

def seconds : TimeUnit → Nat
  | week => 7 * (24 * (60 * 60))
  | day => 24 * (60 * 60)
  | hour => 60 * 60
  | minute => 60
  | second => 1

def inTime : TimeUnit → Bool
  | week | day => false
  | hour | minute | second => true

theorem seconds_pos (u : TimeUnit) : 0 < u.seconds := by cases u <;> decide

theorem unitSeconds_letter (u : TimeUnit) : unitSeconds u.inTime u.letter = some u.seconds := by
  cases u <;> rfl

theorem isDigit_letter (u : TimeUnit) : u.letter.isDigit = false := by cases u <;> rfl

theorem isBlank_letter (u : TimeUnit) : isBlank u.letter = false := by cases u <;> rfl

theorem letter_ne_mark (u : TimeUnit) : u.letter ≠ 'T' := by cases u <;> decide

end TimeUnit

/-- A number as it is written, with one digit at least. -/
structure Numeral where
  places : Nat
  digits : Digits (places + 1)

namespace Numeral

def chars (n : Numeral) : List Char := n.digits.chars

def value (n : Numeral) : Nat := n.digits.value

/-- The number with a first digit and the ones after it. -/
def ofDigits (first : Char) (rest : List Char) (h : (first :: rest).all Char.isDigit = true) :
    Numeral :=
  ⟨rest.length, ⟨first :: rest, rfl, List.all_eq_true.mp h⟩⟩

theorem isDigit {n : Numeral} : ∀ c ∈ n.chars, c.isDigit = true := n.digits.isDigit

theorem chars_ne_nil (n : Numeral) : n.chars ≠ [] :=
  List.ne_nil_of_length_eq_add_one n.digits.length_eq

end Numeral

structure Part where
  number : Numeral
  unit : TimeUnit

namespace Part

def chars (p : Part) : List Char := p.number.chars ++ [p.unit.letter]

def seconds (p : Part) : Nat := p.number.value * p.unit.seconds

theorem value_le_seconds (p : Part) : p.number.value ≤ p.seconds :=
  Nat.le_mul_of_pos_right p.number.value p.unit.seconds_pos

theorem isBlank_of_mem {p : Part} {c : Char} (hc : c ∈ p.chars) : isBlank c = false := by
  rcases List.mem_append.mp hc with hc | hc
  · exact isBlank_of_isDigit (Numeral.isDigit c hc)
  · rw [List.mem_singleton.mp hc]
    exact p.unit.isBlank_letter

end Part

def total (ps : List Part) : Nat := (ps.map Part.seconds).sum

theorem total_append (ps qs : List Part) : total (ps ++ qs) = total ps + total qs := by
  rw [total, List.map_append, List.sum_append, total, total]

theorem total_take_le (ps : List Part) (i : Nat) : total (ps.take i) ≤ total ps := by
  have h := total_append (ps.take i) (ps.drop i)
  rw [List.take_append_drop] at h
  omega

theorem total_cons (p : Part) (ps : List Part) : total (p :: ps) = p.seconds + total ps :=
  List.sum_cons

theorem seconds_le_total {ps : List Part} {p : Part} (hp : p ∈ ps) : p.seconds ≤ total ps := by
  obtain ⟨before, after, rfl⟩ := List.append_of_mem hp
  rw [total_append, total_cons]
  omega

/-- A duration without its sign and its `P`: the parts before the `T`, and those after it, if it
stands there. -/
structure Body where
  date : List Part
  time : Option (List Part)
  dateUnits : ∀ p ∈ date, p.unit.inTime = false
  timeUnits : ∀ ps ∈ time, ∀ p ∈ ps, p.unit.inTime = true

namespace Body

def parts (b : Body) : List Part := b.date ++ b.time.getD []

def timeChars : Option (List Part) → List Char
  | none => []
  | some ps => 'T' :: ps.flatMap Part.chars

def chars (b : Body) : List Char := b.date.flatMap Part.chars ++ timeChars b.time

theorem isBlank_of_mem {b : Body} {c : Char} (hc : c ∈ b.chars) : isBlank c = false := by
  have hparts {ps : List Part} (hc : c ∈ ps.flatMap Part.chars) : isBlank c = false := by
    obtain ⟨p, -, hc⟩ := List.mem_flatMap.mp hc
    exact Part.isBlank_of_mem hc
  rcases List.mem_append.mp hc with hc | hc
  · exact hparts hc
  · cases ht : b.time with
    | none =>
      rw [ht] at hc
      cases hc
    | some ps =>
      rw [ht] at hc
      rcases List.mem_cons.mp hc with rfl | hc
      · rfl
      · exact hparts hc

end Body

inductive Sign where
  | none | plus | minus

namespace Sign

def chars : Sign → List Char
  | none => []
  | plus => ['+']
  | minus => ['-']

def apply (s : Sign) (n : Nat) : Int :=
  match s with
  | none | plus => n
  | minus => -n

end Sign

/-- A duration as it is written. -/
structure Spelling extends Body where
  sign : Sign

namespace Spelling

def chars (s : Spelling) : List Char := s.sign.chars ++ 'P' :: s.toBody.chars

/-- The sum of the parts with the sign. -/
def value (s : Spelling) : Int := s.sign.apply (total s.parts)

/-- Every number is one of 64 bits with a sign, and neither a part nor a sum of the first ones
passes the limit. -/
structure Fits (s : Spelling) : Prop where
  numbers : ∀ p ∈ s.parts, p.number.value ≤ 9223372036854775807
  parts : ∀ p ∈ s.parts, p.seconds ≤ 9223372036854775
  sums : ∀ i, total (s.parts.take i) ≤ 9223372036854775

/-- The whole sum is the largest of all. -/
theorem fits_iff {s : Spelling} : s.Fits ↔ total s.parts ≤ limit := by
  constructor
  · intro h
    have hsum := h.sums s.parts.length
    rwa [List.take_length] at hsum
  · intro h
    have hparts : ∀ p ∈ s.parts, p.seconds ≤ 9223372036854775 := fun p hp =>
      (seconds_le_total hp).trans h
    exact {
      numbers := fun p hp => (p.value_le_seconds.trans (hparts p hp)).trans (by decide)
      parts := hparts
      sums := fun i => (total_take_le s.parts i).trans h }

theorem isBlank_of_mem {s : Spelling} {c : Char} (hc : c ∈ s.chars) : isBlank c = false := by
  rcases List.mem_append.mp hc with hc | hc
  · cases hsign : s.sign <;> rw [hsign] at hc
    · cases hc
    · rw [List.mem_singleton.mp hc]
      rfl
    · rw [List.mem_singleton.mp hc]
      rfl
  · rcases List.mem_cons.mp hc with rfl | hc
    · rfl
    · exact Body.isBlank_of_mem hc

end Spelling

/-! ### Reading -/

/-- A run of digits adds up in front of the unit that is to come. -/
theorem foldlM_digits {ds : List Char} (hds : ∀ c ∈ ds, c.isDigit = true) (hne : ds ≠ [])
    (p : Progress) :
    ds.foldlM Progress.step p =
      some { p with
        pending := some (ds.foldl (fun n c => 10 * n + digitValue c) (p.pending.getD 0)) } := by
  induction ds generalizing p with
  | nil => exact absurd rfl hne
  | cons c ds ih =>
    obtain ⟨hc, hds⟩ := List.forall_mem_cons.mp hds
    rw [List.foldlM_cons, Progress.step, if_pos hc]
    by_cases hnil : ds = []
    · rw [hnil]
      rfl
    · exact ih hds hnil _

theorem foldlM_numeral (n : Numeral) {p : Progress} (hp : p.pending = none) :
    n.chars.foldlM Progress.step p = some { p with pending := some n.value } := by
  rw [foldlM_digits Numeral.isDigit n.chars_ne_nil, hp]
  rfl

/-- The unit ends its number, unless that takes the sum past the limit. -/
theorem step_letter {p : Progress} {u : TimeUnit} {n : Nat} (hn : p.pending = some n)
    (hu : u.inTime = p.inTime) :
    p.step u.letter =
      if p.total + n * u.seconds ≤ limit then
        some { p with total := p.total + n * u.seconds, seen := true, pending := none }
      else none := by
  have hmark : ¬ (u.letter = 'T' ∧ p.inTime = false ∧ p.pending = none) := fun h =>
    u.letter_ne_mark h.1
  rw [Progress.step, if_neg (by simp [u.isDigit_letter]), if_neg hmark, hn, ← hu]
  simp only [Option.bind_eq_bind, Option.bind_some, u.unitSeconds_letter]

/-- A part is counted unless the sum so far would pass the limit. -/
theorem foldlM_part {q : Progress} {p : Part} (hq : q.pending = none)
    (hp : p.unit.inTime = q.inTime) :
    p.chars.foldlM Progress.step q =
      if q.total + p.seconds ≤ limit then
        some { q with total := q.total + p.seconds, seen := true }
      else none := by
  obtain ⟨sum, inTime, seen, pending⟩ := q
  cases hq
  have hletter : Progress.step ⟨sum, inTime, seen, some p.number.value⟩ p.unit.letter =
      if sum + p.seconds ≤ limit then some ⟨sum + p.seconds, inTime, true, none⟩ else none :=
    step_letter rfl hp
  rw [Part.chars, List.foldlM_append, foldlM_numeral p.number rfl]
  simp only [Option.bind_eq_bind, Option.bind_some, List.foldlM_cons, List.foldlM_nil, hletter]
  exact Option.bind_fun_some _

/-- Parts are read one by one, as long as their sum does not pass the limit. -/
theorem foldlM_parts {ps : List Part} {q : Progress} (hq : q.pending = none)
    (hlimit : q.total ≤ limit) (hps : ∀ p ∈ ps, p.unit.inTime = q.inTime) :
    (ps.flatMap Part.chars).foldlM Progress.step q =
      if q.total + total ps ≤ limit then
        some { q with total := q.total + total ps, seen := q.seen || !ps.isEmpty }
      else none := by
  induction ps generalizing q with
  | nil =>
    have hseen : (q.seen || !([] : List Part).isEmpty) = q.seen := Bool.or_false q.seen
    rw [hseen]
    exact (if_pos hlimit).symm
  | cons p ps ih =>
    obtain ⟨hp, hps⟩ := List.forall_mem_cons.mp hps
    rw [List.flatMap_cons, List.foldlM_append, foldlM_part hq hp, total_cons, ← Nat.add_assoc]
    by_cases hfirst : q.total + p.seconds ≤ limit
    · have hseen : (q.seen || !(p :: ps).isEmpty) = true := Bool.or_true q.seen
      rw [if_pos hfirst, hseen]
      exact ih (q := { q with total := q.total + p.seconds, seen := true }) hq hfirst hps
    · rw [if_neg hfirst, if_neg (by omega)]
      rfl

/-- The reader accepts a body exactly when its total is within the limit, each sum on the way being
smaller. -/
theorem Body.foldlM_chars (b : Body) :
    b.chars.foldlM Progress.step {} =
      if total b.parts ≤ limit then
        some ⟨total b.parts, b.time.isSome, !b.parts.isEmpty, none⟩
      else none := by
  have hdate := foldlM_parts (q := {}) rfl (Nat.zero_le limit) b.dateUnits
  simp only [Nat.zero_add, Bool.false_or] at hdate
  rw [chars, parts, List.foldlM_append, hdate]
  cases htime : b.time with
  | none =>
    rw [Option.getD_none, List.append_nil]
    exact Option.bind_fun_some _
  | some ps =>
    rw [Option.getD_some, total_append]
    by_cases hfirst : total b.date ≤ limit
    · have hmark : Progress.step ⟨total b.date, false, !b.date.isEmpty, none⟩ 'T' =
          some ⟨total b.date, true, !b.date.isEmpty, none⟩ := rfl
      have hps := foldlM_parts (q := ⟨total b.date, true, !b.date.isEmpty, none⟩) rfl hfirst
        (b.timeUnits ps htime)
      have hseen : (!b.date.isEmpty || !ps.isEmpty) = !(b.date ++ ps).isEmpty := by
        cases b.date <;> rfl
      rw [if_pos hfirst, timeChars]
      simp only [Option.bind_eq_bind, Option.bind_some, List.foldlM_cons, hmark, hps, hseen]
      rfl
    · rw [if_neg hfirst, if_neg (by omega)]
      rfl

theorem Body.magnitude_chars (b : Body) :
    magnitude b.chars =
      if b.parts ≠ [] ∧ total b.parts ≤ limit then some (total b.parts) else none := by
  rw [magnitude, b.foldlM_chars]
  by_cases hlimit : total b.parts ≤ limit
  · cases hparts : b.parts <;> simp [hparts ▸ hlimit]
  · simp [hlimit]

theorem parse_of_sign {value : String} {sign : Sign} {rest : List Char}
    (h : trim value.toList = sign.chars ++ 'P' :: rest) :
    parse value = (magnitude rest).map sign.apply := by
  rw [parse, ofChars, h]
  cases sign with
  | none => rfl
  | plus => rfl
  | minus =>
    change (magnitude rest >>= fun n => some (n : Int)).map (fun n => -n) = _
    cases magnitude rest <;> rfl

theorem Spelling.parse_of_trim {value : String} {s : Spelling}
    (h : trim value.toList = s.chars) :
    parse value = if s.parts ≠ [] ∧ total s.parts ≤ limit then some s.value else none := by
  rw [parse_of_sign h, s.magnitude_chars]
  split <;> rfl

/-- A duration that is written with blanks around it is the sum of its parts if it has one and they
fit, and else nothing. -/
theorem parse_spelled (s : Spelling) {before after : List Char}
    (hbefore : ∀ c ∈ before, isBlank c = true) (hafter : ∀ c ∈ after, isBlank c = true)
    (hparts : s.parts ≠ []) :
    (s.Fits → parse (String.ofList (before ++ s.chars ++ after)) = some s.value) ∧
      (¬ s.Fits → parse (String.ofList (before ++ s.chars ++ after)) = none) := by
  have htrim : trim (String.ofList (before ++ s.chars ++ after)).toList = s.chars := by
    rw [String.toList_ofList, trim_between hbefore (fun _ => Spelling.isBlank_of_mem) hafter]
  rw [Spelling.parse_of_trim htrim]
  constructor
  · intro hfits
    exact if_pos ⟨hparts, Spelling.fits_iff.mp hfits⟩
  · intro hfits
    exact if_neg fun h => hfits (Spelling.fits_iff.mpr h.2)

def one : Numeral := .ofDigits '1' [] rfl

/-- Two weeks and a day, thirty minutes and five seconds earlier, with zeros that lead. -/
def fortnightBefore : Spelling where
  sign := .minus
  date := [⟨.ofDigits '0' ['2'] rfl, .week⟩, ⟨one, .day⟩]
  time := some [⟨.ofDigits '0' ['3', '0'] rfl, .minute⟩, ⟨.ofDigits '5' [] rfl, .second⟩]
  dateUnits := by decide
  timeUnits := by decide

/-- Weeks and seconds that fit, but not together. -/
def ages : Spelling where
  sign := .none
  date := [⟨.ofDigits '1' "5000000000".toList rfl, .week⟩]
  time := some [⟨.ofDigits '9' "000000000000000".toList rfl, .second⟩]
  dateUnits := by decide
  timeUnits := by decide

theorem parse_spelled_fortnightBefore :
    (fortnightBefore.parts ≠ [] ∧ fortnightBefore.Fits ∧
      parse " -P02W1DT030M5S\n" = some (-1297805)) ∧
    ages.parts ≠ [] ∧ ¬ ages.Fits ∧ parse "P15000000000WT9000000000000000S" = none := by
  have hspace : ∀ c ∈ [' '], isBlank c = true := List.forall_mem_singleton.mpr rfl
  have hline : ∀ c ∈ ['\n'], isBlank c = true := List.forall_mem_singleton.mpr rfl
  have hnone : ∀ c ∈ [], isBlank c = true := List.forall_mem_nil _
  have hfits : fortnightBefore.Fits := Spelling.fits_iff.mpr (by decide)
  have hages : ¬ ages.Fits := fun h => absurd (Spelling.fits_iff.mp h) (by decide)
  have hread := (parse_spelled fortnightBefore hspace hline (by decide)).1 hfits
  have hrefused := (parse_spelled ages hnone hnone (by decide)).2 hages
  exact ⟨⟨by decide, hfits, hread⟩, by decide, hages, hrefused⟩

end Duration

end CalendarSearch
