import CalendarSearch.Proofs.FieldWidths

/-! # Numbers of a fixed width

A field of a time that has all its digits is a number padded with zeros. Runs of digits of one width
stand for the numbers below a power of ten, one run for each number, so what is written of a number
is the run that it was read from. -/

namespace CalendarSearch

namespace Text

/-! ### Digits as characters -/

theorem isBlank_of_isDigit {c : Char} (h : c.isDigit = true) : isBlank c = false := by
  obtain ⟨hlow, hhigh⟩ := toNat_of_isDigit h
  simp only [isBlank, UInt32.le_iff_toNat_le, UInt32.reduceToNat, Char.toNat_val,
    Bool.or_eq_false_iff, Bool.and_eq_false_imp, decide_eq_true_eq, decide_eq_false_iff_not,
    beq_eq_false_iff_ne, ne_eq, ← UInt32.toNat_inj]
  omega

theorem utf8Size_of_isDigit {c : Char} (h : c.isDigit = true) : c.utf8Size = 1 := by
  obtain ⟨-, hhigh⟩ := toNat_of_isDigit h
  change c.val.toNat ≤ 57 at hhigh
  rw [Char.utf8Size_eq_one_iff, UInt32.le_iff_toNat_le]
  exact hhigh.trans (by decide)

theorem byteLength_of_isDigit {ds : List Char} (h : ∀ c ∈ ds, c.isDigit = true) :
    byteLength ds = ds.length := by
  induction ds with
  | nil => rfl
  | cons c ds ih =>
    obtain ⟨hc, hds⟩ := List.forall_mem_cons.mp h
    rw [byteLength_cons, utf8Size_of_isDigit hc, ih hds, List.length_cons, Nat.add_comm]

theorem char_eq_of_digitValue {c d : Char} (hc : c.isDigit = true) (hd : d.isDigit = true)
    (h : digitValue c = digitValue d) : c = d := by
  have hc' := toNat_of_isDigit hc
  have hd' := toNat_of_isDigit hd
  change c.toNat - 48 = d.toNat - 48 at h
  exact Char.toNat_inj.mp (by omega)

theorem trimLeft_eq_self {cs : List Char} (h : ∀ c ∈ cs, isBlank c = false) : trimLeft cs = cs := by
  cases cs with
  | nil => rfl
  | cons c cs => exact List.dropWhile_cons_of_neg (by simp [h c List.mem_cons_self])

theorem trim_eq_self {cs : List Char} (h : ∀ c ∈ cs, isBlank c = false) : trim cs = cs := by
  have hreverse : ∀ c ∈ cs.reverse, isBlank c = false := fun c hc => h c (List.mem_reverse.mp hc)
  rw [trim, trimLeft_eq_self h, trimLeft_eq_self hreverse, List.reverse_reverse]

/-! ### The number of a run of digits -/

/-- Numerals are read from the left, a digit at a time. -/
theorem numeral_append_singleton (ds : List Char) (c : Char) :
    numeral (ds ++ [c]) = 10 * numeral ds + digitValue c := by
  simp [numeral]

/-- Zeros in front do not change a number. -/
theorem numeral_replicate_append (n : Nat) (ds : List Char) :
    numeral (List.replicate n '0' ++ ds) = numeral ds := by
  change Nat.ofDigitChars 10 (List.replicate n '0' ++ ds) 0 = Nat.ofDigitChars 10 ds 0
  rw [Nat.ofDigitChars_append, Nat.ofDigitChars_replicate_zero, Nat.mul_zero]

theorem numeral_toDigits (n : Nat) : numeral (Nat.toDigits 10 n) = n :=
  Nat.ofDigitChars_ten_toDigits

/-- Runs of one length that spell the same number are the same. -/
theorem eq_of_numeral {ds es : List Char} (hlength : ds.length = es.length)
    (hds : ∀ c ∈ ds, c.isDigit = true) (hes : ∀ c ∈ es, c.isDigit = true)
    (h : numeral ds = numeral es) : ds = es := by
  induction ds using List.reverseRecOn generalizing es with
  | nil => exact (List.length_eq_zero_iff.mp hlength.symm).symm
  | append_singleton ds c ih =>
    rcases List.eq_nil_or_concat' es with rfl | ⟨es, d, rfl⟩
    · simp at hlength
    · simp only [List.length_append, List.length_singleton, Nat.add_right_cancel_iff,
        List.forall_mem_append, List.forall_mem_singleton, numeral_append_singleton]
        at hlength hds hes h
      have hc := digitValue_le hds.2
      have hd := digitValue_le hes.2
      rw [ih hlength hds.1 hes.1 (by omega), char_eq_of_digitValue hds.2 hes.2 (by omega)]

theorem le_length_padded (width n : Nat) : width ≤ (padded width n).toList.length := by
  rw [padded, String.toList_ofList, List.length_append, List.length_replicate]
  omega

end Text

open Text

/-- A run of so many digits. -/
structure Digits (width : Nat) where
  chars : List Char
  length_eq : chars.length = width
  isDigit : ∀ c ∈ chars, c.isDigit = true

namespace Digits

variable {width : Nat}

def value (ds : Digits width) : Nat := numeral ds.chars

theorem value_lt (ds : Digits width) : ds.value < 10 ^ width := by
  have h := numeral_lt ds.isDigit
  rwa [ds.length_eq] at h

theorem byteLength_chars (ds : Digits width) : byteLength ds.chars = width := by
  rw [byteLength_of_isDigit ds.isDigit, ds.length_eq]

/-- A number padded to its width. -/
def ofNat (n : Nat) (hwidth : 0 < width) (h : n < 10 ^ width) : Digits width where
  chars := (padded width n).toList
  length_eq := by
    have hlength := (Nat.length_toDigits_le_iff (by decide) hwidth).mpr h
    rw [padded, String.toList_ofList, List.length_append, List.length_replicate]
    omega
  isDigit := by
    intro c hc
    rw [padded, String.toList_ofList, List.mem_append] at hc
    rcases hc with hc | hc
    · rw [List.eq_of_mem_replicate hc]
      rfl
    · exact Nat.isDigit_of_mem_toDigits (by decide) (by decide) hc

theorem chars_ofNat {n : Nat} (hwidth : 0 < width) (h : n < 10 ^ width) :
    (ofNat n hwidth h).chars = (padded width n).toList := by
  rw [ofNat]

theorem value_ofNat {n : Nat} (hwidth : 0 < width) (h : n < 10 ^ width) :
    (ofNat n hwidth h).value = n := by
  rw [value, chars_ofNat, padded, String.toList_ofList, numeral_replicate_append, numeral_toDigits]

/-- What is written of the number of a run is the run. -/
theorem toList_padded_value (ds : Digits width) (hwidth : 0 < width) :
    (padded width ds.value).toList = ds.chars := by
  have hlength := (ofNat ds.value hwidth ds.value_lt).length_eq.trans ds.length_eq.symm
  have hvalue : (ofNat ds.value hwidth ds.value_lt).value = ds.value := value_ofNat _ _
  rw [← chars_ofNat hwidth ds.value_lt]
  exact eq_of_numeral hlength (ofNat ds.value hwidth ds.value_lt).isDigit ds.isDigit hvalue

/-- A run is a shorter one and the rest. -/
theorem exists_append {m n : Nat} (ds : Digits (m + n)) :
    ∃ (es : Digits m) (fs : Digits n), ds.chars = es.chars ++ fs.chars := by
  have hlength := ds.length_eq
  refine ⟨⟨ds.chars.take m, ?_, fun c hc => ds.isDigit c (List.mem_of_mem_take hc)⟩,
    ⟨ds.chars.drop m, ?_, fun c hc => ds.isDigit c (List.mem_of_mem_drop hc)⟩,
    (List.take_append_drop m ds.chars).symm⟩
  · rw [List.length_take]
    omega
  · rw [List.length_drop]
    omega

end Digits

end CalendarSearch
