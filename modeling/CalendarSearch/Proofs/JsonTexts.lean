import CalendarSearch.Json.Writer
import CalendarSearch.Proofs.Decoding
import CalendarSearch.Proofs.Digits

/-! # JSON texts are read back

What is written of a JSON value is read as that value, on one line or laid out over several. A
layout puts nothing but blanks between the parts of a value, which the reader skips, and a number
ends where the next character cannot belong to it. The reader needs no more steps than there are
characters: each value, each item and each member takes one of its own. -/

namespace CalendarSearch

namespace Json

/-! ### Strings -/

theorem hexUnit?_hexDigit : ∀ n < 32,
    hexUnit? '0' '0' (hexDigit (n / 16)) (hexDigit (n % 16)) = some n := by
  decide

theorem units_simpleEscape {c d : Char} {rest : List Char} (hu : c ≠ 'u')
    (h : simpleEscape? c = some d) :
    units ('\\' :: c :: rest) = (units rest).map fun p => (d.toNat :: p.1, p.2) := by
  rw [units]
  · rw [h]
    cases units rest <;> rfl
  · exact fun _ _ _ _ _ hc => absurd hc hu

theorem units_plain {c : Char} {rest : List Char} (hquote : c ≠ '"') (hbackslash : c ≠ '\\')
    (hcontrol : ¬c.toNat < 0x20) :
    units (c :: rest) = (units rest).map fun p => (c.toNat :: p.1, p.2) := by
  have hplain : ¬(c = '\\' || decide (c.toNat < 0x20)) = true := by simp [hbackslash, hcontrol]
  rw [units, if_neg hplain]
  · cases units rest <;> rfl
  · exact fun h => hquote h
  · exact fun _ _ _ _ _ h => absurd h hbackslash
  · exact fun _ _ h => absurd h hbackslash

/-- However a character is written in a string, its number is read. -/
theorem units_escape (c : Char) (rest : List Char) :
    units (escape c ++ rest) = (units rest).map fun p => (c.toNat :: p.1, p.2) := by
  unfold escape
  split
  case h_8 =>
    rename_i hquote hbackslash _ _ _ _ _
    split
    · rename_i hcontrol
      simp only [List.cons_append, List.nil_append, units, hexUnit?_hexDigit _ hcontrol]
      cases units rest <;> rfl
    · rename_i hcontrol
      exact units_plain hquote hbackslash hcontrol
  all_goals exact units_simpleEscape (by decide) rfl

theorem units_flatMap_escape (cs rest : List Char) :
    units (cs.flatMap escape ++ '"' :: rest) = some (cs.map Char.toNat, rest) := by
  induction cs with
  | nil => rfl
  | cons c cs ih =>
    rw [List.flatMap_cons, List.append_assoc, units_escape, ih]
    rfl

/-- No character is half of a surrogate pair. -/
theorem not_surrogate (c : Char) :
    isHighSurrogate c.toNat = false ∧ isLowSurrogate c.toNat = false := by
  have hvalid : c.toNat < 0xD800 ∨ 0xDFFF < c.toNat ∧ c.toNat < 0x110000 := c.valid
  simp only [isHighSurrogate, isLowSurrogate, Bool.and_eq_false_iff, decide_eq_false_iff_not]
  omega

theorem decodeUnits_toNat (cs : List Char) : decodeUnits (cs.map Char.toNat) = some cs := by
  induction cs with
  | nil => rfl
  | cons c cs ih =>
    obtain ⟨hhigh, hlow⟩ := not_surrogate c
    cases cs with
    | nil => simp [decodeUnits, hhigh, hlow, Char.ofNat_toNat]
    | cons d cs =>
      rw [List.map_cons, List.map_cons, decodeUnits, hhigh, hlow, ← List.map_cons, ih]
      simp [Char.ofNat_toNat]

/-- A string that was written is read back, whatever stands in it. -/
theorem readString_flatMap_escape (s : String) (rest : List Char) :
    readString (s.toList.flatMap escape ++ '"' :: rest) = some (some s, rest) := by
  simp only [readString, units_flatMap_escape, decodeUnits_toNat, Option.map_some,
    String.ofList_toList]

/-! ### Numbers -/

/-- What can come after a value: nothing, a blank, a comma or a closing bracket. -/
def Ends (rest : List Char) : Prop :=
  ∀ c ∈ rest.head?, isBlank c = true ∨ c = ',' ∨ c = ']' ∨ c = '}'

theorem ends_cons {c : Char} (hc : c = ',' ∨ c = ']' ∨ c = '}') (rest : List Char) :
    Ends (c :: rest) := by
  rintro _ ⟨⟩
  exact .inr hc

theorem ends_of_blank {bs : List Char} (hbs : ∀ c ∈ bs, isBlank c = true) : Ends bs :=
  fun c hc => .inl (hbs c (List.mem_of_mem_head? hc))

theorem Ends.append {bs rest : List Char} (hbs : ∀ c ∈ bs, isBlank c = true) (h : Ends rest) :
    Ends (bs ++ rest) := by
  cases bs with
  | nil => exact h
  | cons b bs =>
    rintro _ ⟨⟩
    exact .inl (hbs b List.mem_cons_self)

/-- What comes after a number does not go on with it. -/
theorem Ends.not_numeric {rest : List Char} (h : Ends rest) :
    ∀ c ∈ rest.head?, c.isDigit = false ∧ c ≠ '.' ∧ c ≠ 'e' ∧ c ≠ 'E' := by
  intro c hc
  rcases h c hc with hblank | rfl | rfl | rfl
  · simp only [isBlank, Bool.or_eq_true, decide_eq_true_eq] at hblank
    rcases hblank with ((rfl | rfl) | rfl) | rfl <;> decide
  all_goals decide

theorem isBlank_of_isDigit {c : Char} (hc : c.isDigit = true) : isBlank c = false := by
  rw [Bool.eq_false_iff]
  intro hblank
  simp only [isBlank, Bool.or_eq_true, decide_eq_true_eq] at hblank
  rcases hblank with ((rfl | rfl) | rfl) | rfl <;> cases hc

theorem isDigit_toDigits {n : Nat} : ∀ c ∈ Nat.toDigits 10 n, c.isDigit = true :=
  fun _ hc => Nat.isDigit_of_mem_toDigits (by decide) (by decide) hc

theorem exists_toDigits (n : Nat) : ∃ c cs, Nat.toDigits 10 n = c :: cs ∧ c.isDigit = true := by
  obtain ⟨c, cs, hcs⟩ := List.exists_cons_of_ne_nil (Nat.toDigits_ne_nil (n := n) (b := 10))
  exact ⟨c, cs, hcs, isDigit_toDigits c (hcs ▸ List.mem_cons_self)⟩

/-- A number is written without zeros in front. -/
theorem head_toDigits_ne_zero {n : Nat} (h : 0 < n) : ∀ c ∈ (Nat.toDigits 10 n).head?, c ≠ '0' := by
  induction n using Nat.strongRecOn with
  | ind n ih =>
    rw [Nat.toDigits_eq_if (by decide)]
    split
    · rename_i hlt
      have hdigit : ∀ m < 10, 0 < m → m.digitChar ≠ '0' := by decide
      simpa using hdigit n hlt h
    · have hdiv := ih (n / 10) (by omega) (by omega)
      rwa [List.head?_append_of_ne_nil _ Nat.toDigits_ne_nil]

theorem digits_append {ds rest : List Char} (hne : ds ≠ []) (hds : ∀ c ∈ ds, c.isDigit = true)
    (h : Ends rest) : digits (ds ++ rest) = some (ds, rest) := by
  have hrest : rest.takeWhile Char.isDigit = [] ∧ rest.dropWhile Char.isDigit = rest := by
    cases rest with
    | nil => exact ⟨rfl, rfl⟩
    | cons c rest =>
      have hc : ¬c.isDigit = true := by simp [(h.not_numeric c rfl).1]
      exact ⟨List.takeWhile_cons_of_neg hc, List.dropWhile_cons_of_neg hc⟩
  have htake : (ds ++ rest).takeWhile Char.isDigit = ds := by
    rw [List.takeWhile_append_of_pos hds, hrest.1, List.append_nil]
  have hdrop : (ds ++ rest).dropWhile Char.isDigit = rest := by
    rw [List.dropWhile_append_of_pos hds, hrest.2]
  simp only [digits, htake, hdrop, List.isEmpty_eq_false_iff.mpr hne, Bool.false_eq_true, if_false]

theorem wholePart_toDigits (n : Nat) {rest : List Char} (h : Ends rest) :
    wholePart (Nat.toDigits 10 n ++ rest) = some (Nat.toDigits 10 n, rest) := by
  by_cases hzero : n = 0
  · subst hzero
    have hrest : rest.head?.any Char.isDigit = false := by
      cases rest with
      | nil => rfl
      | cons c rest => exact (h.not_numeric c rfl).1
    simp only [Nat.toDigits_zero, List.cons_append, List.nil_append, wholePart, hrest,
      Bool.false_eq_true, if_false]
  · have hhead := head_toDigits_ne_zero (Nat.pos_of_ne_zero hzero)
    rw [wholePart]
    · exact digits_append Nat.toDigits_ne_nil isDigit_toDigits h
    · intro ds hds
      have hlead := congrArg List.head? hds
      rw [List.head?_append_of_ne_nil _ Nat.toDigits_ne_nil] at hlead
      exact hhead '0' hlead rfl

theorem unsigned_toDigits (negative : Bool) (n : Nat) (hzero : negative = true → n ≠ 0)
    {rest : List Char} (h : Ends rest) : unsigned negative (Nat.toDigits 10 n ++ rest) =
      some (int (if negative then -(n : Int) else n), rest) := by
  have hfraction : fraction rest = some (false, rest) := by
    cases rest with
    | nil => rfl
    | cons c rest =>
      rw [fraction]
      rintro _ ⟨⟩
      exact (h.not_numeric _ rfl).2.1 rfl
  have hexponent : exponent rest = some (false, rest) := by
    cases rest with
    | nil => rfl
    | cons c rest =>
      obtain ⟨-, -, he, hE⟩ := h.not_numeric c rfl
      simp [exponent, he, hE]
  simpa [unsigned, wholePart_toDigits n h, hfraction, hexponent, Text.numeral_toDigits] using hzero

/-! ### Layouts -/

/-- The layout puts nothing but blanks between the parts of a value. -/
structure Layout.Loose (l : Layout) : Prop where
  newline : ∀ level, ∀ c ∈ (l.newline level).toList, isBlank c = true
  colon : ∃ bs, (∀ c ∈ bs, isBlank c = true) ∧ l.colon.toList = ':' :: bs

/-- Neither layout of the writer puts anything but blanks between the parts of a value. -/
theorem loose_compact : compact.Loose where
  newline _ := by simp [compact]
  colon := ⟨[], by simp, rfl⟩

theorem toList_pushn (s : String) (c : Char) (n : Nat) :
    (s.pushn c n).toList = s.toList ++ List.replicate n c := by
  rw [String.pushn_eq_repeat_push]
  induction n with
  | zero => exact (List.append_nil _).symm
  | succ n ih => rw [Nat.repeat, String.toList_push, ih, List.append_assoc, List.replicate_succ']

theorem loose_pretty : pretty.Loose where
  newline level := by
    intro c hc
    rw [pretty, String.toList_append, toList_pushn, List.mem_append, List.mem_append] at hc
    rcases hc with hc | hc | hc
    · rw [List.mem_singleton.mp hc]
      rfl
    · cases hc
    · rw [List.eq_of_mem_replicate hc]
      rfl
  colon := ⟨[' '], by simp [isBlank], rfl⟩

theorem skipBlanks_append {bs : List Char} (hbs : ∀ c ∈ bs, isBlank c = true) (cs : List Char) :
    skipBlanks (bs ++ cs) = skipBlanks cs := List.dropWhile_append_of_pos hbs

theorem skipBlanks_cons {c : Char} (hc : isBlank c = false) (cs : List Char) :
    skipBlanks (c :: cs) = c :: cs := List.dropWhile_cons_of_neg (by simp [hc])

section

variable {bs : List Char} (hbs : ∀ c ∈ bs, isBlank c = true) (fuel : Nat) (cs : List Char)

include hbs

theorem readValue_append : readValue fuel (bs ++ cs) = readValue fuel cs := by
  cases fuel with
  | zero => rfl
  | succ fuel => simp only [readValue, skipBlanks_append hbs]

theorem readItems_append : readItems fuel (bs ++ cs) = readItems fuel cs := by
  cases fuel with
  | zero => rfl
  | succ fuel => simp only [readItems, readValue_append hbs]

theorem readMembers_append : readMembers fuel (bs ++ cs) = readMembers fuel cs := by
  cases fuel with
  | zero => rfl
  | succ fuel => simp only [readMembers, skipBlanks_append hbs]

end

/-! ### The first character of a value -/

section

variable {fuel : Nat} {bs : List Char} (hbs : ∀ c ∈ bs, isBlank c = true)

theorem readValue_quote (cs : List Char) : readValue (fuel + 1) ('"' :: cs) =
    (readString cs).map fun p => (string p.1, p.2) := by
  rw [readValue, skipBlanks_cons rfl]
  rfl

theorem readValue_minus (cs : List Char) : readValue (fuel + 1) ('-' :: cs) = unsigned true cs := by
  rw [readValue, skipBlanks_cons rfl]
  rfl

theorem readValue_digit {c : Char} (hc : c.isDigit = true) (cs : List Char) :
    readValue (fuel + 1) (c :: cs) = unsigned false (c :: cs) := by
  rw [readValue, skipBlanks_cons (isBlank_of_isDigit hc)]
  split
  case h_8 => rfl
  all_goals
    rename_i heq
    cases heq
    cases hc

include hbs

theorem readValue_bracket {c : Char} (hblank : isBlank c = false) (hc : c ≠ ']')
    (cs : List Char) : readValue (fuel + 1) ('[' :: (bs ++ c :: cs)) =
      (readItems fuel (bs ++ c :: cs)).map fun p => (array p.1, p.2) := by
  have hbracket : isBlank '[' = false := rfl
  simp only [readItems_append hbs, readValue, skipBlanks_cons hbracket, skipBlanks_append hbs,
    skipBlanks_cons hblank]
  split
  · rename_i heq
    cases heq
    exact absurd rfl hc
  · rfl

theorem readValue_brace (cs : List Char) : readValue (fuel + 1) ('{' :: (bs ++ '"' :: cs)) =
    (readMembers fuel (bs ++ '"' :: cs)).map fun p => (object p.1, p.2) := by
  have hbrace : isBlank '{' = false := rfl
  have hquote : isBlank '"' = false := rfl
  simp only [readMembers_append hbs, readValue, skipBlanks_cons hbrace, skipBlanks_append hbs,
    skipBlanks_cons hquote]
  rfl

end

/-! ### Values -/

/-- A value that has a text: its numbers are whole, and its strings and names stand for texts. -/
inductive Textual : Json → Prop
  | null : Textual null
  | bool (b : Bool) : Textual (bool b)
  | int (n : Int) : Textual (int n)
  | text (s : String) : Textual (text s)
  | array {items : List Json} : (∀ item ∈ items, Textual item) → Textual (array items)
  | object {members : List (Option String × Json)} : (∀ m ∈ members, m.1.isSome = true) →
      (∀ m ∈ members, Textual m.2) → Textual (object members)

theorem toList_write_int (layout : Layout) (level : Nat) (n : Int) :
    (write layout level (int n)).toList =
      (if n < 0 then ['-'] else []) ++ Nat.toDigits 10 n.natAbs := by
  cases n with
  | ofNat n => simp [write, toString, Int.repr, Nat.toList_repr]
  | negSucc n => simp [write, toString, Int.repr, Nat.toList_repr]

/-- A value starts with a character that is no blank and closes no array. -/
theorem Textual.exists_write {j : Json} (h : j.Textual) (layout : Layout) (level : Nat) :
    ∃ c cs, (write layout level j).toList = c :: cs ∧ isBlank c = false ∧ c ≠ ']' := by
  cases h with
  | null => exact ⟨'n', _, by rw [write]; rfl, by decide⟩
  | bool b =>
    cases b with
    | true => exact ⟨'t', _, by rw [write]; rfl, by decide⟩
    | false => exact ⟨'f', _, by rw [write]; rfl, by decide⟩
  | int n =>
    obtain ⟨c, cs, hcs, hc⟩ := exists_toDigits n.natAbs
    rw [toList_write_int]
    split
    · exact ⟨'-', _, rfl, by decide⟩
    · exact ⟨c, cs, hcs, isBlank_of_isDigit hc, by rintro rfl; cases hc⟩
  | text s => exact ⟨'"', _, by rw [Json.text, write, quote]; exact String.toList_ofList, by decide⟩
  | @array items _ =>
    cases items with
    | nil => exact ⟨'[', _, by rw [write]; rfl, by decide⟩
    | cons item items =>
      exact ⟨'[', _, by simp only [write, String.toList_append]; rfl, by decide⟩
  | @object members _ =>
    cases members with
    | nil => exact ⟨'{', _, by rw [write]; rfl, by decide⟩
    | cons m members =>
      exact ⟨'{', _, by simp only [write, String.toList_append]; rfl, by decide⟩

/-- What is written of the value is read as the value, whatever comes after it, in no more steps
than it has characters. -/
def ReadsBack (layout : Layout) (j : Json) : Prop :=
  ∀ (level fuel : Nat) (rest : List Char), (write layout level j).toList.length ≤ fuel + 1 →
    Ends rest → readValue (fuel + 1) ((write layout level j).toList ++ rest) = some (j, rest)

section

variable {layout : Layout} {level fuel : Nat} {rest : List Char}

theorem readsBack_null : ReadsBack layout null := by
  intro level fuel rest _ _
  rw [write]
  change readValue (fuel + 1) ('n' :: ("ull".toList ++ rest)) = some (null, rest)
  rw [readValue, skipBlanks_cons rfl]
  rfl

theorem readsBack_bool (b : Bool) : ReadsBack layout (bool b) := by
  intro level fuel rest _ _
  cases b with
  | true =>
    rw [write, if_pos rfl]
    change readValue (fuel + 1) ('t' :: ("rue".toList ++ rest)) = some (bool true, rest)
    rw [readValue, skipBlanks_cons rfl]
    rfl
  | false =>
    rw [write, if_neg Bool.false_ne_true]
    change readValue (fuel + 1) ('f' :: ("alse".toList ++ rest)) = some (bool false, rest)
    rw [readValue, skipBlanks_cons rfl]
    rfl

theorem readsBack_int (n : Int) : ReadsBack layout (int n) := by
  intro level fuel rest _ hrest
  rw [toList_write_int]
  by_cases hneg : n < 0
  · have hread := unsigned_toDigits true n.natAbs (by omega) hrest
    rw [if_pos hneg, List.append_assoc, List.singleton_append, readValue_minus, hread, if_pos rfl,
      Int.ofNat_natAbs_of_nonpos (Int.le_of_lt hneg), Int.neg_neg]
  · have hread := unsigned_toDigits false n.natAbs (by simp) hrest
    obtain ⟨c, cs, hcs, hc⟩ := exists_toDigits n.natAbs
    rw [if_neg hneg, List.nil_append]
    rw [hcs, List.cons_append] at hread ⊢
    rw [readValue_digit hc, hread, if_neg Bool.false_ne_true,
      Int.natAbs_of_nonneg (Int.not_lt.mp hneg)]

theorem readsBack_text (s : String) : ReadsBack layout (text s) := by
  intro level fuel rest _ _
  simp only [text, write, Option.getD_some, quote, String.toList_ofList, List.cons_append,
    List.append_assoc, List.nil_append, readValue_quote, readString_flatMap_escape,
    Option.map_some]

/-! ### Arrays -/

/-- The items of an array are a first one and, after a comma, the others. -/
theorem toList_writeItems (layout : Layout) (level : Nat) (item : Json) (items : List Json) :
    (writeItems layout level (item :: items)).toList = (layout.newline level).toList ++
      ((write layout level item).toList ++
        if items = [] then [] else ',' :: (writeItems layout level items).toList) := by
  cases items with
  | nil => simp [writeItems]
  | cons next items => simp [writeItems]

theorem readItems_cons {cs more : List Char} {item : Json} {items : List Json}
    (hitem : readValue fuel cs = some (item, ',' :: more))
    (hitems : readItems fuel more = some (items, rest)) :
    readItems (fuel + 1) cs = some (item :: items, rest) := by
  have hcomma : isBlank ',' = false := rfl
  rw [readItems, hitem]
  simp only [Option.bind_eq_bind, Option.bind_some, skipBlanks_cons hcomma, hitems]
  rfl

theorem readItems_last {cs bs : List Char} {item : Json} (hbs : ∀ c ∈ bs, isBlank c = true)
    (hitem : readValue fuel cs = some (item, bs ++ ']' :: rest)) :
    readItems (fuel + 1) cs = some ([item], rest) := by
  have hbracket : isBlank ']' = false := rfl
  rw [readItems, hitem]
  simp only [Option.bind_eq_bind, Option.bind_some, skipBlanks_append hbs,
    skipBlanks_cons hbracket]
  rfl

theorem readItems_write (hlayout : layout.Loose) {bs : List Char}
    (hbs : ∀ c ∈ bs, isBlank c = true) {items : List Json} (hne : items ≠ [])
    (htextual : ∀ item ∈ items, item.Textual) (h : ∀ item ∈ items, ReadsBack layout item)
    (hfuel : (writeItems layout level items).toList.length < fuel) :
    readItems fuel ((writeItems layout level items).toList ++ (bs ++ ']' :: rest)) =
      some (items, rest) := by
  induction items generalizing fuel with
  | nil => exact absurd rfl hne
  | cons item items ih =>
    obtain ⟨hitem, hitems⟩ := List.forall_mem_cons.mp h
    obtain ⟨hfirst, hothers⟩ := List.forall_mem_cons.mp htextual
    obtain ⟨c, cs, hcs, -⟩ := hfirst.exists_write layout level
    have hlength : 0 < (write layout level item).toList.length := by simp [hcs]
    rw [toList_writeItems] at hfuel ⊢
    simp only [List.length_append] at hfuel
    -- one step is taken here, and the item has a character at least
    obtain ⟨fuel, rfl⟩ : ∃ f, fuel = f + 2 := ⟨fuel - 2, by omega⟩
    rw [List.append_assoc, readItems_append (hlayout.newline level), List.append_assoc]
    cases items with
    | nil =>
      rw [if_pos rfl, List.nil_append]
      exact readItems_last hbs (hitem _ _ _ (by omega) (.append hbs (ends_cons (by decide) rest)))
    | cons next items =>
      rw [if_neg (List.cons_ne_nil _ _)] at hfuel ⊢
      rw [List.length_cons] at hfuel
      exact readItems_cons (hitem _ _ _ (by omega) (ends_cons (by decide) _))
        (ih (List.cons_ne_nil _ _) hothers hitems (by omega))

/-- An array is read back when its items are. -/
theorem readsBack_array (hlayout : layout.Loose) {items : List Json}
    (htextual : ∀ item ∈ items, item.Textual) (h : ∀ item ∈ items, ReadsBack layout item) :
    ReadsBack layout (array items) := by
  intro level fuel rest hfuel _
  cases items with
  | nil =>
    rw [write]
    rfl
  | cons item items =>
    have htext : (write layout level (array (item :: items))).toList =
        '[' :: ((writeItems layout (level + 1) (item :: items)).toList ++
          ((layout.newline level).toList ++ [']'])) := by simp [write]
    simp only [htext, List.length_cons, List.length_append, List.length_nil] at hfuel
    have hread : readItems fuel ((writeItems layout (level + 1) (item :: items)).toList ++
        ((layout.newline level).toList ++ ']' :: rest)) = some (item :: items, rest) :=
      readItems_write hlayout (hlayout.newline level) (List.cons_ne_nil _ _) htextual h (by omega)
    obtain ⟨c, cs, hcs, hblank, hc⟩ :=
      (htextual item List.mem_cons_self).exists_write layout (level + 1)
    simp only [htext, List.cons_append, List.append_assoc, List.nil_append]
    rw [toList_writeItems, hcs] at hread ⊢
    simp only [List.append_assoc, List.cons_append] at hread ⊢
    rw [readValue_bracket (hlayout.newline (level + 1)) hblank hc, hread]
    rfl

/-! ### Objects -/

/-- The members of an object are a first one and, after a comma, the others. -/
theorem toList_writeMembers (layout : Layout) (level : Nat) (m : Option String × Json)
    (members : List (Option String × Json)) :
    (writeMembers layout level (m :: members)).toList = (layout.newline level).toList ++
      ('"' :: ((m.1.getD "").toList.flatMap escape ++ '"' :: (layout.colon.toList ++
        ((write layout level m.2).toList ++ if members = [] then []
          else ',' :: (writeMembers layout level members).toList)))) := by
  cases members with
  | nil => simp [writeMembers, quote]
  | cons next members => simp [writeMembers, quote]

theorem readMembers_cons {cs more : List Char} {name : String} {value : Json}
    {members : List (Option String × Json)}
    (hvalue : readValue fuel cs = some (value, ',' :: more))
    (hmembers : readMembers fuel more = some (members, rest)) :
    readMembers (fuel + 1) ('"' :: (name.toList.flatMap escape ++ '"' :: ':' :: cs)) =
      some ((some name, value) :: members, rest) := by
  have hquote : isBlank '"' = false := rfl
  have hcolon : isBlank ':' = false := rfl
  have hcomma : isBlank ',' = false := rfl
  simp only [readMembers, skipBlanks_cons hquote, readString_flatMap_escape, Option.bind_eq_bind,
    Option.bind_some, skipBlanks_cons hcolon, hvalue, skipBlanks_cons hcomma, hmembers]
  rfl

theorem readMembers_last {cs bs : List Char} {name : String} {value : Json}
    (hbs : ∀ c ∈ bs, isBlank c = true)
    (hvalue : readValue fuel cs = some (value, bs ++ '}' :: rest)) :
    readMembers (fuel + 1) ('"' :: (name.toList.flatMap escape ++ '"' :: ':' :: cs)) =
      some ([(some name, value)], rest) := by
  have hquote : isBlank '"' = false := rfl
  have hcolon : isBlank ':' = false := rfl
  have hbrace : isBlank '}' = false := rfl
  simp only [readMembers, skipBlanks_cons hquote, readString_flatMap_escape, Option.bind_eq_bind,
    Option.bind_some, skipBlanks_cons hcolon, hvalue, skipBlanks_append hbs,
    skipBlanks_cons hbrace]
  rfl

theorem readMembers_write (hlayout : layout.Loose) {bs : List Char}
    (hbs : ∀ c ∈ bs, isBlank c = true) {members : List (Option String × Json)} (hne : members ≠ [])
    (hnames : ∀ m ∈ members, m.1.isSome = true) (h : ∀ m ∈ members, ReadsBack layout m.2)
    (hfuel : (writeMembers layout level members).toList.length < fuel) :
    readMembers fuel ((writeMembers layout level members).toList ++ (bs ++ '}' :: rest)) =
      some (members, rest) := by
  obtain ⟨blanks, hblanks, hcolon⟩ := hlayout.colon
  induction members generalizing fuel with
  | nil => exact absurd rfl hne
  | cons m members ih =>
    obtain ⟨name, value⟩ := m
    obtain ⟨hvalue, hvalues⟩ : ReadsBack layout value ∧ ∀ m ∈ members, ReadsBack layout m.2 :=
      List.forall_mem_cons.mp h
    obtain ⟨hname, hothers⟩ := List.forall_mem_cons.mp hnames
    obtain ⟨name, rfl⟩ := Option.isSome_iff_exists.mp hname
    rw [toList_writeMembers, hcolon] at hfuel ⊢
    simp only [List.length_append, List.length_cons] at hfuel
    -- one step is taken here, and the value is left more than one
    obtain ⟨fuel, rfl⟩ : ∃ f, fuel = f + 2 := ⟨fuel - 2, by omega⟩
    simp only [Option.getD_some, List.append_assoc, List.cons_append]
    rw [readMembers_append (hlayout.newline level)]
    cases members with
    | nil =>
      rw [if_pos rfl, List.nil_append]
      refine readMembers_last hbs ?_
      rw [readValue_append hblanks]
      exact hvalue _ _ _ (by omega) (.append hbs (ends_cons (by decide) rest))
    | cons next members =>
      rw [if_neg (List.cons_ne_nil _ _)] at hfuel ⊢
      rw [List.length_cons] at hfuel
      refine readMembers_cons ?_ (ih (List.cons_ne_nil _ _) hothers hvalues (by omega))
      rw [readValue_append hblanks]
      exact hvalue _ _ _ (by omega) (ends_cons (by decide) _)

theorem readsBack_object (hlayout : layout.Loose) {members : List (Option String × Json)}
    (hnames : ∀ m ∈ members, m.1.isSome = true) (h : ∀ m ∈ members, ReadsBack layout m.2) :
    ReadsBack layout (object members) := by
  intro level fuel rest hfuel _
  cases members with
  | nil =>
    rw [write]
    rfl
  | cons m members =>
    have htext : (write layout level (object (m :: members))).toList =
        '{' :: ((writeMembers layout (level + 1) (m :: members)).toList ++
          ((layout.newline level).toList ++ ['}'])) := by simp [write]
    simp only [htext, List.length_cons, List.length_append, List.length_nil] at hfuel
    have hread : readMembers fuel ((writeMembers layout (level + 1) (m :: members)).toList ++
        ((layout.newline level).toList ++ '}' :: rest)) = some (m :: members, rest) :=
      readMembers_write hlayout (hlayout.newline level) (List.cons_ne_nil _ _) hnames h (by omega)
    simp only [htext, List.cons_append, List.append_assoc, List.nil_append]
    rw [toList_writeMembers] at hread ⊢
    simp only [List.append_assoc, List.cons_append] at hread ⊢
    rw [readValue_brace (hlayout.newline (level + 1)), hread]
    rfl

/-! ### Whole texts -/

/-- What holds only texts, whole numbers and the like is read back at any level, by structural
induction. -/
theorem Textual.readsBack (hlayout : layout.Loose) {j : Json} (h : j.Textual) :
    ReadsBack layout j := by
  induction h with
  | null => exact readsBack_null
  | bool b => exact readsBack_bool b
  | int n => exact readsBack_int n
  | text s => exact readsBack_text s
  | array htextual ih => exact readsBack_array hlayout htextual ih
  | object hnames _ ih => exact readsBack_object hlayout hnames ih

/-- What is written of a value is read as that value, also with blanks after it. -/
theorem Textual.read_write (hlayout : layout.Loose) {j : Json} (h : j.Textual) {s : String}
    (hs : ∀ c ∈ s.toList, isBlank c = true) : read (write layout 0 j ++ s) = some j := by
  have hend : skipBlanks s.toList = [] := List.dropWhile_eq_nil_iff.mpr hs
  have hfuel :
      (write layout 0 j).toList.length ≤ 2 * (write layout 0 j ++ s).toList.length + 1 := by
    rw [String.toList_append, List.length_append]
    omega
  have hread := h.readsBack hlayout 0 _ _ hfuel (ends_of_blank hs)
  rw [← String.toList_append] at hread
  simp only [read, hread, Option.bind_eq_bind, Option.bind_some, hend]
  rfl

/-- A decoder that recovers a value from its JSON recovers it from what is written of that. -/
theorem Decoder.Recovers.decodeText_write {α : Type} {d : Decoder α} {j : Json} {a : α}
    (hd : d.Recovers j a) (hlayout : layout.Loose) (h : j.Textual) (hdepth : j.depth ≤ nestingLimit)
    {s : String} (hs : ∀ c ∈ s.toList, isBlank c = true) :
    decodeText d (write layout 0 j ++ s) = some a := by
  rw [decodeText, h.read_write hlayout hs, Option.bind_some, hd nestingLimit hdepth]

end

theorem isBlank_newline : ∀ c ∈ "\n".toList, isBlank c = true := by simp [isBlank]

theorem textual_record {members : List (String × Json)} (h : ∀ m ∈ members, m.2.Textual) :
    (record members).Textual :=
  .object (List.forall_mem_map.mpr fun _ _ => rfl) (List.forall_mem_map.mpr h)

end Json

/-! ### Elements and resources -/

open Json

theorem Attributes.textual_toJson (a : Attributes) : a.toJson.Textual :=
  textual_record (List.forall_mem_map.mpr fun e _ => .text e.2)

/-- An element is written from texts alone, at any depth. -/
theorem Element.textual_toJson (e : Element) : e.toJson.Textual := by
  induction e using Element.induction with
  | element e ih =>
    have hchildren : ∀ j ∈ e.children.map toJson, j.Textual := List.forall_mem_map.mpr ih
    rw [toJson_eq]
    refine textual_record (List.forall_mem_append.mpr ⟨?_, ?_⟩)
    · simp only [List.forall_mem_cons]
      exact ⟨.text _, e.attributes.textual_toJson, .array hchildren, by simp⟩
    · cases e.text with
      | none => simp [optionalMember]
      | some s => simpa [optionalMember] using .text s

theorem Property.textual_toJson (p : Property) : p.toJson.Textual := by
  have hparam (q : Param) : q.toJson.Textual := by
    refine textual_record ?_
    simp only [List.forall_mem_cons]
    exact ⟨.text _, .text _, by simp⟩
  refine textual_record ?_
  simp only [List.forall_mem_cons]
  exact ⟨.text _, .text _, .array (List.forall_mem_map.mpr fun q _ => hparam q), by simp⟩

theorem Component.textual_toJson (c : Component) : c.toJson.Textual := by
  obtain ⟨kind, properties, alarms⟩ := c
  have halarms : ∀ alarm ∈ alarms, alarm.toJson.Textual := fun alarm h => by
    have hsize : sizeOf alarm < sizeOf alarms := List.sizeOf_lt_of_mem h
    exact textual_toJson alarm
  rw [toJson_eq]
  refine textual_record ?_
  simp only [List.forall_mem_cons]
  exact ⟨.text _, .array (List.forall_mem_map.mpr fun p _ => p.textual_toJson),
    .array (List.forall_mem_map.mpr halarms), by simp⟩
termination_by sizeOf c
decreasing_by
  simp only [Component.mk.sizeOf_spec]
  omega

theorem Resource.textual_toJson (r : Resource) : r.toJson.Textual := by
  refine textual_record ?_
  simp only [List.forall_mem_cons]
  exact ⟨.text _, .text _, .text _, r.component.textual_toJson, by simp⟩

/-- A file that an element was written to holds that element, unless its children lie deeper within
one another than is read out of a text. -/
theorem Element.decodeText_write {layout : Layout} (hlayout : layout.Loose) (e : Element)
    (hdepth : e.toJson.depth ≤ nestingLimit) {s : String} (hs : ∀ c ∈ s.toList, isBlank c = true) :
    decodeText decoder (write layout 0 e.toJson ++ s) = some e :=
  e.recovers.decodeText_write hlayout e.textual_toJson hdepth hs

/-- A file that resources were written to is a snapshot of them. -/
theorem Resource.decodeText_write {layout : Layout} (hlayout : layout.Loose) (rs : List Resource)
    (hdepth : (array (rs.map toJson)).depth ≤ nestingLimit) {s : String}
    (hs : ∀ c ∈ s.toList, isBlank c = true) :
    decodeText (.list decoder) (write layout 0 (array (rs.map toJson)) ++ s) = some rs :=
  (Decoder.recovers_list fun r _ => r.recovers).decodeText_write hlayout
    (.array (List.forall_mem_map.mpr fun r _ => r.textual_toJson)) hdepth hs

end CalendarSearch
