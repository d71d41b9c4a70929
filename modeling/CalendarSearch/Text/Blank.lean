/-!
The characters with the Unicode property `White_Space`, and texts trimmed of them.
-/

namespace CalendarSearch.Text

/-- The property `White_Space`: the ASCII blanks, next line, no-break space and the separators. -/
def isBlank (c : Char) : Bool :=
  let n := c.val
  (9 ≤ n && n ≤ 13) || n == 0x20 || n == 0x85 || n == 0xA0 || n == 0x1680 ||
    (0x2000 ≤ n && n ≤ 0x200A) || n == 0x2028 || n == 0x2029 || n == 0x202F || n == 0x205F ||
    n == 0x3000

def trimLeft (cs : List Char) : List Char := cs.dropWhile isBlank

def trim (cs : List Char) : List Char := (trimLeft (trimLeft cs).reverse).reverse

/-- How many bytes the text takes in UTF-8. -/
def byteLength (cs : List Char) : Nat := cs.foldr (fun c n => c.utf8Size + n) 0

@[simp] theorem byteLength_nil : byteLength [] = 0 := rfl

@[simp] theorem byteLength_cons (c : Char) (cs : List Char) :
    byteLength (c :: cs) = c.utf8Size + byteLength cs := rfl

@[simp] theorem byteLength_append (cs ds : List Char) :
    byteLength (cs ++ ds) = byteLength cs + byteLength ds := by
  induction cs with
  | nil => simp
  | cons c cs ih => simp [ih, Nat.add_assoc]

theorem length_le_byteLength (cs : List Char) : cs.length ≤ byteLength cs := by
  induction cs with
  | nil => simp
  | cons c cs ih =>
    have hc := c.utf8Size_pos
    rw [List.length_cons, byteLength_cons]
    omega

theorem byteLength_trimLeft_le (cs : List Char) : byteLength (trimLeft cs) ≤ byteLength cs := by
  have hcs : byteLength (cs.takeWhile isBlank ++ cs.dropWhile isBlank) = byteLength cs := by
    rw [List.takeWhile_append_dropWhile]
  rw [byteLength_append] at hcs
  rw [trimLeft]
  omega

/-- The character that starts at the given byte offset, if one does. -/
def charAtByte : Nat → List Char → Option Char
  | _, [] => none
  | 0, c :: _ => some c
  | offset + 1, c :: cs =>
    if c.utf8Size ≤ offset + 1 then charAtByte (offset + 1 - c.utf8Size) cs else none

/-- A character starts at an offset if what stands before it takes so many bytes. -/
theorem charAtByte_eq_some_iff {offset : Nat} {cs : List Char} {c : Char} :
    charAtByte offset cs = some c ↔
      ∃ before after, cs = before ++ c :: after ∧ byteLength before = offset := by
  induction cs generalizing offset with
  | nil => simp [charAtByte]
  | cons d cs ih =>
    have hd := d.utf8Size_pos
    cases offset with
    | zero =>
      constructor
      · intro h
        cases h
        exact ⟨[], cs, rfl, rfl⟩
      · rintro ⟨before, after, heq, hbefore⟩
        cases before with
        | nil =>
          cases heq
          rfl
        | cons e before =>
          have he := e.utf8Size_pos
          rw [byteLength_cons] at hbefore
          omega
    | succ offset =>
      rw [charAtByte]
      constructor
      · intro h
        split at h
        · rename_i hle
          obtain ⟨before, after, rfl, hbefore⟩ := ih.mp h
          refine ⟨d :: before, after, rfl, ?_⟩
          rw [byteLength_cons]
          omega
        · cases h
      · rintro ⟨before, after, heq, hbefore⟩
        cases before with
        | nil => cases hbefore
        | cons e before =>
          cases heq
          rw [byteLength_cons] at hbefore
          rw [if_pos (by omega)]
          exact ih.mpr ⟨before, after, rfl, by omega⟩

end CalendarSearch.Text
