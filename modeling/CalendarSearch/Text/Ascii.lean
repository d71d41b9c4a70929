/-!
Text compared up to the case of ASCII letters. Letters outside ASCII keep their case: `É` and `é`
are different here, as they are to the `i;ascii-casemap` collation.
-/

namespace CalendarSearch.Text

/-- The characters of a text with every ASCII capital replaced by its small letter. -/
def fold (s : String) : List Char := s.toList.map Char.toLower

/-- Two texts that differ at most in the case of ASCII letters. -/
def alike (a b : String) : Bool := fold a == fold b

/-- Does `needle` stand somewhere in the text as a block of neighbouring characters? -/
def occurs (needle : List Char) : List Char → Bool
  | [] => needle.isEmpty
  | c :: cs => needle.isPrefixOf (c :: cs) || occurs needle cs

theorem occurs_iff {needle text : List Char} : occurs needle text = true ↔ needle <:+: text := by
  induction text with
  | nil => simp [occurs]
  | cons c cs ih => simp [occurs, ih, List.infix_cons_iff]

/-- Does `needle` occur in `text`, where a caseless search ignores the case of ASCII letters? -/
def contains (caseless : Bool) (text needle : String) : Bool :=
  if caseless then occurs (fold needle) (fold text) else occurs needle.toList text.toList

/-- The pieces of a text between the separators; a text without one is its own only piece. -/
def splitAt (separator : Char) : List Char → List (List Char)
  | [] => [[]]
  | c :: cs =>
    if c = separator then [] :: splitAt separator cs
    else match splitAt separator cs with
      | piece :: pieces => (c :: piece) :: pieces
      | [] => [[c]]

theorem splitAt_eq_singleton {separator : Char} {cs : List Char} (h : separator ∉ cs) :
    splitAt separator cs = [cs] := by
  induction cs with
  | nil => rfl
  | cons c cs ih =>
    obtain ⟨hc, hcs⟩ := List.ne_and_not_mem_of_not_mem_cons h
    rw [splitAt, if_neg hc.symm, ih hcs]

end CalendarSearch.Text
