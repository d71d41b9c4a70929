/-!
The attributes of an element: at most one value for each name, in order of the names, so that two
sets of attributes with the same values are equal.
-/

namespace CalendarSearch

/-- Names with their values, in order of the names. -/
structure Attributes where
  entries : List (String × String) := []
  ordered : entries.Pairwise (fun a b => a.1 < b.1) := by simp
deriving DecidableEq, Repr

namespace Attributes

def empty : Attributes := {}

def get? (a : Attributes) (name : String) : Option String := a.entries.lookup name

/-- Puts a value into its place in a list that is in order. -/
def place (name value : String) : List (String × String) → List (String × String)
  | [] => [(name, value)]
  | (n, v) :: rest =>
    if name = n then (name, value) :: rest
    else if name < n then (name, value) :: (n, v) :: rest
    else (n, v) :: place name value rest

theorem mem_place {name value : String} {entries : List (String × String)} {e : String × String}
    (h : e ∈ place name value entries) : e = (name, value) ∨ e ∈ entries := by
  induction entries with
  | nil => simpa [place] using h
  | cons head rest ih =>
    simp only [place] at h
    split at h
    · rcases List.mem_cons.1 h with h | h
      · exact .inl h
      · exact .inr (List.mem_cons_of_mem _ h)
    · split at h
      · rcases List.mem_cons.1 h with h | h
        · exact .inl h
        · exact .inr h
      · rcases List.mem_cons.1 h with h | h
        · exact .inr (by simp [h])
        · rcases ih h with h | h
          · exact .inl h
          · exact .inr (List.mem_cons_of_mem _ h)

theorem ordered_place {name value : String} {entries : List (String × String)}
    (h : entries.Pairwise fun a b => a.1 < b.1) :
    (place name value entries).Pairwise fun a b => a.1 < b.1 := by
  induction entries with
  | nil => simp [place]
  | cons head rest ih =>
    obtain ⟨before, tail⟩ := List.pairwise_cons.1 h
    simp only [place]
    split
    · next same => exact List.pairwise_cons.2 ⟨fun e he => same ▸ before e he, tail⟩
    · next different =>
      split
      · next less =>
        refine List.pairwise_cons.2 ⟨fun e he => ?_, h⟩
        rcases List.mem_cons.1 he with rfl | he
        · exact less
        · exact String.lt_trans less (before e he)
      · next notLess =>
        refine List.pairwise_cons.2 ⟨fun e he => ?_, ih tail⟩
        rcases mem_place he with rfl | he
        · exact Std.lt_of_le_of_ne (String.not_lt.1 notLess) (Ne.symm different)
        · exact before e he

/-- Gives a name its value, in the place of an earlier one. -/
def insert (a : Attributes) (name value : String) : Attributes :=
  ⟨place name value a.entries, ordered_place a.ordered⟩

@[simp] theorem get?_empty (name : String) : empty.get? name = none := rfl

theorem lookup_cons_eq (name value other : String) (rest : List (String × String)) :
    ((name, value) :: rest).lookup other =
      if other = name then some value else rest.lookup other := by
  by_cases hname : other = name
  · simp [hname]
  · simp [List.lookup_cons, beq_false_of_ne hname, hname]

@[simp] theorem get?_insert (a : Attributes) (name value other : String) :
    (a.insert name value).get? other = if other = name then some value else a.get? other := by
  simp only [get?, insert]
  induction a.entries with
  | nil => exact lookup_cons_eq name value other []
  | cons head rest ih =>
    obtain ⟨n, v⟩ := head
    simp only [place, lookup_cons_eq]
    split
    · rename_i same
      rw [lookup_cons_eq, same]
      by_cases hother : other = n
      · simp [hother]
      · simp [hother]
    · rename_i different
      split
      · simp only [lookup_cons_eq]
      · rw [lookup_cons_eq, ih]
        by_cases hother : other = name
        · simp [hother, different]
        · simp [hother]

/-- The attributes of a list, in which a later value of a name replaces an earlier one. -/
def ofList (entries : List (String × String)) : Attributes :=
  entries.foldl (fun a e => a.insert e.1 e.2) empty

end Attributes

end CalendarSearch
