import CalendarSearch.Proofs.Variations

/-! # Filters as trees of elements

Every filter can be written as a tree of elements. Reading the tree, or a variation of it, gives the
filter back. -/

namespace CalendarSearch

open Element Traversal

/-! ### Writing -/

/-- The element of a node that asks for absence, if it does. -/
def Element.flags (isNotDefined : Bool) : List Element :=
  if isNotDefined then [{ name := "is-not-defined" }] else []

def RangeText.toElement (r : RangeText) : Element where
  name := "time-range"
  attributes := .ofList (r.start.toList.map ("start", ·) ++ r.stop.toList.map ("end", ·))

def TextMatch.toElement (t : TextMatch) : Element where
  name := "text-match"
  attributes := .ofList
    [("collation", t.collation), ("negate-condition", if t.negate then "yes" else "no")]
  text := some t.value

def ParamFilter.toElement (f : ParamFilter) : Element where
  name := "param-filter"
  attributes := .ofList [("name", f.name)]
  children := flags f.isNotDefined ++ f.textMatch.toList.map TextMatch.toElement

def PropFilter.toElement (f : PropFilter) : Element where
  name := "prop-filter"
  attributes := .ofList [("name", f.name), ("test", f.test.name)]
  children := flags f.isNotDefined ++ f.timeRange.toList.map RangeText.toElement ++
    f.textMatch.toList.map TextMatch.toElement ++ f.paramFilters.map ParamFilter.toElement

@[simp] theorem RangeText.toElement_name (r : RangeText) : r.toElement.name = "time-range" := rfl

@[simp] theorem TextMatch.toElement_name (t : TextMatch) : t.toElement.name = "text-match" := rfl

@[simp] theorem ParamFilter.toElement_name (f : ParamFilter) :
    f.toElement.name = "param-filter" := rfl

@[simp] theorem PropFilter.toElement_name (f : PropFilter) :
    f.toElement.name = "prop-filter" := rfl

namespace CompFilter

mutual

def toElement : CompFilter → Element
  | ⟨name, test, isNotDefined, timeRange, propFilters, compFilters⟩ => {
    name := "comp-filter"
    attributes := .ofList [("name", name), ("test", test.name)]
    children := flags isNotDefined ++ timeRange.toList.map RangeText.toElement ++
      propFilters.map PropFilter.toElement ++ toElements compFilters }

def toElements : List CompFilter → List Element
  | [] => []
  | f :: fs => toElement f :: toElements fs

end

theorem toElements_eq_map (fs : List CompFilter) : toElements fs = fs.map toElement := by
  induction fs with
  | nil => rfl
  | cons f fs ih => rw [toElements, ih, List.map_cons]

theorem toElement_eq (f : CompFilter) : f.toElement = {
    name := "comp-filter"
    attributes := .ofList [("name", f.name), ("test", f.test.name)]
    children := flags f.isNotDefined ++ f.timeRange.toList.map RangeText.toElement ++
      f.propFilters.map PropFilter.toElement ++ f.compFilters.map toElement } := by
  obtain ⟨name, test, isNotDefined, timeRange, propFilters, compFilters⟩ := f
  rw [toElement, toElements_eq_map]

@[simp] theorem toElement_name (f : CompFilter) : f.toElement.name = "comp-filter" := by
  rw [toElement_eq]

/-- The filter as the only content of a `filter` element. -/
def wrapped (f : CompFilter) : Element where
  name := "filter"
  children := [f.toElement]

end CompFilter

/-! ### The children of each name -/

namespace Element

theorem named_flags (name : String) (b : Bool) :
    named name (flags b) = if name = "is-not-defined" then flags b else [] := by
  cases b with
  | false => simp [flags, named]
  | true =>
    rw [flags, if_pos rfl, named_cons, named_nil]
    simp [eq_comm]

theorem name_of_mem_flags {b : Bool} {e : Element} (h : e ∈ flags b) :
    e.name = "is-not-defined" := by
  cases b with
  | false => cases h
  | true =>
    cases List.mem_singleton.mp h
    rfl

@[simp] theorem isEmpty_flags (b : Bool) : (flags b).isEmpty = !b := by
  cases b <;> rfl

/-- Children written with one tag are all found under it, and under no other. -/
theorem named_map {α : Type} {toElement : α → Element} {tag : String}
    (htag : ∀ a, (toElement a).name = tag) (name : String) (as : List α) :
    named name (as.map toElement) = if name = tag then as.map toElement else [] := by
  induction as with
  | nil => simp [named]
  | cons a as ih =>
    rw [List.map_cons, named_cons, htag, ih]
    by_cases hname : name = tag
    · simp [hname]
    · simp [hname, Ne.symm hname]

/-- Where each element written is read back, so is the list. -/
theorem mapM_map {α : Type} {read : Element → Except FilterError α} {toElement : α → Element}
    {as : List α} (h : ∀ a ∈ as, read (toElement a) = .ok a) :
    (as.map toElement).mapM read = .ok as := by
  rw [mapM_eq_ok, List.forall₂_map_left_iff, List.forall₂_same]
  exact h

end Element

/-! ### Reading what was written -/

/-- A bound that is missing is an attribute that is not written. -/
theorem RangeText.rangeText_toElement (r : RangeText) : r.toElement.rangeText = r := by
  obtain ⟨start, stop⟩ := r
  cases start with
  | none => cases stop <;> simp [toElement, rangeText, attribute?, Attributes.ofList]
  | some s => cases stop <;> simp [toElement, rangeText, attribute?, Attributes.ofList]

/-- Both attributes are written out, so reading never falls back on a default. -/
theorem TextMatch.textMatch_toElement (t : TextMatch) : t.toElement.textMatch = .ok t := by
  obtain ⟨value, collation, negate⟩ := t
  cases negate with
  | false => simp [toElement, textMatch, attribute?, Attributes.ofList]
  | true => simp [toElement, textMatch, attribute?, Attributes.ofList]

/-! #### Param-filters -/

namespace ParamFilter

theorem named_children (f : ParamFilter) (name : String) : named name f.toElement.children =
    (if name = "is-not-defined" then flags f.isNotDefined else []) ++
    (if name = "text-match" then f.textMatch.toList.map TextMatch.toElement else []) := by
  rw [toElement, named_append, named_flags, named_map TextMatch.toElement_name]

theorem paramFilter_toElement (f : ParamFilter) : f.toElement.paramFilter = .ok f := by
  refine paramFilter_eq_ok.mpr ⟨?_, fun child hchild => ?_, ?_, ?_⟩
  · simp [toElement, attribute?, Attributes.ofList]
  · simp only [toElement, List.mem_append, List.mem_map] at hchild
    obtain hchild | ⟨t, -, rfl⟩ := hchild
    · simp [name_of_mem_flags hchild, paramVocabulary]
    · simp [paramVocabulary]
  · rw [flagged_eq, named_children]
    simp
  · rw [named_children]
    simpa using mapM_map fun t _ => t.textMatch_toElement

end ParamFilter

/-! #### Prop-filters -/

namespace PropFilter

theorem named_children (f : PropFilter) (name : String) : named name f.toElement.children =
    (if name = "is-not-defined" then flags f.isNotDefined else []) ++
    (if name = "time-range" then f.timeRange.toList.map RangeText.toElement else []) ++
    (if name = "text-match" then f.textMatch.toList.map TextMatch.toElement else []) ++
    (if name = "param-filter" then f.paramFilters.map ParamFilter.toElement else []) := by
  simp only [toElement, named_append, named_flags, named_map RangeText.toElement_name,
    named_map TextMatch.toElement_name, named_map ParamFilter.toElement_name]

theorem propFilter_toElement (f : PropFilter) : f.toElement.propFilter = .ok f := by
  refine propFilter_eq_ok.mpr ⟨?_, ?_, fun child hchild => ?_, ?_, ?_, ?_, ?_⟩
  · simp [toElement, attribute?, Attributes.ofList]
  · simp [toElement, attribute?, Attributes.ofList]
  · simp only [toElement, List.mem_append, List.mem_map] at hchild
    obtain ((hchild | ⟨r, -, rfl⟩) | ⟨t, -, rfl⟩) | ⟨p, -, rfl⟩ := hchild
    · simp [name_of_mem_flags hchild, propVocabulary]
    · simp [propVocabulary]
    · simp [propVocabulary]
    · simp [propVocabulary]
  · rw [flagged_eq, named_children]
    simp
  · rw [named_children]
    simp [RangeText.rangeText_toElement, Function.comp_def]
  · rw [named_children]
    simpa using mapM_map fun t _ => t.textMatch_toElement
  · rw [named_children]
    simpa using mapM_map fun p _ => p.paramFilter_toElement

end PropFilter

/-! #### Comp-filters and whole filters -/

namespace CompFilter

theorem named_children (f : CompFilter) (name : String) : named name f.toElement.children =
    (if name = "is-not-defined" then flags f.isNotDefined else []) ++
    (if name = "time-range" then f.timeRange.toList.map RangeText.toElement else []) ++
    (if name = "prop-filter" then f.propFilters.map PropFilter.toElement else []) ++
    (if name = "comp-filter" then f.compFilters.map toElement else []) := by
  simp only [toElement_eq, named_append, named_flags, named_map RangeText.toElement_name,
    named_map PropFilter.toElement_name, named_map toElement_name]

theorem compFilter_toElement (f : CompFilter) : f.toElement.compFilter = .ok f := by
  induction f using CompFilter.induction with
  | node f ih =>
    refine compFilter_eq_ok.mpr ⟨?_, ?_, fun child hchild => ?_, ?_, ?_, ?_, ?_⟩
    · simp [toElement_eq, attribute?, Attributes.ofList]
    · simp [toElement_eq, attribute?, Attributes.ofList]
    · simp only [toElement_eq, List.mem_append, List.mem_map] at hchild
      obtain ((hchild | ⟨r, -, rfl⟩) | ⟨p, -, rfl⟩) | ⟨c, -, rfl⟩ := hchild
      · simp [name_of_mem_flags hchild, compVocabulary]
      · simp [compVocabulary]
      · simp [compVocabulary]
      · simp [compVocabulary]
    · rw [flagged_eq, named_children]
      simp
    · rw [named_children]
      simp [RangeText.rangeText_toElement, Function.comp_def]
    · rw [named_children]
      simpa using mapM_map fun p _ => p.propFilter_toElement
    · rw [named_children]
      simpa using mapM_map ih

theorem toFilter_bare (f : CompFilter) : f.toElement.toFilter = .ok f :=
  toFilter_eq_ok.mpr (.inl ⟨f.toElement_name, compFilter_eq_ok.mp f.compFilter_toElement⟩)

theorem toFilter_wrapped (f : CompFilter) : f.wrapped.toFilter = .ok f :=
  toFilter_eq_ok.mpr (.inr ⟨rfl, f.toElement, rfl, f.toElement_name,
    compFilter_eq_ok.mp f.compFilter_toElement⟩)

/-- The element of a filter, alone or wrapped, and every variation of it say the filter. -/
theorem toFilter_toElement (f : CompFilter) :
    f.toElement.toFilter = .ok f ∧ f.wrapped.toFilter = .ok f ∧
      ∀ e, f.toElement.Varies e ∨ f.wrapped.Varies e → e.toFilter = .ok f := by
  refine ⟨f.toFilter_bare, f.toFilter_wrapped, fun e he => ?_⟩
  cases he with
  | inl hbare => exact hbare.toFilter f.toFilter_bare
  | inr hwrapped => exact hwrapped.toFilter f.toFilter_wrapped

/-- No event in 2024 or later that was cancelled. -/
def cancelledEvents : CompFilter where
  name := "VEVENT"
  isNotDefined := true
  timeRange := some { start := some "20240101T000000Z" }
  propFilters := [{ name := "STATUS", textMatch := some { value := "CANCELLED" } }]

/-- The same with the children in another order, one of them repeated, and a comment. -/
def cancelledEventsElement : Element where
  name := "comp-filter"
  attributes := .ofList [("name", "VEVENT"), ("test", "anyof"), ("comment", "cancelled")]
  children := [
    { name := "prop-filter"
      attributes := .ofList [("name", "STATUS"), ("test", "anyof")]
      children := [{
        name := "text-match"
        attributes := .ofList [("collation", "i;ascii-casemap"), ("negate-condition", "no")]
        text := some "CANCELLED" }] },
    { name := "is-not-defined" },
    { name := "time-range", attributes := .ofList [("start", "20240101T000000Z")] },
    { name := "is-not-defined" }]

/-- The element below is the one written, with its children interleaved and attributes that nobody
reads. -/
theorem varies_cancelledEvents : cancelledEvents.toElement.Varies cancelledEventsElement :=
  ((Varies.swap (by decide) [{ name := "is-not-defined" }] [] rfl).trans
    (.swap (by decide) [] [_] rfl)).trans
      ((Varies.repeatFlag rfl rfl [_, _, _] [] rfl).trans
        (.addAttribute (by decide) "cancelled"))

theorem toFilter_toElement_cancelledEvents :
    let f : CompFilter := { name := "VCALENDAR", compFilters := [cancelledEvents] }
    let e : Element := { f.wrapped with children := [
      { f.toElement with children := [cancelledEventsElement] }] }
    f.wrapped.Varies e ∧ e.toFilter = .ok f := by
  intro f e
  have he : f.wrapped.Varies e :=
    .inside (.cons (.inside (.cons varies_cancelledEvents .nil)) .nil)
  exact ⟨he, f.toFilter_toElement.2.2 e (.inr he)⟩

end CompFilter

end CalendarSearch
