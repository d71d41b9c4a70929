import CalendarSearch.Filter.Element
import CalendarSearch.Proofs.Traversal

/-! # What an element says

An element that can be read says one filter. Reading goes through the children one by one, but what
it gives depends only on the children of each name: of some names there may be one at most, the
others are read in order. -/

namespace CalendarSearch

open Traversal

namespace Element

def named (name : String) (es : List Element) : List Element := es.filter (·.name = name)

theorem named_nil (name : String) : named name [] = [] := rfl

theorem named_cons (name : String) (e : Element) (es : List Element) :
    named name (e :: es) = if e.name = name then e :: named name es else named name es := by
  simp [named, List.filter_cons]

theorem named_append (name : String) (es es' : List Element) :
    named name (es ++ es') = named name es ++ named name es' :=
  List.filter_append _ _

theorem mem_named {name : String} {e : Element} {es : List Element} :
    e ∈ named name es ↔ e ∈ es ∧ e.name = name := by
  simp [named]

/-- Is one of the elements an `is-not-defined`? -/
def flagged (es : List Element) : Bool := es.any (·.name = "is-not-defined")

theorem flagged_eq (es : List Element) : flagged es = !(named "is-not-defined" es).isEmpty := by
  rw [flagged, named, Bool.eq_iff_iff]
  simp

/-! ### Children one by one -/

section

variable {α : Type} {read : Element → Except FilterError α} {p : Prop} {q : α → Prop}

/-- The elements can be read one after the other, and what they say is added at the end. -/
def Adds (read : Element → Except FilterError α) (before : List α) (es : List Element)
    (after : List α) : Prop :=
  ∃ added, es.mapM read = .ok added ∧ after = before ++ added

theorem adds_nil {before after : List α} : Adds read before [] after ↔ after = before := by
  simp only [Adds, mapM_eq_ok, List.forall₂_nil_left_iff, exists_eq_left, List.append_nil]

theorem adds_cons {before after : List α} {e : Element} {es : List Element} :
    Adds read before (e :: es) after ↔
      ∃ a, read e = .ok a ∧ Adds read (before ++ [a]) es after := by
  simp only [Adds, mapM_eq_ok, List.forall₂_cons_left_iff]
  constructor
  · rintro ⟨_, ⟨a, as, ha, has, rfl⟩, rfl⟩
    exact ⟨a, ha, as, has, by simp⟩
  · rintro ⟨a, ha, as, has, rfl⟩
    exact ⟨a :: as, ⟨a, as, ha, has, rfl⟩, by simp⟩

theorem adds_empty {es : List Element} {after : List α} :
    Adds read [] es after ↔ es.mapM read = .ok after := by
  simp [Adds]

/-- The same where one element may be there at most. -/
def AddsOnce (read : Element → Except FilterError α) (before : Option α) (es : List Element)
    (after : Option α) : Prop :=
  Adds read before.toList es after.toList

theorem addsOnce_nil {before after : Option α} :
    AddsOnce read before [] after ↔ after = before := by
  rw [AddsOnce, adds_nil]
  cases before <;> cases after <;> simp

/-- A child that may stand once is refused where one has been read before. -/
theorem addsOnce_cons {before after : Option α} {e : Element} {es : List Element} :
    AddsOnce read before (e :: es) after ↔
      before = none ∧ ∃ a, read e = .ok a ∧ AddsOnce read (some a) es after := by
  rw [AddsOnce, adds_cons]
  cases before with
  | none => simp [AddsOnce]
  | some b =>
    simp only [reduceCtorEq, false_and, iff_false]
    rintro ⟨a, -, added, -, hafter⟩
    cases after <;> simp at hafter

/-- A slot that starts empty is filled by at most one child. -/
theorem addsOnce_empty {es : List Element} {after : Option α} :
    AddsOnce read none es after ↔ es.mapM read = .ok after.toList :=
  adds_empty

/-- What a reading does not change can be said apart from it. -/
theorem exists_ok_and {x : Except FilterError α} :
    (∃ a, x = .ok a ∧ p ∧ q a) ↔ p ∧ ∃ a, x = .ok a ∧ q a := by
  constructor
  · rintro ⟨a, ha, hp, hq⟩
    exact ⟨hp, a, ha, hq⟩
  · rintro ⟨hp, a, ha, hq⟩
    exact ⟨a, ha, hp, hq⟩

theorem exists_ok_and' {x : Except FilterError α} :
    (∃ a, x = .ok a ∧ q a ∧ p) ↔ (∃ a, x = .ok a ∧ q a) ∧ p := by
  simp only [← and_assoc, exists_and_right]

end

theorem nameAttribute_eq_ok {e : Element} {name : String} :
    e.nameAttribute = .ok name ↔ e.attribute? "name" = some name := by
  unfold nameAttribute
  split
  · rename_i hname
    simp [hname]
  · rename_i hname
    simp [hname]

theorem mapM_rangeText {es : List Element} {ranges : List RangeText} :
    es.mapM (fun e => (.ok e.rangeText : Except FilterError RangeText)) = .ok ranges ↔
      es.map rangeText = ranges := by
  rw [mapM_eq_ok]
  simp only [Except.ok.injEq]
  rw [← List.forall₂_map_left_iff (R := (· = ·)), List.forall₂_eq_eq_eq]

/-! ### Param-filters -/

/-- What the children of a param-filter may be. -/
def paramVocabulary : List String := ["is-not-defined", "text-match"]

/-- What the children add to a param-filter of which a part is read already. -/
theorem foldlM_readParamChild {children : List Element} {f g : ParamFilter} :
    children.foldlM readParamChild f = .ok g ↔
      g.name = f.name ∧
      (∀ child ∈ children, child.name ∈ paramVocabulary) ∧
      g.isNotDefined = (f.isNotDefined || flagged children) ∧
      AddsOnce textMatch f.textMatch (named "text-match" children) g.textMatch := by
  induction children generalizing f with
  | nil =>
    rw [List.foldlM_nil, pure_eq_ok, named_nil, addsOnce_nil]
    cases f
    cases g
    simp [flagged, eq_comm]
  | cons child rest ih =>
    rw [List.foldlM_cons, bind_eq_ok]
    simp only [ih, named_cons, List.forall_mem_cons, flagged, List.any_cons]
    unfold readParamChild
    split
    · rename_i hname
      simp [hname, paramVocabulary]
    · rename_i hname
      -- a second text match is refused
      cases f.textMatch with
      | none => simp [hname, paramVocabulary, addsOnce_cons, map_eq_ok, exists_ok_and]
      | some t => simp [hname, addsOnce_cons]
    · rename_i hflag htext
      have hother : child.name ∉ paramVocabulary := by simpa [paramVocabulary] using ⟨hflag, htext⟩
      simp [hother]

/-- The element says the param-filter. -/
structure SaysParam (e : Element) (f : ParamFilter) : Prop where
  name : e.attribute? "name" = some f.name
  vocabulary : ∀ child ∈ e.children, child.name ∈ paramVocabulary
  isNotDefined : f.isNotDefined = flagged e.children
  textMatch : (named "text-match" e.children).mapM textMatch = .ok f.textMatch.toList

theorem paramFilter_eq_ok {e : Element} {f : ParamFilter} :
    e.paramFilter = .ok f ↔ e.SaysParam f := by
  simp only [paramFilter, bind_eq_ok, nameAttribute_eq_ok, foldlM_readParamChild, addsOnce_empty,
    Bool.false_or]
  constructor
  · rintro ⟨name, hname, rfl, hvocabulary, hflag, htext⟩
    exact ⟨hname, hvocabulary, hflag, htext⟩
  · rintro ⟨hname, hvocabulary, hflag, htext⟩
    exact ⟨f.name, hname, rfl, hvocabulary, hflag, htext⟩

/-! ### Prop-filters -/

def propVocabulary : List String := ["is-not-defined", "time-range", "text-match", "param-filter"]

/-- Children of different names touch different fields, so their order across names is lost. -/
theorem foldlM_readPropChild {children : List Element} {f g : PropFilter} :
    children.foldlM readPropChild f = .ok g ↔
      (g.name = f.name ∧ g.test = f.test) ∧
      (∀ child ∈ children, child.name ∈ propVocabulary) ∧
      g.isNotDefined = (f.isNotDefined || flagged children) ∧
      AddsOnce (.ok ·.rangeText) f.timeRange (named "time-range" children) g.timeRange ∧
      AddsOnce textMatch f.textMatch (named "text-match" children) g.textMatch ∧
      Adds paramFilter f.paramFilters (named "param-filter" children) g.paramFilters := by
  induction children generalizing f with
  | nil =>
    rw [List.foldlM_nil, pure_eq_ok]
    simp only [named_nil, addsOnce_nil, adds_nil]
    cases f
    cases g
    simp [flagged, eq_comm, and_assoc]
  | cons child rest ih =>
    rw [List.foldlM_cons, bind_eq_ok]
    simp only [ih, named_cons, List.forall_mem_cons, flagged, List.any_cons]
    unfold readPropChild
    split
    · rename_i hname
      simp [hname, propVocabulary]
    · rename_i hname
      cases f.timeRange with
      | none => simp [hname, propVocabulary, addsOnce_cons]
      | some r => simp [hname, addsOnce_cons]
    · rename_i hname
      cases f.textMatch with
      | none =>
        simp [hname, propVocabulary, addsOnce_cons, map_eq_ok, exists_ok_and, exists_ok_and']
      | some t => simp [hname, addsOnce_cons]
    · rename_i hname
      simp [hname, propVocabulary, adds_cons, map_eq_ok, exists_ok_and]
    · rename_i hflag hrange htext hparam
      have hother : child.name ∉ propVocabulary := by
        simpa [propVocabulary] using ⟨hflag, hrange, htext, hparam⟩
      simp [hother]

structure SaysProp (e : Element) (f : PropFilter) : Prop where
  name : e.attribute? "name" = some f.name
  test : f.test = .ofAttribute (e.attribute? "test")
  vocabulary : ∀ child ∈ e.children, child.name ∈ propVocabulary
  isNotDefined : f.isNotDefined = flagged e.children
  timeRange : (named "time-range" e.children).map rangeText = f.timeRange.toList
  textMatch : (named "text-match" e.children).mapM textMatch = .ok f.textMatch.toList
  paramFilters : (named "param-filter" e.children).mapM paramFilter = .ok f.paramFilters

theorem propFilter_eq_ok {e : Element} {f : PropFilter} :
    e.propFilter = .ok f ↔ e.SaysProp f := by
  simp only [propFilter, bind_eq_ok, nameAttribute_eq_ok, foldlM_readPropChild, addsOnce_empty,
    adds_empty, mapM_rangeText, Bool.false_or]
  constructor
  · rintro ⟨name, hname, ⟨rfl, htest⟩, hvocabulary, hflag, hrange, htext, hparams⟩
    exact ⟨hname, htest, hvocabulary, hflag, hrange, htext, hparams⟩
  · rintro ⟨hname, htest, hvocabulary, hflag, hrange, htext, hparams⟩
    exact ⟨f.name, hname, ⟨rfl, htest⟩, hvocabulary, hflag, hrange, htext, hparams⟩

/-! ### Comp-filters -/

def compVocabulary : List String := ["is-not-defined", "time-range", "prop-filter", "comp-filter"]

/-- The children of a comp-filter, field by field, with the nested nodes read in order. -/
theorem readCompChildren_eq_ok {children : List Element} {f g : CompFilter} :
    readCompChildren f children = .ok g ↔
      (g.name = f.name ∧ g.test = f.test) ∧
      (∀ child ∈ children, child.name ∈ compVocabulary) ∧
      g.isNotDefined = (f.isNotDefined || flagged children) ∧
      AddsOnce (.ok ·.rangeText) f.timeRange (named "time-range" children) g.timeRange ∧
      Adds propFilter f.propFilters (named "prop-filter" children) g.propFilters ∧
      Adds compFilter f.compFilters (named "comp-filter" children) g.compFilters := by
  induction children generalizing f with
  | nil =>
    rw [readCompChildren]
    simp only [named_nil, addsOnce_nil, adds_nil]
    cases f
    cases g
    simp [flagged, eq_comm, and_assoc]
  | cons child rest ih =>
    simp only [named_cons, List.forall_mem_cons, flagged, List.any_cons]
    unfold readCompChildren
    split
    · rename_i hname
      simp [ih, hname, compVocabulary, flagged]
    · rename_i hname
      cases f.timeRange with
      | none => simp [ih, hname, compVocabulary, addsOnce_cons, flagged]
      | some r => simp [hname, addsOnce_cons]
    · rename_i hname
      simp [ih, hname, compVocabulary, adds_cons, bind_eq_ok, exists_ok_and, exists_ok_and',
        flagged]
    · rename_i hname
      simp [ih, hname, compVocabulary, adds_cons, bind_eq_ok, exists_ok_and, flagged]
    · rename_i hflag hrange hprop hcomp
      have hother : child.name ∉ compVocabulary := by
        simpa [compVocabulary] using ⟨hflag, hrange, hprop, hcomp⟩
      simp [hother]

structure SaysComp (e : Element) (f : CompFilter) : Prop where
  name : e.attribute? "name" = some f.name
  test : f.test = .ofAttribute (e.attribute? "test")
  vocabulary : ∀ child ∈ e.children, child.name ∈ compVocabulary
  isNotDefined : f.isNotDefined = flagged e.children
  timeRange : (named "time-range" e.children).map rangeText = f.timeRange.toList
  propFilters : (named "prop-filter" e.children).mapM propFilter = .ok f.propFilters
  compFilters : (named "comp-filter" e.children).mapM compFilter = .ok f.compFilters

theorem compFilter_eq (e : Element) :
    e.compFilter = (do
      readCompChildren { name := ← e.nameAttribute, test := .ofAttribute (e.attribute? "test") }
        e.children) := by
  cases e
  rfl

/-- A comp-filter is read from an element exactly when the element says it, at any depth. -/
theorem compFilter_eq_ok {e : Element} {f : CompFilter} :
    e.compFilter = .ok f ↔ e.SaysComp f := by
  simp only [compFilter_eq, bind_eq_ok, nameAttribute_eq_ok, readCompChildren_eq_ok, addsOnce_empty,
    adds_empty, mapM_rangeText, Bool.false_or]
  constructor
  · rintro ⟨name, hname, ⟨rfl, htest⟩, hvocabulary, hflag, hrange, hprops, hcomps⟩
    exact ⟨hname, htest, hvocabulary, hflag, hrange, hprops, hcomps⟩
  · rintro ⟨hname, htest, hvocabulary, hflag, hrange, hprops, hcomps⟩
    exact ⟨f.name, hname, ⟨rfl, htest⟩, hvocabulary, hflag, hrange, hprops, hcomps⟩

/-! ### Whole filters -/

/-- The root may be the comp-filter itself or a `filter` around just one. -/
theorem toFilter_eq_ok {e : Element} {f : CompFilter} :
    e.toFilter = .ok f ↔
      e.name = "comp-filter" ∧ e.SaysComp f ∨
      e.name = "filter" ∧ ∃ only, e.children = [only] ∧ only.name = "comp-filter" ∧
        only.SaysComp f := by
  simp only [← compFilter_eq_ok]
  unfold toFilter
  split
  · rename_i hname
    simp only [hname, String.reduceEq, false_and, true_and, false_or]
    split
    · rename_i only honly
      simp only [honly, List.cons.injEq, and_true, exists_eq_left']
      split
      · rename_i hcomp
        simp [hcomp]
      · rename_i hcomp
        simp [hcomp]
    · rename_i hmany
      simp only [reduceCtorEq, false_iff]
      rintro ⟨only, honly, -⟩
      exact hmany only honly
  · rename_i hname
    simp [hname]
  · rename_i hfilter hcomp
    simp only [reduceCtorEq, false_iff]
    rintro (⟨hname, -⟩ | ⟨hname, -⟩)
    · exact hcomp hname
    · exact hfilter hname

end Element

end CalendarSearch
