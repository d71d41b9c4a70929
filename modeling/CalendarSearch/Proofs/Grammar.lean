import CalendarSearch.Proofs.Elements

/-! # The grammar of filters

A tree of elements says a filter exactly when it follows the grammar: every element has the children
it may have, of some of them one at most, and the name or the text that it needs. A tree that does
not is refused as an invalid filter, and for no other reason. -/

namespace CalendarSearch

open Traversal

namespace Element

/-! ### The grammar -/

structure IsParamFilter (e : Element) : Prop where
  name : (e.attribute? "name").isSome
  vocabulary : ∀ child ∈ e.children, child.name ∈ paramVocabulary
  oneText : (named "text-match" e.children).length ≤ 1
  text : ∀ child ∈ named "text-match" e.children, child.text.isSome

structure IsPropFilter (e : Element) : Prop where
  name : (e.attribute? "name").isSome
  vocabulary : ∀ child ∈ e.children, child.name ∈ propVocabulary
  oneRange : (named "time-range" e.children).length ≤ 1
  oneText : (named "text-match" e.children).length ≤ 1
  text : ∀ child ∈ named "text-match" e.children, child.text.isSome
  params : ∀ child ∈ named "param-filter" e.children, child.IsParamFilter

inductive IsCompFilter : Element → Prop
  | intro {e : Element}
    (name : (e.attribute? "name").isSome)
    (vocabulary : ∀ child ∈ e.children, child.name ∈ compVocabulary)
    (oneRange : (named "time-range" e.children).length ≤ 1)
    (props : ∀ child ∈ named "prop-filter" e.children, child.IsPropFilter)
    (comps : ∀ child ∈ named "comp-filter" e.children, child.IsCompFilter) : e.IsCompFilter

/-- A `comp-filter` element that follows the grammar, alone or as the only child of a `filter`. -/
inductive IsFilter : Element → Prop
  | bare {e : Element} (name : e.name = "comp-filter") (comp : e.IsCompFilter) : e.IsFilter
  | wrapped {e only : Element} (name : e.name = "filter") (children : e.children = [only])
    (inner : only.name = "comp-filter") (comp : only.IsCompFilter) : e.IsFilter

/-! ### What can be read follows the grammar -/

theorem exists_textMatch {e : Element} : (∃ t, e.textMatch = .ok t) ↔ e.text.isSome := by
  unfold textMatch
  split
  · rename_i htext
    simp [htext]
  · rename_i value htext
    simp [htext]

/-- At most one text may be given, and it must have its text. -/
theorem exists_oneText {es : List Element} :
    (∃ t : Option TextMatch, es.mapM textMatch = .ok t.toList) ↔
      es.length ≤ 1 ∧ ∀ e ∈ es, e.text.isSome := by
  simp only [exists_mapM_eq_ok_toList, exists_textMatch]

theorem exists_oneRange {es : List Element} :
    (∃ r : Option RangeText, es.map rangeText = r.toList) ↔ es.length ≤ 1 := by
  simp only [← mapM_rangeText, exists_mapM_eq_ok_toList]
  simp

theorem exists_paramFilter {e : Element} : (∃ f, e.paramFilter = .ok f) ↔ e.IsParamFilter := by
  simp only [paramFilter_eq_ok]
  constructor
  · rintro ⟨f, hf⟩
    obtain ⟨hone, htext⟩ := exists_oneText.mp ⟨_, hf.textMatch⟩
    exact ⟨Option.isSome_of_eq_some hf.name, hf.vocabulary, hone, htext⟩
  · intro he
    obtain ⟨name, hname⟩ := Option.isSome_iff_exists.mp he.name
    obtain ⟨text, htext⟩ := exists_oneText.mpr ⟨he.oneText, he.text⟩
    exact ⟨⟨name, flagged e.children, text⟩, hname, he.vocabulary, rfl, htext⟩

/-- The elements read as prop-filters, said without the filter that is read. -/
theorem exists_propFilter {e : Element} : (∃ f, e.propFilter = .ok f) ↔ e.IsPropFilter := by
  simp only [propFilter_eq_ok]
  constructor
  · rintro ⟨f, hf⟩
    have hrange := exists_oneRange.mp ⟨_, hf.timeRange⟩
    obtain ⟨hone, htext⟩ := exists_oneText.mp ⟨_, hf.textMatch⟩
    have hparams := exists_mapM_eq_ok.mp ⟨_, hf.paramFilters⟩
    simp only [exists_paramFilter] at hparams
    exact ⟨Option.isSome_of_eq_some hf.name, hf.vocabulary, hrange, hone, htext, hparams⟩
  · intro he
    obtain ⟨name, hname⟩ := Option.isSome_iff_exists.mp he.name
    obtain ⟨range, hrange⟩ := exists_oneRange.mpr he.oneRange
    obtain ⟨text, htext⟩ := exists_oneText.mpr ⟨he.oneText, he.text⟩
    obtain ⟨params, hparams⟩ := exists_mapM_eq_ok.mpr fun child hchild =>
      exists_paramFilter.mpr (he.params child hchild)
    exact ⟨⟨name, .ofAttribute (e.attribute? "test"), flagged e.children, range, text, params⟩,
      hname, rfl, he.vocabulary, rfl, hrange, htext, hparams⟩

theorem exists_compFilter (e : Element) : (∃ f, e.compFilter = .ok f) ↔ e.IsCompFilter := by
  induction e using Element.induction with
  | element e ih =>
    have hchild (child : Element) (h : child ∈ named "comp-filter" e.children) :=
      ih child (mem_named.mp h).1
    simp only [compFilter_eq_ok]
    constructor
    · rintro ⟨f, hf⟩
      have hrange := exists_oneRange.mp ⟨_, hf.timeRange⟩
      have hprops := exists_mapM_eq_ok.mp ⟨_, hf.propFilters⟩
      have hcomps := exists_mapM_eq_ok.mp ⟨_, hf.compFilters⟩
      simp only [exists_propFilter] at hprops
      exact .intro (Option.isSome_of_eq_some hf.name) hf.vocabulary hrange hprops
        fun child h => (hchild child h).mp (hcomps child h)
    · rintro ⟨hname, hvocabulary, hrange, hprops, hcomps⟩
      obtain ⟨name, hname⟩ := Option.isSome_iff_exists.mp hname
      obtain ⟨range, hrange⟩ := exists_oneRange.mpr hrange
      obtain ⟨props, hprops⟩ := exists_mapM_eq_ok.mpr fun child h =>
        exists_propFilter.mpr (hprops child h)
      obtain ⟨comps, hcomps⟩ := exists_mapM_eq_ok.mpr fun child h =>
        (hchild child h).mpr (hcomps child h)
      exact ⟨⟨name, .ofAttribute (e.attribute? "test"), flagged e.children, range, props, comps⟩,
        hname, rfl, hvocabulary, rfl, hrange, hprops, hcomps⟩

/-- What is read at all is what the grammar accepts. -/
theorem exists_toFilter (e : Element) : (∃ f, e.toFilter = .ok f) ↔ e.IsFilter := by
  simp only [toFilter_eq_ok, ← compFilter_eq_ok]
  constructor
  · rintro ⟨f, ⟨hname, hcomp⟩ | ⟨hname, only, honly, hinner, hcomp⟩⟩
    · exact .bare hname ((exists_compFilter e).mp ⟨f, hcomp⟩)
    · exact .wrapped hname honly hinner ((exists_compFilter only).mp ⟨f, hcomp⟩)
  · intro he
    cases he with
    | bare hname hcomp =>
      obtain ⟨f, hf⟩ := (exists_compFilter e).mpr hcomp
      exact ⟨f, .inl ⟨hname, hf⟩⟩
    | @wrapped only hname honly hinner hcomp =>
      obtain ⟨f, hf⟩ := (exists_compFilter only).mpr hcomp
      exact ⟨f, .inr ⟨hname, only, honly, hinner, hf⟩⟩

/-! ### What cannot be read is invalid -/

section

variable {α β : Type} {x : Except FilterError α}

/-- A reading that fails, if it does, because the filter is invalid. -/
def Strict (x : Except FilterError α) : Prop :=
  ∀ error, x = .error error → ∃ flaw, error = .invalid flaw

theorem strict_ok (a : α) : Strict (.ok a) := nofun

theorem strict_invalid (flaw : Flaw) : Strict (.error (.invalid flaw) : Except FilterError α) := by
  intro error h
  cases h
  exact ⟨flaw, rfl⟩

/-- Strictness is kept step by step, whichever step fails first. -/
theorem Strict.bind {f : α → Except FilterError β} (hx : Strict x) (hf : ∀ a, Strict (f a)) :
    Strict (x >>= f) := by
  intro error h
  rcases bind_eq_error.mp h with h | ⟨a, -, h⟩
  · exact hx error h
  · exact hf a error h

theorem Strict.map {f : α → β} (hx : Strict x) : Strict (f <$> x) := by
  rw [map_eq_pure_bind]
  exact hx.bind fun a => strict_ok (f a)

theorem strict_foldlM {step : β → α → Except FilterError β} (hstep : ∀ b a, Strict (step b a))
    (as : List α) (b : β) : Strict (as.foldlM step b) := by
  induction as generalizing b with
  | nil => exact strict_ok b
  | cons a as ih =>
    rw [List.foldlM_cons]
    exact (hstep b a).bind ih

end

theorem strict_nameAttribute (e : Element) : Strict e.nameAttribute := by
  unfold nameAttribute
  split
  · exact strict_ok _
  · exact strict_invalid _

theorem strict_textMatch (e : Element) : Strict e.textMatch := by
  unfold textMatch
  split
  · exact strict_invalid _
  · exact strict_ok _

theorem strict_readParamChild (f : ParamFilter) (child : Element) :
    Strict (readParamChild f child) := by
  unfold readParamChild
  split
  · exact strict_ok _
  · split
    · exact strict_invalid _
    · exact (strict_textMatch child).map
  · exact strict_invalid _

theorem strict_paramFilter (e : Element) : Strict e.paramFilter :=
  (strict_nameAttribute e).bind fun _ => strict_foldlM strict_readParamChild e.children _

theorem strict_readPropChild (f : PropFilter) (child : Element) :
    Strict (readPropChild f child) := by
  unfold readPropChild
  split
  · exact strict_ok _
  · split
    · exact strict_invalid _
    · exact strict_ok _
  · split
    · exact strict_invalid _
    · exact (strict_textMatch child).map
  · exact (strict_paramFilter child).map
  · exact strict_invalid _

theorem strict_propFilter (e : Element) : Strict e.propFilter :=
  (strict_nameAttribute e).bind fun _ => strict_foldlM strict_readPropChild e.children _

theorem strict_readCompChildren {children : List Element}
    (h : ∀ child ∈ children, Strict child.compFilter) (f : CompFilter) :
    Strict (readCompChildren f children) := by
  induction children generalizing f with
  | nil =>
    rw [readCompChildren]
    exact strict_ok f
  | cons child rest ih =>
    obtain ⟨hchild, hrest⟩ := List.forall_mem_cons.mp h
    unfold readCompChildren
    split
    · exact ih hrest _
    · split
      · exact strict_invalid _
      · exact ih hrest _
    · exact (strict_propFilter child).bind fun _ => ih hrest _
    · exact hchild.bind fun _ => ih hrest _
    · exact strict_invalid _

/-- Every error of the reader says that the filter is invalid, at any depth. -/
theorem strict_compFilter (e : Element) : Strict e.compFilter := by
  induction e using Element.induction with
  | element e ih =>
    rw [compFilter_eq]
    exact (strict_nameAttribute e).bind fun _ => strict_readCompChildren ih _

theorem strict_toFilter (e : Element) : Strict e.toFilter := by
  unfold toFilter
  split
  · split
    · split
      · exact strict_compFilter _
      · exact strict_invalid _
    · exact strict_invalid _
  · exact strict_compFilter e
  · exact strict_invalid _

/-- Exactly the trees that follow the grammar are read, and the others are invalid filters. -/
theorem toFilter_accepts (e : Element) :
    ((∃ f, e.toFilter = .ok f) ↔ e.IsFilter) ∧
      ∀ error, e.toFilter = .error error → ∃ flaw, error = .invalid flaw :=
  ⟨exists_toFilter e, strict_toFilter e⟩

/-- A filter for calendars whose method is described by a parameter with so many texts. -/
def describedMethod (texts : List String) : Element where
  name := "comp-filter"
  attributes := .ofList [("name", "VCALENDAR")]
  children := [{
    name := "prop-filter"
    attributes := .ofList [("name", "METHOD")]
    children := [{
      name := "param-filter"
      attributes := .ofList [("name", "LANGUAGE")]
      children := texts.map fun text => { name := "text-match", text := some text } }] }]

theorem toFilter_accepts_describedMethod :
    (describedMethod ["en"]).IsFilter ∧ ¬(describedMethod ["en", "de"]).IsFilter ∧
      ∃ flaw, (describedMethod ["en", "de"]).toFilter = .error (.invalid flaw) := by
  have hrefused : (describedMethod ["en", "de"]).toFilter =
      .error (.invalid (.repeated "text-match" "param-filter")) := rfl
  refine ⟨(toFilter_accepts _).1.mp ⟨_, rfl⟩, fun hfilter => ?_, ?_⟩
  · obtain ⟨f, hf⟩ := (toFilter_accepts _).1.mpr hfilter
    rw [hrefused] at hf
    cases hf
  · obtain ⟨flaw, hflaw⟩ := (toFilter_accepts _).2 _ hrefused
    exact ⟨flaw, hflaw ▸ hrefused⟩

end Element

end CalendarSearch
