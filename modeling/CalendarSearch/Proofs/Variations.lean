import CalendarSearch.Proofs.Elements

/-! # Variations of a tree of elements

Trees that differ only in what reading passes over say the same filter: the order among children of
different names, how often an `is-not-defined` is repeated, and attributes without a meaning. -/

namespace CalendarSearch

open Traversal

namespace Element

/-- The attributes that are read of the elements with a name. -/
def attributesRead : String → List String
  | "comp-filter" | "prop-filter" => ["name", "test"]
  | "param-filter" => ["name"]
  | "text-match" => ["collation", "negate-condition"]
  | "time-range" => ["start", "end"]
  | _ => []

/-- The trees agree in what is read. The children of each name correspond in order; of the
`is-not-defined` children it matters only whether there are any. -/
inductive Varies : Element → Element → Prop
  | intro {e e' : Element}
    (name : e'.name = e.name)
    (text : e'.text = e.text)
    (attributes : ∀ a ∈ attributesRead e.name, e'.attribute? a = e.attribute? a)
    (flags : flagged e'.children = flagged e.children)
    (children : ∀ name ≠ "is-not-defined",
      List.Forall₂ Varies (named name e.children) (named name e'.children)) : e.Varies e'

namespace Varies

variable {e e' e'' : Element}

theorem name_eq (h : e.Varies e') : e'.name = e.name := by
  cases h with
  | intro name => exact name

theorem refl (e : Element) : e.Varies e := by
  induction e using Element.induction with
  | element e ih =>
    refine .intro rfl rfl (fun _ _ => rfl) rfl fun name _ => List.forall₂_same.mpr ?_
    exact fun child hchild => ih child (mem_named.mp hchild).1

theorem trans (h : e.Varies e') (h' : e'.Varies e'') : e.Varies e'' := by
  induction e using Element.induction generalizing e' e'' with
  | element e ih =>
    obtain ⟨name, text, attributes, flags, children⟩ := h
    obtain ⟨name', text', attributes', flags', children'⟩ := h'
    refine .intro (name'.trans name) (text'.trans text) (fun a ha => ?_) (flags'.trans flags)
      fun n hn => ?_
    · rw [attributes' a (name ▸ ha), attributes a ha]
    · exact forall₂_trans (children n hn) (children' n hn) fun child hchild _ _ =>
        ih child (mem_named.mp hchild).1

/-! ### The single changes -/

/-- The children are put in another order, which is the same among those of one name. -/
theorem interleave {children : List Element} (hflags : flagged children = flagged e.children)
    (hnamed : ∀ name ≠ "is-not-defined", named name children = named name e.children) :
    e.Varies { e with children } := by
  refine .intro rfl rfl (fun _ _ => rfl) hflags fun name hname => ?_
  rw [hnamed name hname]
  exact List.forall₂_same.mpr fun child _ => refl child

/-- Two neighbours of different names change places. -/
theorem swap {c d : Element} (hne : c.name ≠ d.name) (front back : List Element)
    (hchildren : e.children = front ++ c :: d :: back) :
    e.Varies { e with children := front ++ d :: c :: back } := by
  refine interleave ?_ fun name _ => ?_
  · simp [hchildren, flagged, Bool.or_left_comm]
  · simp only [hchildren, named_append, named_cons]
    by_cases hc : c.name = name
    · have hd : d.name ≠ name := fun hd => hne (hc.trans hd.symm)
      simp [hc, hd]
    · simp [hc]

/-- Where there is an `is-not-defined`, another one is put in. -/
theorem repeatFlag {flag : Element} (hflag : flag.name = "is-not-defined")
    (hflagged : flagged e.children = true) (front back : List Element)
    (hchildren : e.children = front ++ back) :
    e.Varies { e with children := front ++ flag :: back } := by
  refine interleave ?_ fun name hname => ?_
  · rw [hflagged]
    simp [flagged, hflag]
  · simp [hchildren, named_append, named_cons, hflag, hname.symm]

/-- An attribute that is not read gets a value. -/
theorem addAttribute {name : String} (hname : name ∉ attributesRead e.name) (value : String) :
    e.Varies { e with attributes := e.attributes.insert name value } := by
  refine .intro rfl rfl (fun a ha => ?_) rfl fun name _ => ?_
  · have hne : a ≠ name := fun h => hname (h ▸ ha)
    simp [attribute?, hne]
  · exact List.forall₂_same.mpr fun child _ => refl child

/-- Interleaving keeps the children of each name in order. -/
theorem forall₂_named (name : String) {es es' : List Element} (h : List.Forall₂ Varies es es') :
    List.Forall₂ Varies (named name es) (named name es') := by
  induction h with
  | nil => exact .nil
  | cons hchild _ ih =>
    rw [named_cons, named_cons, hchild.name_eq]
    split
    · exact .cons hchild ih
    · exact ih

/-- The changes can be made inside the children. -/
theorem inside {children : List Element} (h : List.Forall₂ Varies e.children children) :
    e.Varies { e with children } := by
  refine .intro rfl rfl (fun _ _ => rfl) ?_ fun name _ => forall₂_named name h
  rw [flagged_eq, flagged_eq, isEmpty_eq_isEmpty (forall₂_named "is-not-defined" h)]

/-! ### Readings do not change

What was read of a tree is read of its variations, whatever was read and however deep it lies. -/

/-- Attributes that are not read make no difference to a range. -/
theorem rangeText_eq (h : e.Varies e') (hname : e.name = "time-range") :
    e'.rangeText = e.rangeText := by
  obtain ⟨-, -, attributes, -, -⟩ := h
  simp only [attributesRead, hname, List.forall_mem_cons] at attributes
  rw [rangeText, rangeText, attributes.1, attributes.2.1]

theorem textMatch_eq (h : e.Varies e') (hname : e.name = "text-match") :
    e'.textMatch = e.textMatch := by
  obtain ⟨-, text, attributes, -, -⟩ := h
  simp only [attributesRead, hname, List.forall_mem_cons] at attributes
  rw [textMatch, textMatch, text, attributes.1, attributes.2.1]

/-- The children stay within what they may be. -/
theorem vocabulary (h : e.Varies e') {words : List String} (hflag : "is-not-defined" ∈ words)
    (hwords : ∀ child ∈ e.children, child.name ∈ words) :
    ∀ child ∈ e'.children, child.name ∈ words := by
  intro child hchild
  obtain ⟨-, -, -, -, children⟩ := h
  by_cases hname : child.name = "is-not-defined"
  · rw [hname]
    exact hflag
  · have hsame := forall_mem_right (P := (·.name ∈ words)) (children child.name hname)
      fun old hold _ hvaries => hvaries.name_eq ▸ hwords old (mem_named.mp hold).1
    exact hsame child (mem_named.mpr ⟨hchild, rfl⟩)

theorem mapM_eq_ok {α : Type} {read : Element → Except FilterError α} {es es' : List Element}
    {as : List α} (h : List.Forall₂ Varies es es')
    (hread : ∀ e ∈ es, ∀ e' a, e.Varies e' → read e = .ok a → read e' = .ok a)
    (has : es.mapM read = .ok as) : es'.mapM read = .ok as := by
  rw [Traversal.mapM_eq_ok] at has ⊢
  induction h generalizing as with
  | nil => exact has
  | cons hvaries _ ih =>
    obtain ⟨a, rest, ha, hrest, rfl⟩ := List.forall₂_cons_left_iff.mp has
    obtain ⟨hhead, htail⟩ := List.forall_mem_cons.mp hread
    exact .cons (hhead _ a hvaries ha) (ih htail hrest)

theorem map_rangeText (h : e.Varies e') :
    (named "time-range" e'.children).map rangeText =
      (named "time-range" e.children).map rangeText := by
  obtain ⟨-, -, -, -, children⟩ := h
  exact map_eq_map (children "time-range" (by decide)) fun range hrange _ hvaries =>
    hvaries.rangeText_eq (mem_named.mp hrange).2

theorem mapM_textMatch (h : e.Varies e') {texts : List TextMatch}
    (htexts : (named "text-match" e.children).mapM textMatch = .ok texts) :
    (named "text-match" e'.children).mapM textMatch = .ok texts := by
  obtain ⟨-, -, -, -, children⟩ := h
  refine mapM_eq_ok (children "text-match" (by decide)) (fun text htext _ t hvaries ht => ?_) htexts
  rw [hvaries.textMatch_eq (mem_named.mp htext).2]
  exact ht

theorem paramFilter (h : e.Varies e') (hname : e.name = "param-filter") {f : ParamFilter}
    (hf : e.paramFilter = .ok f) : e'.paramFilter = .ok f := by
  rw [paramFilter_eq_ok] at hf ⊢
  have htext := h.mapM_textMatch hf.textMatch
  have hvocabulary := h.vocabulary (by decide) hf.vocabulary
  obtain ⟨-, -, attributes, flags, -⟩ := h
  simp only [attributesRead, hname, List.mem_singleton, forall_eq] at attributes
  exact ⟨attributes.trans hf.name, hvocabulary, hf.isNotDefined.trans flags.symm, htext⟩

theorem propFilter (h : e.Varies e') (hname : e.name = "prop-filter") {f : PropFilter}
    (hf : e.propFilter = .ok f) : e'.propFilter = .ok f := by
  rw [propFilter_eq_ok] at hf ⊢
  have hrange := h.map_rangeText.trans hf.timeRange
  have htext := h.mapM_textMatch hf.textMatch
  have hvocabulary := h.vocabulary (by decide) hf.vocabulary
  obtain ⟨-, -, attributes, flags, children⟩ := h
  simp only [attributesRead, hname, List.forall_mem_cons] at attributes
  have hparams := mapM_eq_ok (children "param-filter" (by decide))
    (fun param hparam _ _ hvaries => hvaries.paramFilter (mem_named.mp hparam).2) hf.paramFilters
  exact ⟨attributes.1.trans hf.name, attributes.2.1 ▸ hf.test, hvocabulary,
    hf.isNotDefined.trans flags.symm, hrange, htext, hparams⟩

/-- A variation of a comp-filter is read as the same filter, by induction on its nodes. -/
theorem compFilter (h : e.Varies e') (hname : e.name = "comp-filter") {f : CompFilter}
    (hf : e.compFilter = .ok f) : e'.compFilter = .ok f := by
  induction e using Element.induction generalizing e' f with
  | element e ih =>
    rw [compFilter_eq_ok] at hf ⊢
    have hrange := h.map_rangeText.trans hf.timeRange
    have hvocabulary := h.vocabulary (by decide) hf.vocabulary
    obtain ⟨-, -, attributes, flags, children⟩ := h
    simp only [attributesRead, hname, List.forall_mem_cons] at attributes
    have hprops := mapM_eq_ok (children "prop-filter" (by decide))
      (fun prop hprop _ _ hvaries => hvaries.propFilter (mem_named.mp hprop).2) hf.propFilters
    have hcomps := mapM_eq_ok (children "comp-filter" (by decide))
      (fun comp hcomp _ _ hvaries =>
        ih comp (mem_named.mp hcomp).1 hvaries (mem_named.mp hcomp).2) hf.compFilters
    exact ⟨attributes.1.trans hf.name, attributes.2.1 ▸ hf.test, hvocabulary,
      hf.isNotDefined.trans flags.symm, hrange, hprops, hcomps⟩

/-- A variation of the only child is the only child of a variation. -/
theorem only_child (h : e.Varies e') {only : Element} (honly : e.children = [only])
    (hname : only.name ≠ "is-not-defined") :
    ∃ only', e'.children = [only'] ∧ only.Varies only' := by
  have hvocabulary := h.vocabulary List.mem_cons_self (by simp [honly] : ∀ child ∈ e.children,
    child.name ∈ ["is-not-defined", only.name])
  obtain ⟨-, -, -, flags, children⟩ := h
  have hnames : named only.name e'.children = e'.children := by
    have hunflagged : ∀ child ∈ e'.children, child.name ≠ "is-not-defined" := by
      rw [honly] at flags
      simpa [flagged, hname] using flags
    refine List.filter_eq_self.mpr fun child hchild => ?_
    simpa [hunflagged child hchild] using hvocabulary child hchild
  have hsame := children only.name hname
  rw [hnames, honly, named_cons, if_pos rfl, named_nil] at hsame
  obtain ⟨only', _, hvaries, hrest, hchildren⟩ := List.forall₂_cons_left_iff.mp hsame
  rw [List.forall₂_nil_left_iff.mp hrest] at hchildren
  exact ⟨only', hchildren, hvaries⟩

theorem toFilter (h : e.Varies e') {f : CompFilter} (hf : e.toFilter = .ok f) :
    e'.toFilter = .ok f := by
  rw [toFilter_eq_ok] at hf ⊢
  simp only [← compFilter_eq_ok] at hf ⊢
  rcases hf with ⟨hname, hf⟩ | ⟨hname, only, honly, hinner, hf⟩
  · exact .inl ⟨h.name_eq.trans hname, h.compFilter hname hf⟩
  · obtain ⟨only', honly', hvaries⟩ := h.only_child honly (by simp [hinner])
    exact .inr ⟨h.name_eq.trans hname, only', honly', hvaries.name_eq.trans hinner,
      hvaries.compFilter hinner hf⟩

end Varies

end Element

end CalendarSearch
