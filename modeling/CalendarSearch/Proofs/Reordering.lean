import CalendarSearch.Proofs.Answers
import CalendarSearch.Proofs.Deferrals

/-! # The order of siblings has no part in a search

Two filters that differ only in the order of the prop-filters, comp-filters and param-filters of
their nodes are both valid or both not, ask for a second check alike, and find the same. Plans of
the two may differ in every predicate; what is compared is what the filters mean. -/

namespace CalendarSearch

open Predicate (evalOptional)

/-! ### Lists in another order -/

/-- The elements of two lists correspond one to one, in any order. -/
def Rearranged {α β : Type} (R : α → β → Prop) (as : List α) (bs : List β) : Prop :=
  ∃ cs, List.Forall₂ R as cs ∧ cs.Perm bs

namespace Rearranged

variable {α β γ δ : Type} {R : α → β → Prop} {S : γ → δ → Prop} {as as' : List α} {bs bs' : List β}

theorem nil : Rearranged R [] [] := ⟨[], .nil, .refl _⟩

theorem append (h : Rearranged R as bs) (h' : Rearranged R as' bs') :
    Rearranged R (as ++ as') (bs ++ bs') := by
  obtain ⟨cs, hcs, hperm⟩ := h
  obtain ⟨cs', hcs', hperm'⟩ := h'
  exact ⟨cs ++ cs', List.rel_append hcs hcs', hperm.append hperm'⟩

theorem filter (h : Rearranged R as bs) {p : α → Bool} {q : β → Bool}
    (hpq : ∀ a b, R a b → p a = q b) : Rearranged R (as.filter p) (bs.filter q) := by
  obtain ⟨cs, hcs, hperm⟩ := h
  have hiff (a : α) (b : β) (hab : R a b) : p a = true ↔ q b = true := by rw [hpq a b hab]
  exact ⟨cs.filter q, List.rel_filter (fun a b hab => hiff a b hab) hcs, hperm.filter q⟩

theorem map (h : Rearranged R as bs) {f : α → γ} {g : β → δ}
    (hfg : ∀ a ∈ as, ∀ b, R a b → S (f a) (g b)) : Rearranged S (as.map f) (bs.map g) := by
  obtain ⟨cs, hcs, hperm⟩ := h
  have hmem : List.Forall₂ (fun a b => (∀ b, R a b → S (f a) (g b)) ∧ R a b) as cs :=
    (List.forall₂_and_left as cs).mpr ⟨hfg, hcs⟩
  exact ⟨cs.map g, List.rel_map (fun a b hab => hab.1 b hab.2) hmem, hperm.map g⟩

theorem flatMap (h : Rearranged R as bs) {f : α → List γ} {g : β → List δ}
    (hfg : ∀ a b, R a b → Rearranged S (f a) (g b)) :
    Rearranged S (as.flatMap f) (bs.flatMap g) := by
  obtain ⟨cs, hcs, hperm⟩ := h
  suffices hpart : Rearranged S (as.flatMap f) (cs.flatMap g) by
    obtain ⟨ds, hds, hperm'⟩ := hpart
    exact ⟨ds, hds, hperm'.trans (hperm.flatMap_right g)⟩
  clear hperm
  induction hcs with
  | nil => exact nil
  | cons hab _ ih =>
    rw [List.flatMap_cons, List.flatMap_cons]
    exact (hfg _ _ hab).append ih

/-- What corresponding elements agree on, the lists have in another order. -/
theorem perm_map (h : Rearranged R as bs) {f : α → γ} {g : β → γ} (hfg : ∀ a b, R a b → g b = f a) :
    (as.map f).Perm (bs.map g) := by
  obtain ⟨cs, hcs, hperm⟩ := h
  rw [← Traversal.map_eq_map hcs fun a _ b hab => hfg a b hab]
  exact hperm.map g

theorem isEmpty_eq (h : Rearranged R as bs) : as.isEmpty = bs.isEmpty := by
  obtain ⟨cs, hcs, hperm⟩ := h
  rw [← hperm.isEmpty_eq, Traversal.isEmpty_eq_isEmpty hcs]

theorem any_eq (h : Rearranged R as bs) {p : α → Bool} {q : β → Bool}
    (hpq : ∀ a b, R a b → q b = p a) : as.any p = bs.any q := by
  have hany := (h.perm_map hpq).any_eq (f := id)
  rwa [List.any_map, List.any_map] at hany

theorem all_eq (h : Rearranged R as bs) {p : α → Bool} {q : β → Bool}
    (hpq : ∀ a b, R a b → q b = p a) : as.all p = bs.all q := by
  have hall := (h.perm_map hpq).all_eq (f := id)
  rwa [List.all_map, List.all_map] at hall

theorem forall_mem_iff (h : Rearranged R as bs) {P : α → Prop} {Q : β → Prop}
    (hPQ : ∀ a b, R a b → (Q b ↔ P a)) : (∀ a ∈ as, P a) ↔ ∀ b ∈ bs, Q b := by
  have hperm := h.perm_map fun a b hab => propext (hPQ a b hab)
  calc (∀ a ∈ as, P a) ↔ ∀ p ∈ as.map P, p := (List.forall_mem_map (P := id)).symm
    _ ↔ ∀ p ∈ bs.map Q, p := forall_congr' fun p => imp_congr_left hperm.mem_iff
    _ ↔ ∀ b ∈ bs, Q b := List.forall_mem_map (P := id)

end Rearranged

/-- Both tests are symmetric in what they join. -/
theorem Junction.joins_perm (test : Junction) {as bs : List Bool} (h : as.Perm bs) :
    test.joins as = test.joins bs := by
  cases test with
  | any => rw [joins, joins, h.isEmpty_eq, h.any_eq]
  | all => rw [joins, joins, h.all_eq]

/-! ### Prop-filters -/

/-- The same prop-filter with its param-filters in another order. -/
inductive PropFilter.Reorders : PropFilter → PropFilter → Prop
  | params {f : PropFilter} {gs : List ParamFilter} : f.paramFilters.Perm gs →
      Reorders f { f with paramFilters := gs }

namespace PropFilter.Reorders

variable {x : FieldIndex} {f g : PropFilter}

theorem hasConditions_eq (h : f.Reorders g) : g.hasConditions = f.hasConditions := by
  obtain ⟨hperm⟩ := h
  simp only [hasConditions, hperm.isEmpty_eq]

/-- A prop-filter with its param-filters in another order is valid when the first is. -/
theorem valid_iff (h : f.Reorders g) : g.Valid x ↔ f.Valid x := by
  have hconditions := h.hasConditions_eq
  obtain ⟨hperm⟩ := h
  constructor
  · intro hg
    exact {
      known := hg.known
      undefined := hconditions ▸ hg.undefined
      single := hg.single
      range := hg.range
      text := hg.text
      params := fun p hp => hg.params p (hperm.mem_iff.mp hp) }
  · intro hf
    exact {
      known := hf.known
      undefined := hconditions ▸ hf.undefined
      single := hf.single
      range := hf.range
      text := hf.text
      params := fun p hp => hf.params p (hperm.mem_iff.mpr hp) }

/-- The param-filters of a prop-filter are joined by its test, which is the same in any order. -/
theorem holds_eq (h : f.Reorders g) (c : Component) : g.holds x c = f.holds x c := by
  obtain ⟨hperm⟩ := h
  have hjoins (id : PropertyName) := f.test.joins_perm (hperm.map (ParamFilter.holds x id c))
  simp only [holds, holdsOfValues, hperm.isEmpty_eq, hjoins]

theorem searchable_eq (h : f.Reorders g) : g.searchable x = f.searchable x := by
  obtain ⟨hperm⟩ := h
  simp only [searchable, hperm.all_eq]

end PropFilter.Reorders

/-! ### Nodes -/

/-- The same node with its prop-filters and the nodes inside it in another order, and these
reordered themselves. -/
inductive CompFilter.Reorders : CompFilter → CompFilter → Prop
  | node {f : CompFilter} {ps qs : List PropFilter} {gs hs : List CompFilter} :
      List.Forall₂ PropFilter.Reorders f.propFilters ps → ps.Perm qs →
      List.Forall₂ Reorders f.compFilters gs → gs.Perm hs →
      Reorders f { f with propFilters := qs, compFilters := hs }

namespace CompFilter.Reorders

variable {x : FieldIndex} {f g : CompFilter}

/-- What reordering leaves as it is. -/
theorem parts (h : f.Reorders g) :
    (g.name = f.name ∧ g.test = f.test ∧ g.isNotDefined = f.isNotDefined ∧
      g.timeRange = f.timeRange) ∧
    Rearranged PropFilter.Reorders f.propFilters g.propFilters ∧
    Rearranged Reorders f.compFilters g.compFilters := by
  obtain ⟨hps, hqs, hgs, hhs⟩ := h
  exact ⟨⟨rfl, rfl, rfl, rfl⟩, ⟨_, hps, hqs⟩, ⟨_, hgs, hhs⟩⟩

/-- Rearranged parts under one and the same node make a rearranged filter. -/
theorem of_parts {qs : List PropFilter} {hs : List CompFilter}
    (hprops : Rearranged PropFilter.Reorders f.propFilters qs)
    (hnodes : Rearranged Reorders f.compFilters hs) :
    f.Reorders { f with propFilters := qs, compFilters := hs } := by
  obtain ⟨ps, hps, hqs⟩ := hprops
  obtain ⟨gs, hgs, hhs⟩ := hnodes
  exact .node hps hqs hgs hhs

/-! ### Validity -/

theorem validConditions_iff (h : f.Reorders g) : g.ValidConditions x ↔ f.ValidConditions x := by
  obtain ⟨⟨-, -, -, hrange⟩, hprops, -⟩ := h.parts
  have hvalid : (∀ p ∈ f.propFilters, p.Valid x) ↔ ∀ p ∈ g.propFilters, p.Valid x :=
    hprops.forall_mem_iff fun p q hpq => hpq.valid_iff
  constructor
  · intro hg
    exact ⟨hrange ▸ hg.range, hvalid.mpr hg.props⟩
  · intro hf
    exact ⟨hrange ▸ hf.range, hvalid.mp hf.props⟩

/-- An alarm node is valid in any order of its prop-filters. -/
theorem validAlarm_iff (h : f.Reorders g) : g.ValidAlarm x ↔ f.ValidAlarm x := by
  obtain ⟨⟨hname, -, -, -⟩, -, hnodes⟩ := h.parts
  have hleaf : g.compFilters = [] ↔ f.compFilters = [] := by
    rw [← List.isEmpty_iff, ← List.isEmpty_iff, hnodes.isEmpty_eq]
  constructor
  · intro hg
    exact ⟨hname ▸ hg.name, h.validConditions_iff.mp hg.conditions, hleaf.mp hg.leaf⟩
  · intro hf
    exact ⟨hname ▸ hf.name, h.validConditions_iff.mpr hf.conditions, hleaf.mpr hf.leaf⟩

theorem validComponent_iff (h : f.Reorders g) : g.ValidComponent x ↔ f.ValidComponent x := by
  obtain ⟨⟨hname, -, -, -⟩, -, hnodes⟩ := h.parts
  have hvalid : (∀ a ∈ f.compFilters, a.ValidAlarm x) ↔ ∀ a ∈ g.compFilters, a.ValidAlarm x :=
    hnodes.forall_mem_iff fun a b hab => hab.validAlarm_iff
  constructor
  · intro hg
    exact ⟨hname ▸ hg.name, h.validConditions_iff.mp hg.conditions, hvalid.mpr hg.alarms⟩
  · intro hf
    exact ⟨hname ▸ hf.name, h.validConditions_iff.mpr hf.conditions, hvalid.mp hf.alarms⟩

theorem valid_iff (h : f.Reorders g) : g.Valid x ↔ f.Valid x := by
  obtain ⟨⟨hname, -, hdefined, hrange⟩, -, hnodes⟩ := h.parts
  have hvalid : (∀ c ∈ f.compFilters, c.ValidComponent x) ↔
      ∀ c ∈ g.compFilters, c.ValidComponent x :=
    hnodes.forall_mem_iff fun c d hcd => hcd.validComponent_iff
  constructor
  · intro hg
    exact ⟨hname ▸ hg.name, hdefined ▸ hg.defined, hrange ▸ hg.range, hvalid.mpr hg.components⟩
  · intro hf
    exact ⟨hname ▸ hf.name, hdefined ▸ hf.defined, hrange ▸ hf.range, hvalid.mp hf.components⟩

/-! ### Meaning -/

theorem joins_props_eq (h : f.Reorders g) (c : Component) :
    f.test.joins (g.propFilters.map (PropFilter.holds x c)) =
      f.test.joins (f.propFilters.map (PropFilter.holds x c)) := by
  obtain ⟨-, hprops, -⟩ := h.parts
  exact (f.test.joins_perm (hprops.perm_map fun p q hpq => hpq.holds_eq c)).symm

/-- An alarm node means the same in any order of its prop-filters. -/
theorem holdsOfAlarms_eq (h : f.Reorders g) (owner : Component) :
    g.holdsOfAlarms x owner = f.holdsOfAlarms x owner := by
  obtain ⟨⟨-, htest, hdefined, hrange⟩, -, -⟩ := h.parts
  simp only [holdsOfAlarms, htest, hdefined, hrange, h.joins_props_eq]

theorem holdsOfComponent_eq (h : f.Reorders g) (c : Component) :
    g.holdsOfComponent x c = f.holdsOfComponent x c := by
  obtain ⟨⟨hname, htest, hdefined, hrange⟩, -, hnodes⟩ := h.parts
  have halarms : f.test.joins (g.compFilters.map (CompFilter.holdsOfAlarms x c)) =
      f.test.joins (f.compFilters.map (CompFilter.holdsOfAlarms x c)) :=
    (f.test.joins_perm (hnodes.perm_map fun a b hab => hab.holdsOfAlarms_eq c)).symm
  simp only [holdsOfComponent, hname, htest, hdefined, hrange, h.joins_props_eq, halarms]

theorem holdsOfCalendar_eq (h : f.Reorders g) (c : Component) :
    g.holdsOfCalendar x c = f.holdsOfCalendar x c := by
  obtain ⟨⟨-, htest, -, hrange⟩, -, hnodes⟩ := h.parts
  have hcomponents : f.test.joins (g.compFilters.map (CompFilter.holdsOfComponent x c)) =
      f.test.joins (f.compFilters.map (CompFilter.holdsOfComponent x c)) :=
    (f.test.joins_perm (hnodes.perm_map fun a b hab => hab.holdsOfComponent_eq c)).symm
  simp only [holdsOfCalendar, htest, hrange, hcomponents]

/-! ### What is deferred -/

theorem searchedProps (h : f.Reorders g) :
    Rearranged PropFilter.Reorders f.searchedProps g.searchedProps := by
  obtain ⟨-, -, hnodes⟩ := h.parts
  refine hnodes.flatMap fun c d hcd => ?_
  obtain ⟨-, hprops, halarms⟩ := hcd.parts
  exact hprops.append (halarms.flatMap fun a b hab => hab.parts.2.1)

/-- What is asked of one kind, over the whole filter, is the same up to order. -/
theorem propsFor (h : f.Reorders g) (kind : ComponentKind) :
    Rearranged PropFilter.Reorders (f.propsFor kind) (g.propsFor kind) := by
  obtain ⟨-, -, hnodes⟩ := h.parts
  refine hnodes.flatMap fun c d hcd => ?_
  obtain ⟨⟨hname, -, -, -⟩, hprops, halarms⟩ := hcd.parts
  rw [hname]
  refine Rearranged.append ?_ ?_
  · split
    · exact hprops
    · exact .nil
  · split
    · exact halarms.flatMap fun a b hab => hab.parts.2.1
    · exact .nil

theorem stripNode (h : f.Reorders g) : (f.stripNode x).Reorders (g.stripNode x) := by
  induction f using CompFilter.induction generalizing g with
  | node f ih =>
    obtain ⟨hps, hqs, hgs, hhs⟩ := h
    have hprops : Rearranged PropFilter.Reorders f.propFilters _ := ⟨_, hps, hqs⟩
    have hnodes : Rearranged Reorders f.compFilters _ := ⟨_, hgs, hhs⟩
    rw [stripNode_eq, stripNode_eq]
    exact .of_parts (hprops.filter fun p q hpq => hpq.searchable_eq.symm)
      (hnodes.map fun a ha b hab => ih a ha hab)

theorem strip (h : f.Reorders g) : (f.strip x).Reorders (g.strip x) := by
  obtain ⟨hps, hqs, hgs, hhs⟩ := h
  have hnodes : Rearranged Reorders f.compFilters _ := ⟨_, hgs, hhs⟩
  exact .of_parts ⟨_, hps, hqs⟩ (hnodes.map fun a _ b hab => hab.stripNode)

end CompFilter.Reorders

/-! ### Searches -/

namespace Plan

variable {x : Planner} {f g : CompFilter} {p q : Plan}

/-- A recheck is called for by some unsearchable prop-filter that the plan reads, wherever it
stands. -/
theorem recheck_reorders (h : f.Reorders g) (hp : x.plan f = .ok p) (hq : x.plan g = .ok q) :
    p.recheck = q.recheck := by
  rw [Planner.recheck_eq hp, Planner.recheck_eq hq,
    h.searchedProps.all_eq fun _ _ hab => hab.searchable_eq]

theorem filtersFor_reorders (h : f.Reorders g) (hmode : x.mode = .legacyAnyOf)
    (hp : x.plan f = .ok p) (hq : x.plan g = .ok q) (kind : ComponentKind) :
    Rearranged PropFilter.Reorders (p.filtersFor kind) (q.filtersFor kind) := by
  rw [filtersFor_legacy hmode hp, filtersFor_legacy hmode hq]
  exact (h.propsFor kind).filter fun a b hab => by rw [hab.searchable_eq]

/-- In legacy mode the deferred prop-filters of a kind are joined by "any", in any order. -/
theorem deferredHolds_reorders (h : f.Reorders g) (hmode : x.mode = .legacyAnyOf)
    (hp : x.plan f = .ok p) (hq : x.plan g = .ok q) (c : Component) :
    p.deferredHolds x.index c = q.deferredHolds x.index c := by
  have hfilters := filtersFor_reorders h hmode hp hq c.kind
  exact Junction.any.joins_perm (hfilters.perm_map fun _ _ hab => hab.holds_eq c)

theorem deferredHoldsOfAlarms_reorders (h : f.Reorders g) (hmode : x.mode = .legacyAnyOf)
    (hp : x.plan f = .ok p) (hq : x.plan g = .ok q) (c : Component) :
    p.deferredHoldsOfAlarms x.index c = q.deferredHoldsOfAlarms x.index c := by
  have hfilters := filtersFor_reorders h hmode hp hq .alarm
  have hany (alarm : Component) : (p.filtersFor .alarm).any (PropFilter.holds x.index alarm) =
      (q.filtersFor .alarm).any (PropFilter.holds x.index alarm) :=
    hfilters.any_eq fun _ _ hab => hab.holds_eq alarm
  simp only [deferredHoldsOfAlarms, hfilters.isEmpty_eq, hany]

/-- Plans of filters that differ only in the order of siblings find the same. -/
theorem finds_reorders {index : FieldIndex} {settings : Settings} (h : f.Reorders g)
    (hp : (settings.planner index).plan f = .ok p) (hq : (settings.planner index).plan g = .ok q) :
    ∃ wanted, p.Finds index settings wanted ∧ q.Finds index settings wanted := by
  have hrecheck := recheck_reorders h hp hq
  cases hmode : settings.mode with
  | honorTest =>
    have hx : (settings.planner index).mode = .honorTest := hmode
    have hfinds : q.Finds index settings _ := (Planner.honours_plan hx hq).finds
    refine ⟨_, (Planner.honours_plan hx hp).finds, ?_⟩
    simp only [h.holdsOfCalendar_eq, ← hrecheck] at hfinds
    exact hfinds
  | legacyAnyOf =>
    have hx : (settings.planner index).mode = .legacyAnyOf := hmode
    have hfinds := finds_legacy hmode hq
    have hroot (r : Resource) : q.root.all (·.selects r) = p.root.all (·.selects r) := by
      have hr := (h.strip (x := index)).holdsOfCalendar_eq (x := index) r.component
      exact (root_legacy hx hq _).trans (hr.trans (root_legacy hx hp _).symm)
    have hown (c : Component) : p.deferredHolds index c = q.deferredHolds index c :=
      deferredHolds_reorders h hx hp hq c
    have halarms (c : Component) :
        p.deferredHoldsOfAlarms index c = q.deferredHoldsOfAlarms index c :=
      deferredHoldsOfAlarms_reorders h hx hp hq c
    refine ⟨_, finds_legacy hmode hp, ?_⟩
    simp only [hroot, ← hrecheck, ← hown, ← halarms] at hfinds
    exact hfinds

end Plan

/-- Filters that differ only in the order of siblings can both be planned or both not. Their plans
ask for a second check alike, and the searches end alike: with the same resources or with the same
failure of the snapshot. -/
theorem search_reorders {index : FieldIndex} {settings : Settings} {f g : CompFilter}
    (h : f.Reorders g) :
    ((∃ p, (settings.planner index).plan f = .ok p) ↔
      ∃ q, (settings.planner index).plan g = .ok q) ∧
    ∀ p q, (settings.planner index).plan f = .ok p → (settings.planner index).plan g = .ok q →
      p.recheck = q.recheck ∧ ∀ rs scope,
        search (Snapshot.answer rs) index settings f scope =
          search (Snapshot.answer rs) index settings g scope := by
  constructor
  · rw [Planner.verdict_plan.exists_ok_iff, Planner.verdict_plan.exists_ok_iff]
    exact h.valid_iff.symm
  · intro p q hp hq
    obtain ⟨wanted, hfinds, hfinds'⟩ := Plan.finds_reorders h hp hq
    refine ⟨Plan.recheck_reorders h hp hq, fun rs scope => ?_⟩
    rw [search_snapshot hp hfinds, search_snapshot hq hfinds']

def guest (params : List ParamFilter) : PropFilter where
  name := "ATTENDEE"
  test := .all
  paramFilters := params

def eventsWith (props : List PropFilter) : CompFilter where
  name := "VEVENT"
  propFilters := props

/-- To-dos, and events with a comment or with a guest who has an answer and a name. Neither comments
nor the names of guests are indexed. -/
def guestsAndTodos : CompFilter where
  name := "VCALENDAR"
  compFilters := [
    eventsWith [guest [{ name := "PARTSTAT" }, { name := "CN" }], { name := "COMMENT" }],
    { name := "VTODO" }]

def todosAndGuests : CompFilter where
  name := "VCALENDAR"
  compFilters := [
    { name := "VTODO" },
    eventsWith [{ name := "COMMENT" }, guest [{ name := "CN" }, { name := "PARTSTAT" }]]]

theorem guestsAndTodos_reorders : guestsAndTodos.Reorders todosAndGuests := by
  have hguest : (guest [{ name := "PARTSTAT" }, { name := "CN" }]).Reorders
      (guest [{ name := "CN" }, { name := "PARTSTAT" }]) := .params (.swap _ _ [])
  have hcomment : PropFilter.Reorders { name := "COMMENT" } { name := "COMMENT" } :=
    .params (.refl [])
  have htodo : CompFilter.Reorders { name := "VTODO" } { name := "VTODO" } :=
    .node .nil (.refl []) .nil (.refl [])
  have hevent : (eventsWith [guest [{ name := "PARTSTAT" }, { name := "CN" }],
      { name := "COMMENT" }]).Reorders
        (eventsWith [{ name := "COMMENT" }, guest [{ name := "CN" }, { name := "PARTSTAT" }]]) :=
    .node (.cons hguest (.cons hcomment .nil)) (.swap _ _ []) .nil (.refl [])
  exact .node .nil (.refl []) (.cons hevent (.cons htodo .nil)) (.swap _ _ [])

theorem search_reorders_guestsAndTodos :
    (guestsAndTodos.Reorders todosAndGuests ∧
      search (Snapshot.answer [bareEvent, bareTodo, commentedEvent]) .standard
        { mode := .legacyAnyOf } guestsAndTodos {} = .ok [bareTodo, commentedEvent]) ∧
    ∃ p q, (({ mode := .legacyAnyOf } : Settings).planner .standard).plan guestsAndTodos = .ok p ∧
      (({ mode := .legacyAnyOf } : Settings).planner .standard).plan todosAndGuests = .ok q ∧
      p.recheck = q.recheck ∧
      search (Snapshot.answer [bareEvent, bareTodo, commentedEvent]) .standard
        { mode := .legacyAnyOf } todosAndGuests {} = .ok [bareTodo, commentedEvent] := by
  have hfound : search (Snapshot.answer [bareEvent, bareTodo, commentedEvent]) .standard
      { mode := .legacyAnyOf } guestsAndTodos {} = .ok [bareTodo, commentedEvent] := rfl
  have hplan : ∃ p, (({ mode := .legacyAnyOf } : Settings).planner .standard).plan
      guestsAndTodos = .ok p := ⟨_, rfl⟩
  obtain ⟨hplans, hsame⟩ := search_reorders guestsAndTodos_reorders
  obtain ⟨p, hp⟩ := hplan
  obtain ⟨q, hq⟩ := hplans.mp ⟨p, hp⟩
  obtain ⟨hrecheck, hsearch⟩ := hsame p q hp hq
  exact ⟨⟨guestsAndTodos_reorders, hfound⟩, p, q, hp, hq, hrecheck,
    (hsearch _ _).symm.trans hfound⟩

end CalendarSearch
