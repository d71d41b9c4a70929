import CalendarSearch.Proofs.Acceptance
import CalendarSearch.Proofs.Answers

/-! # A node that must not be defined splits what is found

Where the tests are honoured and no container is asked for, a search finds what the filter means. A
component node and the same node with its is-not-defined flag turned round therefore share out all
resources in the scope between them, and two such alarm nodes what is found without either. It does
not matter which prop-filters the store could search by. -/

namespace CalendarSearch

/-! ### Lists that are shared out -/

/-- Each element of the third list comes from one of the first two, which keep their order. -/
inductive Merges {α : Type} : List α → List α → List α → Prop
  | nil : Merges [] [] []
  | left {xs ys zs : List α} (a : α) : Merges xs ys zs → Merges (a :: xs) ys (a :: zs)
  | right {xs ys zs : List α} (a : α) : Merges xs ys zs → Merges xs (a :: ys) (a :: zs)

/-- Two lists without a common element that make up a third, in its order. -/
structure Splits {α : Type} (whole xs ys : List α) : Prop where
  disjoint : ∀ a ∈ xs, a ∉ ys
  merges : Merges xs ys whole

theorem merges_filter {α : Type} (p : α → Bool) (as : List α) :
    Merges (as.filter p) (as.filter (!p ·)) as := by
  induction as with
  | nil => exact .nil
  | cons a as ih =>
    by_cases ha : p a = true
    · rw [List.filter_cons_of_pos ha, List.filter_cons_of_neg (by simp [ha])]
      exact .left a ih
    · rw [List.filter_cons_of_neg ha, List.filter_cons_of_pos (by simpa using ha)]
      exact .right a ih

theorem splits_filter {α : Type} (p : α → Bool) (as : List α) :
    Splits as (as.filter p) (as.filter (!p ·)) where
  disjoint a ha hn := by
    have hp : p a = true := (List.mem_filter.mp ha).2
    have hq : (!p a) = true := (List.mem_filter.mp hn).2
    simp [hp] at hq
  merges := merges_filter p as

/-! ### Nodes turned round -/

theorem Junction.joins_nil (test : Junction) : test.joins [] = true := by
  cases test <;> rfl

theorem Junction.joins_singleton (test : Junction) (b : Bool) : test.joins [b] = b := by
  cases test <;> simp [joins]

namespace CompFilter

/-- The node with its is-not-defined flag turned round. -/
def turned (f : CompFilter) : CompFilter := { f with isNotDefined := !f.isNotDefined }

/-- The node with these nodes inside it, and no others. -/
def around (f : CompFilter) (inner : List CompFilter) : CompFilter :=
  { f with compFilters := inner }

variable {x : FieldIndex} {f c a : CompFilter}

theorem Valid.around (h : f.Valid x) {inner : List CompFilter}
    (hinner : ∀ g ∈ inner, g.ValidComponent x) : (f.around inner).Valid x :=
  ⟨h.name, h.defined, h.range, hinner⟩

theorem ValidComponent.around (h : c.ValidComponent x) {inner : List CompFilter}
    (hinner : ∀ g ∈ inner, g.ValidAlarm x) : (c.around inner).ValidComponent x :=
  ⟨h.name, ⟨h.conditions.range, h.conditions.props⟩, hinner⟩

theorem ValidComponent.turned (h : c.ValidComponent x) : c.turned.ValidComponent x :=
  ⟨h.name, ⟨h.conditions.range, h.conditions.props⟩, h.alarms⟩

theorem ValidAlarm.turned (h : a.ValidAlarm x) : a.turned.ValidAlarm x :=
  ⟨h.name, ⟨h.conditions.range, h.conditions.props⟩, h.leaf⟩

theorem around_self {inner : List CompFilter} (h : f.compFilters = inner) : f.around inner = f := by
  cases f
  subst h
  rfl

theorem holdsOfCalendar_around (hrange : f.timeRange = none) (e : Component) :
    (f.around [c]).holdsOfCalendar x e = c.holdsOfComponent x e := by
  simp [holdsOfCalendar, around, hrange, rangeHolds, Junction.joins_singleton]

/-- A component node and its negation are opposites for every component. -/
theorem holdsOfComponent_turned (e : Component) :
    c.turned.holdsOfComponent x e = !c.holdsOfComponent x e :=
  Bool.bne_not _ _

/-- An alarm node and its negation are opposites, no alarm being needed for the negation. -/
theorem holdsOfAlarms_turned (owner : Component) :
    a.turned.holdsOfAlarms x owner = !a.holdsOfAlarms x owner :=
  Bool.bne_not _ _

/-- One alarm node is one more condition on the component. -/
theorem holdsOfComponent_around (hc : c.isNotDefined = false) (e : Component) :
    (c.around [a]).holdsOfComponent x e =
      (a.holdsOfAlarms x e && (c.around []).holdsOfComponent x e) := by
  simp only [holdsOfComponent, around, hc, Bool.bne_false, List.map_cons, List.map_nil,
    Junction.joins_singleton, Junction.joins_nil, Bool.and_true]
  rw [Bool.and_comm]

end CompFilter

/-! ### Searches -/

/-- Without a container, a search that honours the tests finds what the filter means. -/
theorem search_meaning {index : FieldIndex} {settings : Settings} {f : CompFilter}
    {rs : List Resource} {scope : Scope} (hmode : settings.mode = .honorTest)
    (hcontainer : settings.container = none) (hvalid : f.Valid index)
    (hscope : Snapshot.missing rs scope = none) :
    search (Snapshot.answer rs) index settings f scope = .ok
      ((rs.filter fun r => scope.admits r.collection).filter fun r =>
        f.holdsOfCalendar index r.component) := by
  obtain ⟨p, hp⟩ := (Planner.verdict_plan (x := settings.planner index)).exists_ok_iff.mpr hvalid
  have hon := Planner.honours_plan (x := settings.planner index) hmode hp
  rw [search_snapshot hp (hon.finds_everywhere hcontainer), hscope]
  rfl

/-- Turning the only component node of a calendar round splits the resources in the scope, and
turning the only alarm node of that component round splits what is found without it. -/
theorem notDefined_splits {index : FieldIndex} {settings : Settings} {f c : CompFilter} {p : Plan}
    {rs : List Resource} {scope : Scope} (hmode : settings.mode = .honorTest)
    (hcontainer : settings.container = none) (hrange : f.timeRange = none)
    (honly : f.compFilters = [c]) (hplan : (settings.planner index).plan f = .ok p)
    (hscope : Snapshot.missing rs scope = none) :
    (∃ found others,
      search (Snapshot.answer rs) index settings f scope = .ok found ∧
      search (Snapshot.answer rs) index settings (f.around [c.turned]) scope = .ok others ∧
      Splits (rs.filter fun r => scope.admits r.collection) found others) ∧
    ∀ a, c.isNotDefined = false → c.compFilters = [a] → ∃ whole found others,
      search (Snapshot.answer rs) index settings (f.around [c.around []]) scope = .ok whole ∧
      search (Snapshot.answer rs) index settings f scope = .ok found ∧
      search (Snapshot.answer rs) index settings (f.around [c.around [a.turned]]) scope =
        .ok others ∧
      Splits whole found others := by
  have hvalid : f.Valid index := Planner.verdict_plan.exists_ok_iff.mp ⟨p, hplan⟩
  have hc : c.ValidComponent index := hvalid.components c (by simp [honly])
  have hmeans (d : CompFilter) (hd : d.ValidComponent index) :
      search (Snapshot.answer rs) index settings (f.around [d]) scope = .ok
        ((rs.filter fun r => scope.admits r.collection).filter fun r =>
          d.holdsOfComponent index r.component) := by
    have hd' : (f.around [d]).Valid index := hvalid.around (List.forall_mem_singleton.mpr hd)
    simp only [search_meaning hmode hcontainer hd' hscope, CompFilter.holdsOfCalendar_around hrange]
  constructor
  · have hfound := hmeans c hc
    have hothers := hmeans c.turned hc.turned
    simp only [CompFilter.holdsOfComponent_turned] at hothers
    rw [CompFilter.around_self honly] at hfound
    exact ⟨_, _, hfound, hothers, splits_filter _ _⟩
  · intro a hdefined hinner
    have ha : a.ValidAlarm index := hc.alarms a (by simp [hinner])
    have hwhole := hmeans (c.around []) (hc.around (by simp))
    have hfound := hmeans (c.around [a]) (hc.around (List.forall_mem_singleton.mpr ha))
    have hothers := hmeans (c.around [a.turned])
      (hc.around (List.forall_mem_singleton.mpr ha.turned))
    simp only [CompFilter.holdsOfComponent_around hdefined, CompFilter.holdsOfAlarms_turned,
      ← List.filter_filter] at hfound hothers
    rw [CompFilter.around_self hinner, CompFilter.around_self honly] at hfound
    exact ⟨_, _, _, hwhole, hfound, hothers, splits_filter _ _⟩

/-- An alarm with a trigger, which is not indexed. -/
def triggeredAlarm : CompFilter where
  name := "VALARM"
  propFilters := [{ name := "TRIGGER" }]

/-- An event with a summary, which is indexed, or a comment, which is not, and with such an
alarm. -/
def notedEvent : CompFilter where
  name := "VEVENT"
  propFilters := [{ name := "SUMMARY" }, { name := "COMMENT" }]
  compFilters := [triggeredAlarm]

def notedEvents : CompFilter where
  name := "VCALENDAR"
  compFilters := [notedEvent]

theorem notDefined_splits_notedEvents :
    ((∃ p, (({} : Settings).planner .standard).plan notedEvents = .ok p) ∧
      Snapshot.missing [bareTodo, remindedEvent, silentEvent] { collections := ["/work/"] } =
        none) ∧
    Splits [bareTodo, remindedEvent, silentEvent] [remindedEvent] [bareTodo, silentEvent] ∧
    Splits [remindedEvent, silentEvent] [remindedEvent] [silentEvent] := by
  have hplan : ∃ p, (({} : Settings).planner .standard).plan notedEvents = .ok p := ⟨_, rfl⟩
  refine ⟨⟨hplan, rfl⟩, ?_⟩
  obtain ⟨p, hp⟩ := hplan
  have hscope : Snapshot.missing [bareTodo, remindedEvent, silentEvent]
      { collections := ["/work/"] } = none := rfl
  obtain ⟨⟨found, others, hfound, hothers, hsplits⟩, halarm⟩ :=
    notDefined_splits rfl rfl rfl rfl hp hscope
  obtain ⟨kept, found', others', hkept, hfound', hothers', hsplits'⟩ := halarm _ rfl rfl
  cases hfound
  cases hothers
  cases hkept
  cases hfound'
  cases hothers'
  exact ⟨hsplits, hsplits'⟩

end CalendarSearch
