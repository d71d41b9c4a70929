import CalendarSearch.Proofs.Nodes

/-! # What stands inside predicates

A property of predicates may hold everywhere in one: of the whole, and of all that stands inside it.
The builders keep such a property if the connectives have it by themselves. A plan is built of its
conditions and of a few tests of its own, so it has everywhere what all of these have. -/

namespace CalendarSearch

open Traversal

namespace Predicate

/-! ### Parts of predicates -/

/-- What stands directly inside a predicate. -/
@[simp] def parts : Predicate → List Predicate
  | and ps | or ps => ps
  | not p | someAlarm p => [p]
  | kind _ | occursIn _ | firesIn _ | property _ _ | propertyIn _ _ | propertyText _ _
  | param _ _ _ | paramText _ _ _ => []

/-- The first predicate stands somewhere inside the second, or is the whole of it. -/
inductive PartOf : Predicate → Predicate → Prop
  | whole (p : Predicate) : PartOf p p
  | inside {p q r : Predicate} : q ∈ r.parts → PartOf p q → PartOf p r

/-- The property holds of the predicate and of everything inside it. -/
def Everywhere (P : Predicate → Prop) (p : Predicate) : Prop := ∀ q, PartOf q p → P q

def EverywhereOptional (P : Predicate → Prop) (p : Option Predicate) : Prop :=
  ∀ q, p = some q → q.Everywhere P

/-- The connectives have the property by themselves, so that only tests may lack it. -/
structure OfTests (P : Predicate → Prop) : Prop where
  and : ∀ ps, P (.and ps)
  or : ∀ ps, P (.or ps)
  not : ∀ p, P (.not p)
  someAlarm : ∀ p, P (.someAlarm p)

variable {P : Predicate → Prop} {p q : Predicate} {ps : List Predicate}

/-- What holds everywhere holds of the predicate and everywhere in its parts. -/
theorem everywhere_iff : p.Everywhere P ↔ P p ∧ ∀ q ∈ p.parts, q.Everywhere P := by
  constructor
  · intro h
    exact ⟨h p (.whole p), fun q hq r hr => h r (.inside hq hr)⟩
  · rintro ⟨hp, hparts⟩ q hq
    cases hq with
    | whole => exact hp
    | inside hr hq => exact hparts _ hr q hq

/-- A predicate without parts. -/
theorem everywhere_leaf (hp : p.parts = []) : p.Everywhere P ↔ P p := by
  rw [everywhere_iff, hp]
  simp

@[simp] theorem everywhereOptional_none : EverywhereOptional P none := by
  simp [EverywhereOptional]

@[simp] theorem everywhereOptional_some : EverywhereOptional P (some p) ↔ p.Everywhere P := by
  simp [EverywhereOptional]

/-! ### The builders -/

namespace OfTests

variable (hP : OfTests P)

include hP

theorem everywhere_and : (Predicate.and ps).Everywhere P ↔ ∀ p ∈ ps, p.Everywhere P := by
  rw [everywhere_iff]
  simp [hP.and]

theorem everywhere_or : (Predicate.or ps).Everywhere P ↔ ∀ p ∈ ps, p.Everywhere P := by
  rw [everywhere_iff]
  simp [hP.or]

theorem everywhere_not : (Predicate.not p).Everywhere P ↔ p.Everywhere P := by
  rw [everywhere_iff]
  simp [hP.not]

theorem everywhere_someAlarm : (Predicate.someAlarm p).Everywhere P ↔ p.Everywhere P := by
  rw [everywhere_iff]
  simp [hP.someAlarm]

/-- Flattening a conjunction keeps what its parts are. -/
theorem everywhere_conjuncts : (∀ q ∈ p.conjuncts, q.Everywhere P) ↔ p.Everywhere P := by
  cases p <;> simp [conjuncts, hP.everywhere_and]

theorem everywhere_both : (p.both q).Everywhere P ↔ p.Everywhere P ∧ q.Everywhere P := by
  simp only [both, hP.everywhere_and, List.forall_mem_append, hP.everywhere_conjuncts]

/-- Negation adds at most one `not` around the predicate. -/
theorem everywhere_opposite : p.opposite.Everywhere P ↔ p.Everywhere P := by
  cases p <;> simp [opposite, hP.everywhere_not]

/-- The predicate of a node adds to its parts at most the conjunction or disjunction over them. -/
theorem everywhere_ofParts {all : Bool} (h : ∀ p ∈ ps, p.Everywhere P) :
    EverywhereOptional P (ofParts all ps) := by
  match ps with
  | [] => exact everywhereOptional_none
  | [p] => exact everywhereOptional_some.mpr (h p List.mem_cons_self)
  | p :: q :: ps =>
    cases all with
    | true => exact everywhereOptional_some.mpr (hP.everywhere_and.mpr h)
    | false => exact everywhereOptional_some.mpr (hP.everywhere_or.mpr h)

theorem everywhere_bothOptional {p q : Option Predicate} (hp : EverywhereOptional P p)
    (hq : EverywhereOptional P q) : EverywhereOptional P (bothOptional p q) := by
  cases p <;> cases q <;> simp_all [bothOptional, hP.everywhere_both]

theorem everywhere_conjoin {ps : List (Option Predicate)}
    (h : ∀ p ∈ ps, EverywhereOptional P p) : EverywhereOptional P (conjoin ps) := by
  -- the conjunction grows from the left, so the statement is about any predicate to begin with
  have grown (p : Option Predicate) (hp : EverywhereOptional P p) :
      EverywhereOptional P (ps.foldl bothOptional p) := by
    induction ps generalizing p with
    | nil => exact hp
    | cons q ps ih =>
      obtain ⟨hq, hps⟩ := List.forall_mem_cons.mp h
      exact ih hps _ (hP.everywhere_bothOptional hp hq)
  exact grown none everywhereOptional_none

theorem everywhere_disjoin {ps : List (Option Predicate)}
    (h : ∀ p ∈ ps, EverywhereOptional P p) : EverywhereOptional P (Relaxation.disjoin ps) := by
  by_cases hnone : none ∈ ps
  · rw [disjoin_of_none_mem hnone]
    exact everywhereOptional_none
  · obtain ⟨qs, rfl⟩ := exists_map_some hnone
    rw [disjoin_map_some]
    exact hP.everywhere_ofParts (by simpa using h)

end OfTests

end Predicate

open Predicate

/-! ### Relaxations -/

/-- What the full and the coarse predicate have everywhere. -/
structure Relaxation.Within (P Q : Predicate → Prop) (r : Relaxation) : Prop where
  full : EverywhereOptional P r.full
  coarse : EverywhereOptional Q r.coarse

namespace Relaxation

variable {P Q : Predicate → Prop} (hP : OfTests P) (hQ : OfTests Q)

theorem Within.ofPredicate {p : Predicate} (hp : p.Everywhere P) (hq : p.Everywhere Q) :
    (ofPredicate p).Within P Q where
  full := everywhereOptional_some.mpr hp
  coarse := everywhereOptional_some.mpr hq

include hP hQ

theorem Within.meet {parts : List Relaxation} (h : ∀ r ∈ parts, r.Within P Q) :
    (meet parts).Within P Q where
  full := hP.everywhere_conjoin (List.forall_mem_map.mpr fun r hr => (h r hr).full)
  coarse := hQ.everywhere_conjoin (List.forall_mem_map.mpr fun r hr => (h r hr).coarse)

theorem Within.join {parts : List Relaxation} (h : ∀ r ∈ parts, r.Within P Q) :
    (join parts).Within P Q where
  full := hP.everywhere_disjoin (List.forall_mem_map.mpr fun r hr => (h r hr).full)
  coarse := hQ.everywhere_disjoin (List.forall_mem_map.mpr fun r hr => (h r hr).coarse)

theorem Within.ofParts {all : Bool} {parts : List Relaxation} (h : ∀ r ∈ parts, r.Within P Q) :
    (ofParts all parts).Within P Q := by
  cases all with
  | true => exact Within.meet hP hQ h
  | false => exact Within.join hP hQ h

/-- A negation adds at most one `not` to either side; an inexact part then asks the store
nothing. -/
theorem Within.opposite {r : Relaxation} (h : r.Within P Q) : r.opposite.Within P Q := by
  obtain ⟨full, coarse, exact⟩ := r
  obtain ⟨hfull, hcoarse⟩ := h
  constructor
  · cases full <;> simp_all [Relaxation.opposite, hP.everywhere_opposite]
  · cases exact <;> cases coarse <;> simp_all [Relaxation.opposite, hQ.everywhere_opposite]

/-- Where nothing is left to ask of an alarm, the alarms themselves are asked for. -/
theorem Within.onOneAlarm {r : Relaxation} (hp : P hasAlarm) (hq : Q hasAlarm) (h : r.Within P Q) :
    r.onOneAlarm.Within P Q := by
  have asked {S : Predicate → Prop} (hS : OfTests S) (hs : S hasAlarm) {p : Option Predicate}
      (h : EverywhereOptional S p) : (onAlarm p).Everywhere S := by
    cases p with
    | none => exact (everywhere_leaf rfl).mpr hs
    | some p => exact hS.everywhere_someAlarm.mpr (everywhereOptional_some.mp h)
  exact ⟨everywhereOptional_some.mpr (asked hP hp h.full),
    everywhereOptional_some.mpr (asked hQ hq h.coarse)⟩

end Relaxation

namespace Planner

/-! ### What a planner builds predicates of -/

/-- What a planner builds predicates of has the property: the connectives, and every test that it
makes. Where the predicates are for the store, only tests of indexed fields need have it. -/
structure Grants (x : Planner) (P : Predicate → Prop) (forStore : Bool) : Prop where
  connectives : OfTests P
  kind : ∀ k, P (.kind k)
  hasAlarm : P Relaxation.hasAlarm
  occursIn : ∀ r range, x.readRange r = .ok range → P (.occursIn range)
  firesIn : ∀ r range, x.readRange r = .ok range → P (.firesIn range)
  property : ∀ id expected, (forStore = true → x.index.indexed id = true) →
    P (.property id expected)
  propertyIn : ∀ id r range, (forStore = true → x.index.indexed id = true) →
    x.readRange r = .ok range → P (.propertyIn id range)
  propertyText : ∀ id test, (forStore = true → x.index.indexed id = true) →
    P (.propertyText id test)
  param : ∀ id name expected, (forStore = true → x.index.indexed id = true) →
    (forStore = true → x.index.paramIndexed name = true) → P (.param id name expected)
  paramText : ∀ id name test, (forStore = true → x.index.indexed id = true) →
    (forStore = true → x.index.paramIndexed name = true) → P (.paramText id name test)

namespace Grants

variable {x : Planner} {P : Predicate → Prop} {forStore : Bool} (hx : x.Grants P forStore)

include hx

/-- A param-filter becomes one leaf, which the store is asked about only if its field is indexed. -/
theorem paramCondition {id : PropertyName} {f : ParamFilter} {k : Condition}
    (h : x.paramCondition id f = .ok k) (hid : forStore = true → x.index.indexed id = true)
    (hk : forStore = true → k.searchable = true) : k.predicate.Everywhere P := by
  obtain ⟨name, -, hform, hsearchable⟩ := paramCondition_eq_ok.mp h
  rw [← hsearchable] at hk
  rcases hform with ⟨-, hpredicate⟩ | ⟨text, test, -, -, -, hpredicate⟩
  · rw [← hpredicate]
    exact (everywhere_leaf rfl).mpr (hx.param id name _ hid hk)
  · rw [← hpredicate]
    exact (everywhere_leaf rfl).mpr (hx.paramText id name test hid hk)

theorem valueCondition {id : PropertyName} {f : PropFilter} {value : Option Predicate}
    (h : x.valueCondition id f = .ok value) (hid : forStore = true → x.index.indexed id = true) :
    EverywhereOptional P value := by
  rcases valueCondition_eq_ok.mp h with ⟨-, -, rfl⟩ | ⟨r, range, -, -, -, hrange, rfl⟩ |
    ⟨text, test, -, -, -, rfl⟩
  · exact everywhereOptional_none
  · exact everywhereOptional_some.mpr
      ((everywhere_leaf rfl).mpr (hx.propertyIn id r range hid hrange))
  · exact everywhereOptional_some.mpr ((everywhere_leaf rfl).mpr (hx.propertyText id test hid))

/-- A prop-filter becomes its presence, its value and its parameters, all over one property. -/
theorem propCondition {f : PropFilter} {k : Condition} (h : x.propCondition f = .ok k)
    (hk : forStore = true → k.searchable = true) : k.predicate.Everywhere P := by
  obtain ⟨-, id, value, params, -, hvalue, hparams, rfl⟩ := propCondition_eq_ok.mp h
  simp only [assembleCondition, Bool.and_eq_true, List.all_eq_true] at hk
  have hindexed : forStore = true → x.index.indexed id = true := fun hstore => (hk hstore).1
  have hread : ∀ k ∈ params, (forStore = true → k.searchable = true) →
      k.predicate.Everywhere P :=
    forall_mem_right hparams fun _ _ _ hk => hx.paramCondition hk hindexed
  have heach : ∀ q ∈ params.map Condition.predicate, q.Everywhere P :=
    List.forall_mem_map.mpr fun k hk' => hread k hk' fun hstore => (hk hstore).2 k hk'
  have hjoined : EverywhereOptional P (Predicate.bothOptional value
      (Predicate.ofParts (f.test = .all) (params.map Condition.predicate))) :=
    hx.connectives.everywhere_bothOptional (hx.valueCondition hvalue hindexed)
      (hx.connectives.everywhere_ofParts heach)
  rw [assembleCondition]
  cases hq : Predicate.bothOptional value
      (Predicate.ofParts (f.test = .all) (params.map Condition.predicate)) with
  | none => exact (everywhere_leaf rfl).mpr (hx.property id _ hindexed)
  | some q => exact hjoined q hq

end Grants

/-! ### Plans -/

theorem within_rangePart {x : Planner} {P Q : Predicate → Prop} {r : Option RangeText}
    {predicate : TimeRange → Predicate} {range : List Relaxation}
    (h : x.rangePart predicate r = .ok range)
    (hp : ∀ r range, x.readRange r = .ok range →
      (predicate range).Everywhere P ∧ (predicate range).Everywhere Q) :
    ∀ q ∈ range, q.Within P Q := by
  rcases rangePart_eq_ok.mp h with ⟨-, rfl⟩ | ⟨t, range, -, hrange, rfl⟩
  · simp
  · obtain ⟨hfull, hcoarse⟩ := hp t range hrange
    simpa using Relaxation.Within.ofPredicate hfull hcoarse

/-- What a planner builds full predicates of has the first property; what it builds the predicates
for the store of, the second. -/
structure Builds (x : Planner) (P Q : Predicate → Prop) : Prop where
  full : x.Grants P false
  coarse : x.Grants Q true

namespace Builds

variable {x : Planner} {P Q : Predicate → Prop} (hx : x.Builds P Q)

include hx

/-- The store's part of a node has only prop-filters it can search; the full part has them all. -/
theorem divide (mode : RecheckMode) (kind : ComponentKind) (test : Junction)
    {fs : List PropFilter} {cs : List (PropFilter × Condition)} (h : x.Reads fs cs) :
    (Planner.divide mode kind test cs).1.Within P Q := by
  have hfull : EverywhereOptional P (ofParts (test = .all) (cs.map (·.2.predicate))) := by
    refine hx.full.connectives.everywhere_ofParts (List.forall_mem_map.mpr fun k hk => ?_)
    exact hx.full.propCondition (h.read k hk) nofun
  have hsearched : ∀ q ∈ (cs.filter (·.2.searchable)).map (·.2.predicate), q.Everywhere Q := by
    refine List.forall_mem_map.mpr fun k hk => ?_
    obtain ⟨hk, hsearchable⟩ := List.mem_filter.mp hk
    exact hx.coarse.propCondition (h.read k hk) fun _ => hsearchable
  unfold Planner.divide
  dsimp only
  split
  · rename_i hrest
    have hself : cs.filter (·.2.searchable) = cs := List.filter_eq_self.mpr (by simpa using hrest)
    rw [hself] at hsearched
    exact ⟨hfull, hx.coarse.connectives.everywhere_ofParts hsearched⟩
  · cases mode <;> cases test
    · exact ⟨hfull, everywhereOptional_none⟩
    all_goals exact ⟨hfull, hx.coarse.connectives.everywhere_ofParts hsearched⟩

theorem undefine {r : Relaxation} (h : r.Within P Q) (isNotDefined : Bool) :
    (Planner.undefine isNotDefined r).Within P Q := by
  cases isNotDefined with
  | false => exact h
  | true => exact h.opposite hx.full.connectives hx.coarse.connectives

theorem inner {children : List NodePlan} (h : ∀ n ∈ children, n.relaxation.Within P Q)
    (test : Junction) : (Planner.inner test children).Within P Q :=
  .ofParts hx.full.connectives hx.coarse.connectives (List.forall_mem_map.mpr h)

theorem occursInPart {r : Option RangeText} {range : List Relaxation}
    (h : x.rangePart .occursIn r = .ok range) : ∀ q ∈ range, q.Within P Q :=
  within_rangePart h fun _ _ hr => ⟨(everywhere_leaf rfl).mpr (hx.full.occursIn _ _ hr),
    (everywhere_leaf rfl).mpr (hx.coarse.occursIn _ _ hr)⟩

theorem alarmNode {f : CompFilter} {n : NodePlan} (h : x.alarmNode f = .ok n) :
    n.relaxation.Within P Q := by
  obtain ⟨-, -, range, cs, hrange, hcs, rfl⟩ := alarmNode_eq_ok.mp h
  have hfires : ∀ q ∈ range, q.Within P Q :=
    within_rangePart hrange fun _ _ hr => ⟨(everywhere_leaf rfl).mpr (hx.full.firesIn _ _ hr),
      (everywhere_leaf rfl).mpr (hx.coarse.firesIn _ _ hr)⟩
  refine hx.undefine (.onOneAlarm hx.full.connectives hx.coarse.connectives hx.full.hasAlarm
    hx.coarse.hasAlarm (.meet hx.full.connectives hx.coarse.connectives ?_)) _
  exact List.forall_mem_append.mpr ⟨hfires, List.forall_mem_singleton.mpr (hx.divide _ _ _ hcs)⟩

/-- A component node joins its own conditions to what its alarm nodes ask. -/
theorem componentNode {f : CompFilter} {n : NodePlan} (h : x.componentNode f = .ok n) :
    n.relaxation.Within P Q := by
  obtain ⟨kind, range, cs, alarms, -, hrange, hcs, halarms, rfl⟩ := componentNode_eq_ok.mp h
  have hkind : (Relaxation.ofPredicate (.kind kind)).Within P Q :=
    .ofPredicate ((everywhere_leaf rfl).mpr (hx.full.kind kind))
      ((everywhere_leaf rfl).mpr (hx.coarse.kind kind))
  have hinner : ∀ n ∈ alarms, n.relaxation.Within P Q :=
    forall_mem_right halarms fun _ _ _ hn => hx.alarmNode hn
  refine hx.undefine (.meet hx.full.connectives hx.coarse.connectives ?_) _
  exact List.forall_mem_append.mpr ⟨List.forall_mem_cons.mpr ⟨hkind, hx.occursInPart hrange⟩,
    List.forall_mem_cons.mpr ⟨hx.divide _ _ _ hcs,
      List.forall_mem_singleton.mpr (hx.inner hinner f.test)⟩⟩

theorem calendarNode {f : CompFilter} {n : NodePlan} (h : x.calendarNode f = .ok n) :
    n.relaxation.Within P Q := by
  obtain ⟨-, -, range, components, hrange, hcomponents, rfl⟩ := calendarNode_eq_ok.mp h
  have hinner : ∀ n ∈ components, n.relaxation.Within P Q :=
    forall_mem_right hcomponents fun _ _ _ hn => hx.componentNode hn
  refine .meet hx.full.connectives hx.coarse.connectives ?_
  exact List.forall_mem_append.mpr
    ⟨hx.occursInPart hrange, List.forall_mem_singleton.mpr (hx.inner hinner f.test)⟩

end Builds

end Planner

end CalendarSearch
