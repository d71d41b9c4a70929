import CalendarSearch.Proofs.FieldWidths
import CalendarSearch.Proofs.Ranges

/-! # Searches do not depend on the zone

A planner puts the zone of the settings into every range that it reads, and into nothing else. What
it makes of a filter without a zone is therefore what it makes of it with one, the zones erased:
each function of the planner commutes with the erasure, and so do the builders of predicates. In an
evaluation the zones have no part, so that whatever a search finds, it finds under any zone. -/

namespace CalendarSearch

open Traversal

/-! ### Erasing zones -/

def TimeRange.unzoned (r : TimeRange) : TimeRange := { r with zone := none }

namespace Predicate

mutual

/-- The predicate without the zones of its ranges. -/
def unzoned : Predicate → Predicate
  | and parts => and (unzonedParts parts)
  | or parts => or (unzonedParts parts)
  | not part => not (unzoned part)
  | kind k => kind k
  | occursIn range => occursIn range.unzoned
  | someAlarm part => someAlarm (unzoned part)
  | firesIn range => firesIn range.unzoned
  | property id expected => property id expected
  | propertyIn id range => propertyIn id range.unzoned
  | propertyText id test => propertyText id test
  | param id name expected => param id name expected
  | paramText id name test => paramText id name test

def unzonedParts : List Predicate → List Predicate
  | [] => []
  | p :: ps => unzoned p :: unzonedParts ps

end

theorem unzonedParts_eq_map (ps : List Predicate) : unzonedParts ps = ps.map unzoned := by
  induction ps with
  | nil => rfl
  | cons p ps ih => rw [unzonedParts, ih, List.map_cons]

/-! ### The builders of predicates -/

theorem conjuncts_unzoned (p : Predicate) : p.unzoned.conjuncts = p.conjuncts.map unzoned := by
  cases p <;> simp [unzoned, conjuncts, unzonedParts_eq_map]

theorem both_unzoned (p q : Predicate) : (p.both q).unzoned = p.unzoned.both q.unzoned := by
  rw [both, both, unzoned, unzonedParts_eq_map, List.map_append, conjuncts_unzoned,
    conjuncts_unzoned]

theorem opposite_unzoned (p : Predicate) : p.opposite.unzoned = p.unzoned.opposite := by
  cases p <;> rfl

/-- The predicate of a node is built the same from parts without zones. -/
theorem ofParts_unzoned (all : Bool) (ps : List Predicate) :
    (ofParts all ps).map unzoned = ofParts all (ps.map unzoned) := by
  match ps with
  | [] => rfl
  | [p] => rfl
  | p :: q :: ps =>
    cases all <;> simp [ofParts, unzoned, unzonedParts_eq_map]

theorem bothOptional_unzoned (p q : Option Predicate) :
    (bothOptional p q).map unzoned = bothOptional (p.map unzoned) (q.map unzoned) := by
  cases p <;> cases q <;> simp [bothOptional, both_unzoned]

theorem conjoin_unzoned (ps : List (Option Predicate)) :
    (conjoin ps).map unzoned = conjoin (ps.map (Option.map unzoned)) := by
  -- the conjunction grows from the left, so the statement is about any predicate to begin with
  have grown (p : Option Predicate) : (ps.foldl bothOptional p).map unzoned =
      (ps.map (Option.map unzoned)).foldl bothOptional (p.map unzoned) := by
    induction ps generalizing p with
    | nil => rfl
    | cons q ps ih => rw [List.foldl_cons, ih, bothOptional_unzoned, List.map_cons, List.foldl_cons]
  exact grown none

theorem disjoin_unzoned (ps : List (Option Predicate)) :
    (Relaxation.disjoin ps).map unzoned = Relaxation.disjoin (ps.map (Option.map unzoned)) := by
  by_cases h : none ∈ ps
  · have h' : none ∈ ps.map (Option.map unzoned) := List.mem_map.mpr ⟨none, h, rfl⟩
    rw [disjoin_of_none_mem h, disjoin_of_none_mem h', Option.map_none]
  · obtain ⟨qs, rfl⟩ := exists_map_some h
    have hqs : (qs.map some).map (Option.map unzoned) = (qs.map unzoned).map some := by simp
    rw [hqs, disjoin_map_some, disjoin_map_some, ofParts_unzoned]

/-! ### What is evaluated -/

mutual

/-- No leaf looks at the zone of its range, so a predicate means the same without it. -/
theorem eval_unzoned : ∀ (p : Predicate) (owner : Option Component) (c : Component),
    p.unzoned.eval owner c = p.eval owner c
  | and ps, owner, c => by rw [unzoned, eval, eval, evalAll_unzoned ps]
  | or ps, owner, c => by rw [unzoned, eval, eval, evalAny_unzoned ps]
  | not p, owner, c => by rw [unzoned, eval, eval, eval_unzoned p]
  | someAlarm p, owner, c => by
    rw [unzoned, eval, eval]
    exact congrArg c.alarms.any (funext fun alarm => eval_unzoned p (some c) alarm)
  | occursIn range, owner, c => zoneFree_occursIn c range none
  | firesIn range, owner, c => by
    rw [unzoned, eval, eval]
    exact congrArg owner.any (funext fun owner => zoneFree_firesIn c owner range none)
  | propertyIn id range, owner, c => zoneFree_propertyIn c id range none
  | kind _, _, _ | property _ _, _, _ | propertyText _ _, _, _ | param _ _ _, _, _
  | paramText _ _ _, _, _ => rfl

theorem evalAll_unzoned : ∀ (ps : List Predicate) (owner : Option Component) (c : Component),
    evalAll owner c (unzonedParts ps) = evalAll owner c ps
  | [], _, _ => rfl
  | p :: ps, owner, c => by
    rw [unzonedParts, evalAll, evalAll, eval_unzoned p, evalAll_unzoned ps]

theorem evalAny_unzoned : ∀ (ps : List Predicate) (owner : Option Component) (c : Component),
    evalAny owner c (unzonedParts ps) = evalAny owner c ps
  | [], _, _ => rfl
  | p :: ps, owner, c => by
    rw [unzonedParts, evalAny, evalAny, eval_unzoned p, evalAny_unzoned ps]

end

theorem selects_unzoned (p : Predicate) (r : Resource) : p.unzoned.selects r = p.selects r :=
  eval_unzoned p none r.component

theorem all_selects_unzoned (p : Option Predicate) (r : Resource) :
    (p.map unzoned).all (·.selects r) = p.all (·.selects r) := by
  cases p with
  | none => rfl
  | some p => exact p.selects_unzoned r

end Predicate

/-! ### Relaxations -/

def Relaxation.unzoned (r : Relaxation) : Relaxation where
  full := r.full.map Predicate.unzoned
  coarse := r.coarse.map Predicate.unzoned
  exact := r.exact

namespace Relaxation

theorem ofPredicate_unzoned (p : Predicate) : (ofPredicate p).unzoned = ofPredicate p.unzoned := rfl

/-- The conjunction of relaxations looks at which parts are there, never at what they say. -/
theorem meet_unzoned (parts : List Relaxation) :
    (meet parts).unzoned = meet (parts.map unzoned) := by
  simp only [meet, unzoned, Predicate.conjoin_unzoned, List.map_map, List.all_map]
  rfl

theorem join_unzoned (parts : List Relaxation) :
    (join parts).unzoned = join (parts.map unzoned) := by
  simp only [join, unzoned, Predicate.disjoin_unzoned, List.map_map, List.all_map]
  rfl

theorem ofParts_unzoned (all : Bool) (parts : List Relaxation) :
    (ofParts all parts).unzoned = ofParts all (parts.map unzoned) := by
  cases all with
  | true => exact meet_unzoned parts
  | false => exact join_unzoned parts

theorem opposite_unzoned (r : Relaxation) : r.opposite.unzoned = r.unzoned.opposite := by
  have hopposite (p : Option Predicate) : (p.map Predicate.opposite).map Predicate.unzoned =
      (p.map Predicate.unzoned).map Predicate.opposite := by
    cases p with
    | none => rfl
    | some p => exact congrArg some p.opposite_unzoned
  cases he : r.exact <;> simp [opposite, unzoned, he, hopposite]

theorem onAlarm_unzoned (p : Option Predicate) :
    (onAlarm p).unzoned = onAlarm (p.map Predicate.unzoned) := by
  cases p <;> rfl

theorem onOneAlarm_unzoned (r : Relaxation) : r.onOneAlarm.unzoned = r.unzoned.onOneAlarm := by
  simp [onOneAlarm, unzoned, onAlarm_unzoned]

end Relaxation

/-! ### Conditions and nodes -/

def Condition.unzoned (k : Condition) : Condition := { k with predicate := k.predicate.unzoned }

def NodePlan.unzoned (n : NodePlan) : NodePlan := { n with relaxation := n.relaxation.unzoned }

/-- The plan without the zones of its two predicates. What it defers has none. -/
def Plan.unzoned (p : Plan) : Plan :=
  { p with root := p.root.map Predicate.unzoned, residual := p.residual.map Predicate.unzoned }

namespace Plan

theorem addDeferral_unzoned (p : Plan) (d : Deferral) :
    (p.addDeferral d).unzoned = p.unzoned.addDeferral d := by
  unfold addDeferral
  split
  · rfl
  · rfl

theorem foldl_addDeferral_unzoned (ds : List Deferral) (p : Plan) :
    (ds.foldl addDeferral p).unzoned = ds.foldl addDeferral p.unzoned := by
  induction ds generalizing p with
  | nil => rfl
  | cons d ds ih => rw [List.foldl_cons, List.foldl_cons, ih, addDeferral_unzoned]

end Plan

namespace Planner

def unzonedPair (k : PropFilter × Condition) : PropFilter × Condition := (k.1, k.2.unzoned)

/-- Which prop-filters are left over is decided by their fields, so the deferrals stay as
they are. -/
theorem divide_unzoned (mode : RecheckMode) (kind : ComponentKind) (test : Junction)
    (cs : List (PropFilter × Condition)) :
    divide mode kind test (cs.map unzonedPair) =
      ((divide mode kind test cs).1.unzoned, (divide mode kind test cs).2) := by
  have hpredicates (ks : List (PropFilter × Condition)) : (ks.map unzonedPair).map
      (·.2.predicate) = (ks.map (·.2.predicate)).map Predicate.unzoned := by
    simp only [List.map_map]
    rfl
  have hfilters (ks : List (PropFilter × Condition)) :
      (ks.map unzonedPair).map (·.1) = ks.map (·.1) := by
    simp only [List.map_map]
    rfl
  have hsearchable : (cs.map unzonedPair).filter (·.2.searchable) =
      (cs.filter (·.2.searchable)).map unzonedPair := List.filter_map
  have hrest : (cs.map unzonedPair).filter (!·.2.searchable) =
      (cs.filter (!·.2.searchable)).map unzonedPair := List.filter_map
  simp only [divide, hsearchable, hrest, hpredicates, hfilters]
  split
  · simp only [Relaxation.unzoned, Predicate.ofParts_unzoned]
  · cases mode <;> cases test <;> simp only [Relaxation.unzoned, Predicate.ofParts_unzoned,
      Option.map_none]

theorem undefine_unzoned (isNotDefined : Bool) (r : Relaxation) :
    undefine isNotDefined r.unzoned = (undefine isNotDefined r).unzoned := by
  cases isNotDefined with
  | false => rfl
  | true => exact r.opposite_unzoned.symm

theorem inner_unzoned (test : Junction) (children : List NodePlan) :
    inner test (children.map NodePlan.unzoned) = (inner test children).unzoned := by
  rw [inner, inner, Relaxation.ofParts_unzoned, List.map_map, List.map_map]
  rfl

/-- What nodes have besides their relaxations stays the same. -/
theorem flatMap_unzoned {α : Type} {g : NodePlan → List α} (hg : ∀ n, g n.unzoned = g n)
    (children : List NodePlan) :
    (children.map NodePlan.unzoned).flatMap g = children.flatMap g := by
  simp only [List.flatMap_map, hg]

/-! ### The planner -/

/-- The planner with no zone to put into its ranges. -/
def unzoned (x : Planner) : Planner := { x with zone := none }

variable {x : Planner}

/-- The zone of the planner ends up in the range it reads, and nowhere else. -/
theorem readRange_unzoned (r : RangeText) :
    x.unzoned.readRange r = TimeRange.unzoned <$> x.readRange r := by
  unfold readRange
  cases TimeRange.parse r.start r.stop with
  | error e => rfl
  | ok range => rfl

/-- A part made of a range differs by the zone of that range. -/
theorem rangePart_unzoned {predicate : TimeRange → Predicate}
    (hpredicate : ∀ range, predicate range.unzoned = (predicate range).unzoned)
    (r : Option RangeText) :
    x.unzoned.rangePart predicate r =
      List.map Relaxation.unzoned <$> x.rangePart predicate r := by
  cases r with
  | none => rfl
  | some r =>
    rw [rangePart, rangePart, readRange_unzoned]
    refine bind_mapped fun range => ?_
    rw [hpredicate]
    rfl

theorem paramCondition_unzoned (id : PropertyName) (f : ParamFilter) :
    x.unzoned.paramCondition id f = Condition.unzoned <$> x.paramCondition id f := by
  have hindex : x.unzoned.index = x.index := rfl
  unfold paramCondition
  rw [hindex]
  split
  · rename_i param _
    cases f.textMatch with
    | none => rfl
    | some text =>
      dsimp only
      refine check_mapped ?_
      cases textTest text with
      | error e => rfl
      | ok test => rfl
  · rfl

theorem valueCondition_unzoned (id : PropertyName) (f : PropFilter) :
    x.unzoned.valueCondition id f =
      Option.map Predicate.unzoned <$> x.valueCondition id f := by
  unfold valueCondition
  split
  · rfl
  · split
    · rw [readRange_unzoned]
      exact bind_mapped fun range => rfl
    · rfl
  · cases textTest _ with
    | error e => rfl
    | ok test => rfl
  · rfl

/-- A prop-filter has a zone in it at most once, in its time range. -/
theorem propCondition_unzoned (f : PropFilter) :
    x.unzoned.propCondition f = Condition.unzoned <$> x.propCondition f := by
  have hindex : x.unzoned.index = x.index := rfl
  unfold propCondition
  rw [hindex]
  split
  · rename_i id _
    refine check_mapped ?_
    rw [valueCondition_unzoned]
    refine bind_mapped fun value => ?_
    rw [mapM_mapped fun g _ => paramCondition_unzoned id g]
    refine bind_mapped fun params => ?_
    have hpredicates : (params.map Condition.unzoned).map Condition.predicate =
        (params.map Condition.predicate).map Predicate.unzoned := by
      simp only [List.map_map]
      rfl
    have hsearchable : (params.map Condition.unzoned).all Condition.searchable =
        params.all Condition.searchable := List.all_map
    have hgetD (p : Option Predicate) : (p.map Predicate.unzoned).getD
        (.property id !f.isNotDefined) = (p.getD (.property id !f.isNotDefined)).unzoned := by
      cases p <;> rfl
    dsimp only
    rw [hpredicates, hsearchable, ← Predicate.ofParts_unzoned, ← Predicate.bothOptional_unzoned,
      hgetD]
    rfl
  · rfl

theorem propConditions_unzoned (kind : ComponentKind) (test : Junction) (fs : List PropFilter) :
    x.unzoned.propConditions kind test fs =
      (fun r => (r.1.unzoned, r.2)) <$> x.propConditions kind test fs := by
  have hpair (f : PropFilter) :
      (do return (f, ← x.unzoned.propCondition f) : Except FilterError _) =
        unzonedPair <$> (do return (f, ← x.propCondition f)) := by
    rw [propCondition_unzoned]
    exact bind_mapped fun k => rfl
  unfold propConditions
  rw [mapM_mapped fun f _ => hpair f]
  refine bind_mapped fun cs => ?_
  rw [divide_unzoned]
  rfl

theorem alarmNode_unzoned (f : CompFilter) :
    x.unzoned.alarmNode f = NodePlan.unzoned <$> x.alarmNode f := by
  unfold alarmNode
  refine check_mapped ?_
  split
  · cases f.isNotDefined <;> rfl
  · rw [rangePart_unzoned fun _ => rfl]
    refine bind_mapped fun range => ?_
    rw [propConditions_unzoned]
    refine bind_mapped fun props => ?_
    refine check_mapped ?_
    have hparts : range.map Relaxation.unzoned ++ [props.1.unzoned] =
        (range ++ [props.1]).map Relaxation.unzoned := by simp
    dsimp only
    rw [hparts, ← Relaxation.meet_unzoned, ← Relaxation.onOneAlarm_unzoned, undefine_unzoned]
    rfl

theorem componentNode_unzoned (f : CompFilter) :
    x.unzoned.componentNode f = NodePlan.unzoned <$> x.componentNode f := by
  unfold componentNode
  split
  · rename_i kind _
    split
    · cases f.isNotDefined <;> rfl
    · rw [rangePart_unzoned fun _ => rfl]
      refine bind_mapped fun range => ?_
      rw [propConditions_unzoned]
      refine bind_mapped fun props => ?_
      rw [mapM_mapped fun g _ => alarmNode_unzoned g]
      refine bind_mapped fun alarms => ?_
      have hparts : .ofPredicate (.kind kind) :: range.map Relaxation.unzoned ++
            [props.1.unzoned, (inner f.test alarms).unzoned] =
          (.ofPredicate (.kind kind) :: range ++ [props.1, inner f.test alarms]).map
            Relaxation.unzoned := by
        simp [Relaxation.ofPredicate_unzoned, Predicate.unzoned]
      dsimp only
      rw [inner_unzoned, hparts, ← Relaxation.meet_unzoned, undefine_unzoned,
        flatMap_unzoned fun _ => rfl, flatMap_unzoned fun _ => rfl]
      rfl
  · rfl

theorem calendarNode_unzoned (f : CompFilter) :
    x.unzoned.calendarNode f = NodePlan.unzoned <$> x.calendarNode f := by
  unfold calendarNode
  refine check_mapped (check_mapped ?_)
  split
  · rfl
  · rw [rangePart_unzoned fun _ => rfl]
    refine bind_mapped fun range => ?_
    rw [mapM_mapped fun g _ => componentNode_unzoned g]
    refine bind_mapped fun components => ?_
    have hparts : range.map Relaxation.unzoned ++ [(inner f.test components).unzoned] =
        (range ++ [inner f.test components]).map Relaxation.unzoned := by simp
    rw [inner_unzoned, hparts, ← Relaxation.meet_unzoned, flatMap_unzoned fun _ => rfl,
      flatMap_unzoned fun _ => rfl]
    rfl

/-- Planning without a zone gives the plan with its zones taken away, or the same error. -/
theorem plan_unzoned (f : CompFilter) : x.unzoned.plan f = Plan.unzoned <$> x.plan f := by
  unfold plan
  rw [calendarNode_unzoned]
  refine bind_mapped fun node => ?_
  have hresidual : (if node.relaxation.exact then none else node.relaxation.full).map
      Predicate.unzoned = if node.relaxation.exact then none
        else node.relaxation.full.map Predicate.unzoned := by
    cases node.relaxation.exact <;> rfl
  -- the deferrals are put into a plan that differs only in its two predicates
  show Except.ok (node.deferred.foldl Plan.addDeferral _) =
    Except.ok (node.deferred.foldl Plan.addDeferral _).unzoned
  rw [Plan.foldl_addDeferral_unzoned, Plan.unzoned, hresidual]
  rfl

end Planner

/-! ### The second check -/

def Settings.unzoned (s : Settings) : Settings := { s with floatingZone := none }

namespace Plan

/-- What was left over is compiled again when results are refined, zones included. -/
theorem deferredPredicate_unzoned (p : Plan) (x : Planner) (kind : ComponentKind) :
    p.unzoned.deferredPredicate x.unzoned kind =
      Option.map Predicate.unzoned <$> p.deferredPredicate x kind := by
  have hpredicate (f : PropFilter) :
      (do return (← x.unzoned.propCondition f).predicate : Except FilterError _) =
        Predicate.unzoned <$> (do return (← x.propCondition f).predicate) := by
    rw [Planner.propCondition_unzoned]
    exact bind_mapped fun k => rfl
  unfold deferredPredicate
  dsimp only
  rw [mapM_mapped fun f _ => hpredicate f]
  refine bind_mapped fun predicates => ?_
  rw [← Predicate.ofParts_unzoned]
  rfl

def unzonedEntry (e : ComponentKind × Predicate) : ComponentKind × Predicate := (e.1, e.2.unzoned)

theorem deferredPredicates_unzoned (p : Plan) (x : Planner) :
    p.unzoned.deferredPredicates x.unzoned =
      List.map unzonedEntry <$> p.deferredPredicates x := by
  have hpair (kind : ComponentKind) :
      (do return (kind, ← p.unzoned.deferredPredicate x.unzoned kind) : Except FilterError _) =
        (fun e => (e.1, e.2.map Predicate.unzoned)) <$>
          (do return (kind, ← p.deferredPredicate x kind)) := by
    rw [deferredPredicate_unzoned]
    exact bind_mapped fun predicate => rfl
  unfold deferredPredicates
  rw [mapM_mapped fun kind _ => hpair kind]
  refine bind_mapped fun found => ?_
  refine congrArg Except.ok ?_
  rw [List.filterMap_map, List.map_filterMap]
  refine List.filterMap_congr fun e _ => ?_
  obtain ⟨kind, predicate⟩ := e
  cases predicate <;> rfl

theorem lookup_unzoned (es : List (ComponentKind × Predicate)) (kind : ComponentKind) :
    (es.map unzonedEntry).lookup kind = (es.lookup kind).map Predicate.unzoned := by
  induction es with
  | nil => rfl
  | cons e es ih =>
    obtain ⟨k, p⟩ := e
    by_cases hk : kind = k
    · simp [unzonedEntry, hk]
    · simpa [unzonedEntry, List.lookup_cons, beq_false_of_ne hk] using ih

theorem passes_unzoned (es : List (ComponentKind × Predicate)) (r : Resource) :
    passes (es.map unzonedEntry) r = passes es r := by
  have halarm (p : Option Predicate) :
      (p.map Predicate.unzoned).all (fun p => (Predicate.someAlarm p).selects r) =
        p.all fun p => (Predicate.someAlarm p).selects r := by
    cases p with
    | none => rfl
    | some p => exact (Predicate.someAlarm p).selects_unzoned r
  unfold passes
  rw [lookup_unzoned, lookup_unzoned]
  refine congrArg₂ and ?_ ?_
  · split
    · rfl
    · exact Predicate.all_selects_unzoned _ r
  · split
    · rfl
    · exact halarm _

/-- What the two checks keep is the same. -/
theorem check_unzoned (p : Plan) (x : Planner) : p.unzoned.check x.unzoned = p.check x := by
  unfold check
  have hmode : p.unzoned.mode = p.mode := rfl
  rw [hmode]
  cases p.mode with
  | honorTest =>
    refine congrArg Except.ok (funext fun r => ?_)
    exact Predicate.all_selects_unzoned p.residual r
  | legacyAnyOf =>
    dsimp only
    rw [deferredPredicates_unzoned]
    cases p.deferredPredicates x with
    | error e => rfl
    | ok es => exact congrArg Except.ok (funext fun r => passes_unzoned es r)

/-- The zones of the plan and of the settings make no difference to what refining keeps. -/
theorem refine_unzoned (p : Plan) (index : FieldIndex) (settings : Settings)
    (found : List Resource) :
    p.unzoned.refine index settings.unzoned found = p.refine index settings found := by
  have hplanner : settings.unzoned.planner index = (settings.planner index).unzoned := rfl
  unfold refine
  rw [hplanner, check_unzoned]
  rfl

end Plan

/-! ### Whole searches -/

/-- The store does not look at the zones of a predicate. -/
def Store.IgnoresZones (store : Store) : Prop :=
  ∀ p scope detail, store (p.map Predicate.unzoned) scope detail = store p scope detail

/-- A snapshot evaluates the predicate it is asked, so it ignores zones. -/
theorem Snapshot.ignoresZones_answer (rs : List Resource) :
    Store.IgnoresZones (Snapshot.answer rs) := by
  intro p scope detail
  simp only [Snapshot.answer, Predicate.all_selects_unzoned]

/-- For a store that ignores zones the whole search is the same without one, errors included. -/
theorem search_unzoned {store : Store} (hstore : store.IgnoresZones) (index : FieldIndex)
    (settings : Settings) (f : CompFilter) (scope : Scope) :
    search store index settings.unzoned f scope = search store index settings f scope := by
  have hplan : (settings.unzoned.planner index).plan f =
      Plan.unzoned <$> (settings.planner index).plan f :=
    Planner.plan_unzoned (x := settings.planner index) f
  unfold search
  rw [hplan]
  cases (settings.planner index).plan f with
  | error e => rfl
  | ok p =>
    have hroot : store p.unzoned.root scope .full = store p.root scope .full :=
      hstore p.root scope .full
    simp only [Functor.map, Except.map, hroot, Plan.refine_unzoned]

/-! ### The ranges of a plan -/

/-- The range has the zone and a bound, and if it has two they are in order. -/
structure TimeRange.Tagged (zone : Option String) (r : TimeRange) : Prop where
  zone : r.zone = zone
  bounded : r.start.isSome = true ∨ r.stop.isSome = true
  ordered : ∀ s e, r.start = some s → r.stop = some e → s < e

/-- A parsed range has a bound, and its bounds in order, whatever zone is written on it. -/
theorem TimeRange.tagged_parse {start stop : Option String} {r : TimeRange}
    (h : parse start stop = .ok r) (zone : Option String) : { r with zone }.Tagged zone := by
  simp only [parse, bind_eq_ok] at h
  obtain ⟨first, -, last, -, h⟩ := h
  obtain ⟨hbounded, hordered, rfl⟩ := ofBounds_eq_ok.mp h
  exact ⟨rfl, hbounded, hordered⟩

theorem Planner.Gives.tagged {x : Planner} {range : TimeRange} (h : x.Gives range) :
    range.Tagged x.zone := by
  obtain ⟨r, h⟩ := h
  simp only [readRange, bind_eq_ok, pure_eq_ok] at h
  obtain ⟨base, hbase, rfl⟩ := h
  exact TimeRange.tagged_parse hbase x.zone

/-- Under two zones a filter is refused with the same error, or planned the same but for the zones
in the ranges. The ranges of the plan, and of what is read again for the second check, all have the
zone that they were read under and one bound at least, and their start is before their end. A search
finds the same under both, in either mode, of a snapshot as of any store that does not look at the
zones. -/
theorem search_underAnyZone (index : FieldIndex) (f : CompFilter) :
    (∀ mode zone zone',
      Together (fun p q : Plan => p.unzoned = q.unzoned)
        (({ index, mode, zone } : Planner).plan f)
        (({ index, mode, zone := zone' } : Planner).plan f)) ∧
    (∀ mode zone plan p, ({ index, mode, zone } : Planner).plan f = .ok plan →
      plan.Evaluates { index, mode, zone } p → p.RangesAre (TimeRange.Tagged zone)) ∧
    (∀ rs, Store.IgnoresZones (Snapshot.answer rs)) ∧
    ∀ store : Store, store.IgnoresZones → ∀ (settings : Settings) zone zone' scope,
      search store index { settings with floatingZone := zone } f scope =
        search store index { settings with floatingZone := zone' } f scope := by
  refine ⟨?plans, ?ranges, Snapshot.ignoresZones_answer, ?searches⟩
  case plans =>
    intro mode zone zone'
    have hplan := Planner.plan_unzoned (x := { index, mode, zone }) f
    have hplan' := Planner.plan_unzoned (x := { index, mode, zone := zone' }) f
    exact .of_map_eq (hplan.symm.trans hplan')
  case ranges =>
    intro mode zone plan p hplan hp
    exact Predicate.rangesAre_imp (fun _ => Planner.Gives.tagged) (Plan.ranges_evaluated hplan hp)
  case searches =>
    intro store hstore settings zone zone' scope
    have hsearch := search_unzoned hstore index { settings with floatingZone := zone } f scope
    have hsearch' := search_unzoned hstore index { settings with floatingZone := zone' } f scope
    exact hsearch.symm.trans hsearch'

def januaryNotes : CompFilter where
  name := "VCALENDAR"
  compFilters := [{
    name := "VEVENT"
    timeRange := some { start := some "20240101T000000Z", stop := some "20240201T000000Z" }
    propFilters := [{ name := "COMMENT" }] }]

def january : TimeRange where
  start := some ⟨1704067200, false⟩
  stop := some ⟨1706745600, false⟩
  zone := some "Europe/Paris"

/-- The legacy plan for them under the zone of Paris: comments are not indexed. -/
def januaryPlan : Plan where
  root := some (.and [.kind .event, .occursIn january])
  recheck := true
  deferred := [⟨.event, .any, [{ name := "COMMENT" }]⟩]
  named := [.event]
  mode := .legacyAnyOf

def januaryEvents : List Resource := [
  { href := "/work/1.ics"
    collection := "/work/"
    component := {
      kind := .event
      properties := [
        { id := .dtstart, value := "20240115T090000" }, { id := .comment, value := "room 4" }] } },
  { href := "/work/2.ics"
    collection := "/work/"
    component := { kind := .event, properties := [{ id := .dtstart, value := "20240116" }] } }]

theorem search_underAnyZone_januaryNotes :
    (({ index := .standard, mode := .legacyAnyOf, zone := some "Europe/Paris" } : Planner).plan
        januaryNotes = .ok januaryPlan ∧
      januaryPlan.root = some (.and [.kind .event, .occursIn january]) ∧
      Store.IgnoresZones (Snapshot.answer januaryEvents)) ∧
    Predicate.RangesAre (TimeRange.Tagged (some "Europe/Paris"))
      (.and [.kind .event, .occursIn january]) ∧
    (search (Snapshot.answer januaryEvents) .standard
      { mode := .legacyAnyOf, floatingZone := some "Europe/Paris" } januaryNotes {}).map
        (List.map Resource.href) = .ok ["/work/1.ics"] := by
  obtain ⟨-, hranges, hsnapshot, hsearches⟩ := search_underAnyZone .standard januaryNotes
  have hplan : ({ index := .standard, mode := .legacyAnyOf, zone := some "Europe/Paris" } :
      Planner).plan januaryNotes = .ok januaryPlan := rfl
  have hstore := hsnapshot januaryEvents
  have hsame := hsearches _ hstore { mode := .legacyAnyOf } (some "Europe/Paris") none {}
  refine ⟨⟨hplan, rfl, hstore⟩, hranges _ _ _ _ hplan (.root rfl), ?_⟩
  exact (congrArg (Except.map (List.map Resource.href)) hsame).trans (by decide +kernel)

end CalendarSearch
