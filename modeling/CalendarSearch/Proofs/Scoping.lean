import CalendarSearch.Proofs.Parts

/-! # The scope of tests, and how deep they stand

Some tests can only be made of an alarm, others only of the component that owns it, and an alarm has
no alarms of its own. A planner puts every test where it can be made. Nor does a predicate grow
deeper with the number of conditions: each level of a filter adds a fixed number of nodes to the
longest path, and with three levels that makes twelve. -/

namespace CalendarSearch

open Traversal

namespace Predicate

/-! ### Paths -/

/-- The way from a predicate down to one that stands in it, with every predicate that it passes, the
two ends included. -/
inductive Path : Predicate → List Predicate → Predicate → Prop
  | here (p : Predicate) : Path p [p] p
  | down {p q r : Predicate} {path : List Predicate} :
      q ∈ p.parts → Path q path r → Path p (p :: path) r

/-- Every test is made where it can be: the time at which an alarm fires only inside a predicate on
alarms, and kinds, times and alarms of components only outside of those. -/
structure InScope (p : Predicate) : Prop where
  firesIn : ∀ path range, p.Path path (firesIn range) → ∃ q, someAlarm q ∈ path
  someAlarm : ∀ q, PartOf (someAlarm q) p → ∀ r, PartOf r q →
    (∀ s, r ≠ .someAlarm s) ∧ (∀ k, r ≠ kind k) ∧ ∀ range, r ≠ occursIn range

/-! ### What fits where -/

/-- Can the predicate be asked of a component that is no alarm, or else of an alarm? -/
@[simp] def suits (onAlarm : Bool) : Predicate → Bool
  | firesIn _ => onAlarm
  | kind _ | occursIn _ | someAlarm _ => !onAlarm
  | and _ | or _ | not _ | property _ _ | propertyIn _ _ | propertyText _ _ | param _ _ _
  | paramText _ _ _ => true

/-- Are the parts of the predicate asked of an alarm? -/
@[simp] def partsOnAlarm (onAlarm : Bool) : Predicate → Bool
  | someAlarm _ => true
  | _ => onAlarm

/-- Every test in the predicate can be asked where it stands, and no path has more nodes than
given. -/
inductive Fits : Bool → Nat → Predicate → Prop
  | node {onAlarm : Bool} {n : Nat} {p : Predicate} : p.suits onAlarm = true →
      (∀ q ∈ p.parts, Fits (p.partsOnAlarm onAlarm) n q) → Fits onAlarm (n + 1) p

variable {onAlarm : Bool} {n m : Nat} {p q : Predicate}

theorem Fits.mono (h : Fits onAlarm n p) (hnm : n ≤ m) : Fits onAlarm m p := by
  induction h generalizing m with
  | node hsuits _ ih =>
    match m, hnm with
    | m + 1, hnm => exact .node hsuits fun q hq => ih q hq (Nat.le_of_succ_le_succ hnm)

/-- A test without parts fits at once. -/
theorem fits_leaf (hp : p.parts = []) (hsuits : p.suits onAlarm = true) : Fits onAlarm 1 p :=
  .node hsuits fun _ hq => absurd (hp ▸ hq) List.not_mem_nil

/-- The shape bounds every path of the predicate. -/
theorem Fits.length_le {path : List Predicate} (h : Fits onAlarm n p) (hpath : p.Path path q) :
    path.length ≤ n := by
  induction hpath generalizing n onAlarm with
  | here =>
    cases h with
    | node => exact Nat.succ_pos _
  | down hq _ ih =>
    cases h with
    | node _ hparts => exact Nat.succ_le_succ (ih (hparts _ hq))

/-- What stands in a predicate that fits, fits where it stands. -/
theorem Fits.partOf (h : Fits onAlarm n p) (hq : PartOf q p) : ∃ b m, Fits b m q := by
  induction hq generalizing n onAlarm with
  | whole => exact ⟨onAlarm, n, h⟩
  | inside hr _ ih =>
    cases h with
    | node _ hparts => exact ih (hparts _ hr)

/-- Inside a predicate on alarms there is no way out of it again. -/
theorem Fits.suits_of_partOf (h : Fits true n p) (hq : PartOf q p) : q.suits true = true := by
  induction hq generalizing n with
  | whole =>
    cases h with
    | node hsuits => exact hsuits
  | @inside _ r hr _ ih =>
    have honAlarm : r.partsOnAlarm true = true := by cases r <;> rfl
    cases h with
    | node _ hparts => exact ih (honAlarm ▸ hparts _ hr)

/-- A time at which an alarm fires is asked for below a predicate on alarms, unless the whole is
asked of an alarm. -/
theorem Fits.someAlarm_mem {path : List Predicate} {range : TimeRange} (h : Fits onAlarm n p)
    (hpath : p.Path path (firesIn range)) : onAlarm = true ∨ ∃ q, someAlarm q ∈ path := by
  generalize hr : firesIn range = r at hpath
  induction hpath generalizing n onAlarm with
  | here =>
    subst hr
    cases h with
    | node hsuits => exact .inl hsuits
  | @down p q r path hq _ ih =>
    cases h with
    | node _ hparts =>
      obtain hon | ⟨s, hs⟩ := ih (hparts q hq) hr
      · cases p with
        | someAlarm s => exact .inr ⟨s, List.mem_cons_self⟩
        | _ => exact .inl hon
      · exact .inr ⟨s, List.mem_cons_of_mem p hs⟩

theorem Fits.inScope (h : Fits false n p) : p.InScope where
  firesIn path range hpath := (h.someAlarm_mem hpath).resolve_left Bool.false_ne_true
  someAlarm q hq r hr := by
    obtain ⟨b, m, hfits⟩ := h.partOf hq
    cases hfits with
    | node _ hparts =>
      have hsuits : r.suits true = true := (hparts q List.mem_cons_self).suits_of_partOf hr
      refine ⟨?_, ?_, ?_⟩ <;> rintro _ rfl <;> cases hsuits

/-! ### The builders -/

theorem fits_and {ps : List Predicate} (h : ∀ p ∈ ps, Fits onAlarm n p) :
    Fits onAlarm (n + 1) (.and ps) :=
  .node rfl h

theorem fits_or {ps : List Predicate} (h : ∀ p ∈ ps, Fits onAlarm n p) :
    Fits onAlarm (n + 1) (.or ps) :=
  .node rfl h

theorem Fits.not (h : Fits onAlarm n p) : Fits onAlarm (n + 1) (.not p) :=
  .node rfl (by simpa using h)

theorem Fits.someAlarm (h : Fits true n p) : Fits false (n + 1) (.someAlarm p) :=
  .node rfl (by simpa using h)

theorem Fits.opposite (h : Fits onAlarm n p) : Fits onAlarm (n + 1) p.opposite := by
  cases p with
  | not p =>
    cases h with
    | node _ hparts => exact (hparts p List.mem_cons_self).mono (by omega)
  | _ => exact h.not

/-- The parts of a conjunction that may be missing. -/
def conjunctsOf (p : Option Predicate) : List Predicate := p.elim [] conjuncts

theorem conjunctsOf_bothOptional (p q : Option Predicate) :
    conjunctsOf (bothOptional p q) = conjunctsOf p ++ conjunctsOf q := by
  cases p <;> cases q <;> simp [bothOptional, conjunctsOf, both, conjuncts]

/-- A flat conjunction has the parts of all that was put into it. -/
theorem conjunctsOf_conjoin (ps : List (Option Predicate)) :
    conjunctsOf (conjoin ps) = ps.flatMap conjunctsOf := by
  -- the conjunction grows from the left, so the induction is for any predicate to begin with
  have grown (p : Option Predicate) :
      conjunctsOf (ps.foldl bothOptional p) = conjunctsOf p ++ ps.flatMap conjunctsOf := by
    induction ps generalizing p with
    | nil => simp
    | cons q ps ih => simp [ih, conjunctsOf_bothOptional]
  rw [conjoin, grown]
  rfl

def FitsOptional (onAlarm : Bool) (n : Nat) (p : Option Predicate) : Prop :=
  ∀ q, p = some q → q.Fits onAlarm n

/-- The predicate can be joined with others in one conjunction, without getting deeper. -/
def Joins (onAlarm : Bool) (n : Nat) (p : Option Predicate) : Prop :=
  ∀ q ∈ conjunctsOf p, q.Fits onAlarm n

variable {o : Option Predicate}

@[simp] theorem fitsOptional_none : FitsOptional onAlarm n none := nofun

@[simp] theorem fitsOptional_some : FitsOptional onAlarm n (some p) ↔ p.Fits onAlarm n := by
  simp [FitsOptional]

@[simp] theorem joins_none : Joins onAlarm n none := nofun

/-- A predicate that fits is a fitting conjunct of itself. -/
theorem FitsOptional.joins (h : FitsOptional onAlarm n o) : Joins onAlarm n o := by
  match o with
  | none => exact joins_none
  | some p =>
    have hp : p.Fits onAlarm n := fitsOptional_some.mp h
    cases p with
    | and ps =>
      cases hp with
      | node _ hparts => exact fun q hq => (hparts q hq).mono (Nat.le_succ _)
    | _ => simpa [Joins, conjunctsOf, conjuncts] using hp

/-- Conjuncts that fit make a conjunction one level deeper. -/
theorem Joins.fits (h : Joins onAlarm n o) : FitsOptional onAlarm (n + 1) o := by
  rintro p rfl
  cases p with
  | and ps => exact fits_and h
  | _ => exact (h _ List.mem_cons_self).mono n.le_succ

theorem Joins.mono (h : Joins onAlarm n o) (hnm : n ≤ m) : Joins onAlarm m o :=
  fun q hq => (h q hq).mono hnm

theorem FitsOptional.mono (h : FitsOptional onAlarm n o) (hnm : n ≤ m) : FitsOptional onAlarm m o :=
  fun q hq => (h q hq).mono hnm

theorem FitsOptional.opposite (h : FitsOptional onAlarm n o) :
    FitsOptional onAlarm (n + 1) (o.map Predicate.opposite) := by
  cases o with
  | none => exact fitsOptional_none
  | some p => exact fitsOptional_some.mpr (fitsOptional_some.mp h).opposite

theorem Joins.bothOptional {o o' : Option Predicate} (h : Joins onAlarm n o)
    (h' : Joins onAlarm n o') : Joins onAlarm n (bothOptional o o') := by
  rw [Joins, conjunctsOf_bothOptional]
  exact List.forall_mem_append.mpr ⟨h, h'⟩

/-- Conjunctions are spliced together, so conjoining adds no level. -/
theorem Joins.conjoin {ps : List (Option Predicate)} (h : ∀ p ∈ ps, Joins onAlarm n p) :
    Joins onAlarm n (conjoin ps) := by
  intro q hq
  rw [conjunctsOf_conjoin] at hq
  obtain ⟨p, hp, hq⟩ := List.mem_flatMap.mp hq
  exact h p hp q hq

theorem joins_ofParts {all : Bool} {ps : List Predicate} (h : ∀ p ∈ ps, Fits onAlarm n p) :
    Joins onAlarm (n + 1) (ofParts all ps) := by
  match ps with
  | [] => exact joins_none
  | [p] =>
    have hp : FitsOptional onAlarm n (some p) := fitsOptional_some.mpr (h p List.mem_cons_self)
    exact hp.joins.mono n.le_succ
  | p :: q :: ps =>
    cases all with
    | true => exact fun r hr => (h r hr).mono n.le_succ
    | false => exact (fitsOptional_some.mpr (fits_or h)).joins

theorem joins_disjoin {ps : List (Option Predicate)} (h : ∀ p ∈ ps, FitsOptional onAlarm n p) :
    Joins onAlarm (n + 1) (Relaxation.disjoin ps) := by
  by_cases hnone : none ∈ ps
  · rw [disjoin_of_none_mem hnone]
    exact joins_none
  · obtain ⟨qs, rfl⟩ := exists_map_some hnone
    rw [disjoin_map_some]
    exact joins_ofParts (by simpa using h)

end Predicate

open Predicate

/-! ### Relaxations -/

namespace Relaxation

variable {onAlarm : Bool} {n m : Nat} {r : Relaxation}

structure Fits (onAlarm : Bool) (n : Nat) (r : Relaxation) : Prop where
  full : FitsOptional onAlarm n r.full
  coarse : FitsOptional onAlarm n r.coarse

structure Joins (onAlarm : Bool) (n : Nat) (r : Relaxation) : Prop where
  full : Predicate.Joins onAlarm n r.full
  coarse : Predicate.Joins onAlarm n r.coarse

theorem Joins.fits (h : r.Joins onAlarm n) : r.Fits onAlarm (n + 1) := ⟨h.full.fits, h.coarse.fits⟩

theorem Joins.mono (h : r.Joins onAlarm n) (hnm : n ≤ m) : r.Joins onAlarm m :=
  ⟨h.full.mono hnm, h.coarse.mono hnm⟩

theorem joins_ofPredicate {p : Predicate} (hp : p.parts = []) (hs : p.suits onAlarm = true) :
    (ofPredicate p).Joins onAlarm 1 := by
  have hfits : FitsOptional onAlarm 1 (some p) := fitsOptional_some.mpr (fits_leaf hp hs)
  exact ⟨hfits.joins, hfits.joins⟩

theorem Joins.meet {parts : List Relaxation} (h : ∀ r ∈ parts, r.Joins onAlarm n) :
    (meet parts).Joins onAlarm n where
  full := .conjoin (List.forall_mem_map.mpr fun r hr => (h r hr).full)
  coarse := .conjoin (List.forall_mem_map.mpr fun r hr => (h r hr).coarse)

theorem joins_ofParts {all : Bool} {parts : List Relaxation} (h : ∀ r ∈ parts, r.Fits onAlarm n) :
    (ofParts all parts).Joins onAlarm (n + 1) := by
  have hfull : ∀ p ∈ parts.map Relaxation.full, FitsOptional onAlarm n p :=
    List.forall_mem_map.mpr fun r hr => (h r hr).full
  have hcoarse : ∀ p ∈ parts.map Relaxation.coarse, FitsOptional onAlarm n p :=
    List.forall_mem_map.mpr fun r hr => (h r hr).coarse
  cases all with
  | true => exact ⟨.conjoin fun p hp => (hfull p hp).joins.mono n.le_succ,
      .conjoin fun p hp => (hcoarse p hp).joins.mono n.le_succ⟩
  | false => exact ⟨joins_disjoin hfull, joins_disjoin hcoarse⟩

theorem Fits.mono (h : r.Fits onAlarm n) (hnm : n ≤ m) : r.Fits onAlarm m :=
  ⟨h.full.mono hnm, h.coarse.mono hnm⟩

theorem Fits.joins (h : r.Fits onAlarm n) : r.Joins onAlarm n := ⟨h.full.joins, h.coarse.joins⟩

theorem Fits.opposite (h : r.Fits onAlarm n) : r.opposite.Fits onAlarm (n + 1) := by
  refine ⟨h.full.opposite, ?_⟩
  cases he : r.exact with
  | true => simpa [Relaxation.opposite, he] using h.coarse.opposite
  | false => simp [Relaxation.opposite, he]

/-- Nothing is left to ask of an alarm, or it is asked one level further up. -/
theorem Fits.onOneAlarm (h : r.Fits true n) : r.onOneAlarm.Fits false (n + 1) := by
  have asked {p : Option Predicate} (hp : FitsOptional true n p) :
      FitsOptional false (n + 1) (some (onAlarm p)) := by
    refine fitsOptional_some.mpr ?_
    cases p with
    | none => exact (fits_leaf rfl rfl).mono (Nat.succ_le_succ n.zero_le)
    | some p => exact (fitsOptional_some.mp hp).someAlarm
  exact ⟨asked h.full, asked h.coarse⟩

end Relaxation

namespace Planner

variable {x : Planner} {onAlarm : Bool}

/-! ### Conditions -/

theorem fits_paramCondition {id : PropertyName} {f : ParamFilter} {k : Condition}
    (h : x.paramCondition id f = .ok k) : k.predicate.Fits onAlarm 1 := by
  obtain ⟨name, -, ⟨-, hpredicate⟩ | ⟨text, test, -, -, -, hpredicate⟩, -⟩ :=
    paramCondition_eq_ok.mp h
  · exact hpredicate ▸ fits_leaf rfl rfl
  · exact hpredicate ▸ fits_leaf rfl rfl

theorem fits_valueCondition {id : PropertyName} {f : PropFilter} {value : Option Predicate}
    (h : x.valueCondition id f = .ok value) : FitsOptional onAlarm 1 value := by
  rcases valueCondition_eq_ok.mp h with ⟨-, -, rfl⟩ | ⟨r, range, -, -, -, -, rfl⟩ |
    ⟨text, test, -, -, -, rfl⟩
  · exact fitsOptional_none
  · exact fitsOptional_some.mpr (fits_leaf rfl rfl)
  · exact fitsOptional_some.mpr (fits_leaf rfl rfl)

/-- A prop-filter is at most a conjunction of its own test and a disjunction of tests on
parameters. -/
theorem fits_propCondition {f : PropFilter} {k : Condition} (h : x.propCondition f = .ok k) :
    k.predicate.Fits onAlarm 3 := by
  obtain ⟨-, id, value, params, -, hvalue, hparams, rfl⟩ := propCondition_eq_ok.mp h
  have hown : Joins onAlarm 2 value := (fits_valueCondition hvalue).joins.mono (by decide)
  have heach : ∀ q ∈ params.map Condition.predicate, q.Fits onAlarm 1 :=
    List.forall_mem_map.mpr (forall_mem_right hparams fun _ _ _ => fits_paramCondition)
  have hjoined : FitsOptional onAlarm 3 (bothOptional value
      (ofParts (f.test = .all) (params.map Condition.predicate))) :=
    (hown.bothOptional (joins_ofParts heach)).fits
  rw [assembleCondition]
  cases hq : bothOptional value (ofParts (f.test = .all) (params.map Condition.predicate)) with
  | none => exact (fits_leaf rfl rfl).mono (by decide)
  | some q => exact hjoined q hq

theorem joins_divide (mode : RecheckMode) (kind : ComponentKind) (test : Junction)
    {fs : List PropFilter} {cs : List (PropFilter × Condition)} (h : x.Reads fs cs) :
    (divide mode kind test cs).1.Joins onAlarm 4 := by
  have heach : ∀ k ∈ cs, k.2.predicate.Fits onAlarm 3 := fun k hk =>
    fits_propCondition (h.read k hk)
  have hfull (all : Bool) : Joins onAlarm 4 (ofParts all (cs.map (·.2.predicate))) :=
    joins_ofParts (List.forall_mem_map.mpr heach)
  have hsearched (all : Bool) :
      Joins onAlarm 4 (ofParts all ((cs.filter (·.2.searchable)).map (·.2.predicate))) :=
    joins_ofParts (List.forall_mem_map.mpr fun k hk => heach k (List.mem_of_mem_filter hk))
  unfold divide
  dsimp only
  split
  · exact ⟨hfull _, hfull _⟩
  · cases mode <;> cases test
    · exact ⟨hfull _, joins_none⟩
    all_goals exact ⟨hfull _, hsearched _⟩

theorem joins_rangePart {predicate : TimeRange → Predicate} {r : Option RangeText}
    {range : List Relaxation} (h : x.rangePart predicate r = .ok range)
    (hp : ∀ range, (predicate range).parts = [] ∧ (predicate range).suits onAlarm = true) :
    ∀ q ∈ range, q.Joins onAlarm 1 := by
  rcases rangePart_eq_ok.mp h with ⟨-, rfl⟩ | ⟨t, range, -, -, rfl⟩
  · simp
  · obtain ⟨hparts, hsuits⟩ := hp range
    simpa using Relaxation.joins_ofPredicate hparts hsuits

/-! ### Nodes -/

theorem fits_undefine {n : Nat} {r : Relaxation} (h : r.Fits onAlarm n) (isNotDefined : Bool) :
    (undefine isNotDefined r).Fits onAlarm (n + 1) := by
  cases isNotDefined with
  | false => exact h.mono n.le_succ
  | true => exact h.opposite

theorem joins_inner {n : Nat} {children : List NodePlan} (test : Junction)
    (h : ∀ c ∈ children, c.relaxation.Fits onAlarm n) :
    (inner test children).Joins onAlarm (n + 1) :=
  Relaxation.joins_ofParts (List.forall_mem_map.mpr h)

/-- An alarm node has its prop-filters under `someAlarm`, perhaps negated. -/
theorem fits_alarmNode {f : CompFilter} {n : NodePlan} (h : x.alarmNode f = .ok n) :
    n.relaxation.Fits false 7 := by
  obtain ⟨-, -, range, cs, hrange, hcs, rfl⟩ := alarmNode_eq_ok.mp h
  have hfires : ∀ q ∈ range, q.Joins true 1 := joins_rangePart hrange fun _ => ⟨rfl, rfl⟩
  have hparts : ∀ q ∈ range ++ [(divide x.mode .alarm f.test cs).1], q.Joins true 4 :=
    List.forall_mem_append.mpr ⟨fun q hq => (hfires q hq).mono (by decide),
      List.forall_mem_singleton.mpr (joins_divide _ _ _ hcs)⟩
  exact fits_undefine (Relaxation.Joins.meet hparts).fits.onOneAlarm _

/-- A component node has at most three levels above its alarm nodes. -/
theorem fits_componentNode {f : CompFilter} {n : NodePlan} (h : x.componentNode f = .ok n) :
    n.relaxation.Fits false 10 := by
  obtain ⟨kind, range, cs, alarms, -, hrange, hcs, halarms, rfl⟩ := componentNode_eq_ok.mp h
  have hkind : (Relaxation.ofPredicate (.kind kind)).Joins false 1 :=
    Relaxation.joins_ofPredicate rfl rfl
  have hoccurs : ∀ q ∈ range, q.Joins false 1 := joins_rangePart hrange fun _ => ⟨rfl, rfl⟩
  have hprops : (divide x.mode kind f.test cs).1.Joins false 4 := joins_divide _ _ _ hcs
  have hinner : (inner f.test alarms).Joins false 8 :=
    joins_inner f.test (forall_mem_right halarms fun _ _ _ hn => fits_alarmNode hn)
  refine fits_undefine (Relaxation.Joins.meet (n := 8) ?_).fits _
  simp only [List.cons_append, List.forall_mem_cons, List.forall_mem_append]
  exact ⟨hkind.mono (by decide), fun q hq => (hoccurs q hq).mono (by decide),
    hprops.mono (by decide), hinner, by simp⟩

theorem fits_calendarNode {f : CompFilter} {n : NodePlan} (h : x.calendarNode f = .ok n) :
    n.relaxation.Fits false 12 := by
  obtain ⟨-, -, range, components, hrange, hcomponents, rfl⟩ := calendarNode_eq_ok.mp h
  have hoccurs : ∀ q ∈ range, q.Joins false 1 := joins_rangePart hrange fun _ => ⟨rfl, rfl⟩
  have hinner : (inner f.test components).Joins false 11 :=
    joins_inner f.test (forall_mem_right hcomponents fun _ _ _ hn => fits_componentNode hn)
  have hparts : ∀ q ∈ range ++ [inner f.test components], q.Joins false 11 :=
    List.forall_mem_append.mpr ⟨fun q hq => (hoccurs q hq).mono (by decide),
      List.forall_mem_singleton.mpr hinner⟩
  exact (Relaxation.Joins.meet hparts).fits

end Planner

/-- Whatever the mode, what the store searches by and what is checked again ask of alarms what only
alarms have, and of components what only components have; no path in them has more than twelve
nodes, however many conditions the filter sets side by side. -/
theorem plan_inScope {x : Planner} {f : CompFilter} {plan : Plan} {p : Predicate}
    (hplan : x.plan f = .ok plan) (hp : plan.root = some p ∨ plan.residual = some p) :
    p.InScope ∧ ∀ path q, p.Path path q → path.length ≤ 12 := by
  obtain ⟨n, hn, rfl⟩ := Planner.plan_eq_ok.mp hplan
  have hnode : n.relaxation.Fits false 12 := Planner.fits_calendarNode hn
  have hfits : p.Fits false 12 := by
    obtain hroot | hresidual := hp
    · exact hnode.coarse p hroot
    · dsimp only at hresidual
      split at hresidual
      · cases hresidual
      · exact hnode.full p hresidual
  exact ⟨hfits.inScope, fun path q hpath => hfits.length_le hpath⟩

/-- From the second of January on there is a to-do, or there is no event with an alarm or without
one that fires then and either has an action or has a guest with a role or with a status. -/
def steepFilter : CompFilter where
  name := "VCALENDAR"
  timeRange := some { start := some "20240102T000000Z" }
  compFilters := [
    { name := "VTODO" },
    { name := "VEVENT"
      isNotDefined := true
      compFilters := [
        { name := "VALARM" },
        { name := "VALARM"
          isNotDefined := true
          timeRange := some { start := some "20240102T000000Z" }
          propFilters := [
            { name := "ACTION" },
            { name := "ATTENDEE"
              textMatch := some { value := "mailto:" }
              paramFilters := [{ name := "ROLE" }, { name := "PARTSTAT" }] }] }] }]

/-- The last of the twelve nodes on the longest path. -/
def hasStatus : Predicate := .param .attendee .partstat true

def steepResidual : Predicate :=
  .and [
    .occursIn { start := some ⟨1704153600, false⟩, stop := none },
    .or [
      .kind .todo,
      .not (.and [
        .kind .event,
        .or [
          .property .valarm true,
          .not (.someAlarm (.and [
            .firesIn { start := some ⟨1704153600, false⟩, stop := none },
            .or [
              .property .action true,
              .and [
                .propertyText .attendee ⟨"mailto:", true, false⟩,
                .or [.param .attendee .role true, hasStatus]]]]))]])]]

/-- No bound below twelve would do. -/
theorem plan_inScope_steepFilter :
    (∃ plan, ({ index := .standard } : Planner).plan steepFilter = .ok plan ∧
      plan.residual = some steepResidual) ∧
    (∃ path, steepResidual.Path path hasStatus ∧ path.length = 12) ∧
    steepResidual.InScope ∧ ∀ path q, steepResidual.Path path q → path.length ≤ 12 := by
  obtain ⟨plan, hplan, hresidual⟩ : ∃ plan,
      ({ index := .standard } : Planner).plan steepFilter = .ok plan ∧
        plan.residual = some steepResidual := ⟨_, rfl, rfl⟩
  have first {p : Predicate} {ps : List Predicate} : p ∈ p :: ps := List.mem_cons_self
  have second {p q : Predicate} {ps : List Predicate} : p ∈ q :: p :: ps := .tail q first
  have hsteep : ∃ path, steepResidual.Path path hasStatus ∧ path.length = 12 :=
    ⟨_, .down second <| .down second <| .down first <| .down second <| .down second <|
      .down first <| .down first <| .down second <| .down second <| .down second <|
      .down second <| .here hasStatus, rfl⟩
  exact ⟨⟨plan, hplan, hresidual⟩, hsteep, plan_inScope hplan (.inr hresidual)⟩

end CalendarSearch
