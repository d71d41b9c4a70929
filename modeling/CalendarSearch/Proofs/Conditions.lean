import CalendarSearch.Plan.Planner
import CalendarSearch.Proofs.Relaxation
import CalendarSearch.Proofs.Traversal

/-! # Prop-filters as conditions

A prop-filter that can be read becomes a predicate with the meaning of the prop-filter, and counts
as searchable exactly if its property and its parameters are indexed. The prop-filters of a node are
then divided; a division that honours the test is a sound relaxation of all of them. -/

namespace CalendarSearch

open Traversal
open Predicate (evalOptional)

/-- The zone of a range has no part in what lies in it. -/
def ZoneFree (test : TimeRange → Bool) : Prop :=
  ∀ range zone, test { range with zone } = test range

theorem zoneFree_occursIn (c : Component) : ZoneFree c.occursIn := fun _ _ => rfl

theorem zoneFree_firesIn (alarm owner : Component) : ZoneFree (alarm.firesIn owner) :=
  fun _ _ => rfl

theorem zoneFree_propertyIn (c : Component) (id : PropertyName) : ZoneFree (c.propertyIn id) :=
  fun _ _ => rfl

/-- The condition is true of the components of which `asked` is, and counts as searchable or not. -/
structure Condition.Means (k : Condition) (asked : Component → Bool) (searchable : Bool) :
    Prop where
  eval : ∀ owner c, k.predicate.eval owner c = asked c
  searchable : k.searchable = searchable

namespace Planner

variable {x : Planner}

/-! ### Ranges and texts -/

theorem readRange_eq_ok {r : RangeText} {range : TimeRange} :
    x.readRange r = .ok range ↔
      ∃ base, r.range? = some base ∧ range = { base with zone := x.zone } := by
  simp only [readRange, bind_eq_ok, pure_eq_ok, RangeText.range?]
  cases TimeRange.parse r.start r.stop with
  | error e => simp
  | ok base => simp [eq_comm]

/-- Reading a range and testing it is the same as testing the range the text stands for. -/
theorem range?_any {r : RangeText} {range : TimeRange} (h : x.readRange r = .ok range)
    {test : TimeRange → Bool} (ht : ZoneFree test) : r.range?.any test = test range := by
  obtain ⟨base, hbase, rfl⟩ := readRange_eq_ok.mp h
  rw [hbase, ht]
  rfl

/-- A node has no part for a range that it does not set. -/
theorem rangePart_eq_ok {predicate : TimeRange → Predicate} {r : Option RangeText}
    {parts : List Relaxation} :
    x.rangePart predicate r = .ok parts ↔
      r = none ∧ parts = [] ∨
        ∃ t range, r = some t ∧ x.readRange t = .ok range ∧
          parts = [.ofPredicate (predicate range)] := by
  cases r with
  | none => simp [rangePart, eq_comm]
  | some t =>
    simp only [rangePart, bind_eq_ok, pure_eq_ok]
    simp [eq_comm]

theorem textTest_holds {t : TextMatch} {test : TextTest} (h : textTest t = .ok test)
    (values : List String) : t.holds values = test.holds values := by
  simp only [textTest, bind_eq_ok, pure_eq_ok, TextMatch.caseless] at h
  obtain ⟨caseless, hc, rfl⟩ := h
  unfold TextMatch.holds
  split at hc
  · rename_i hcol
    cases hc
    simp [hcol]
  · rename_i hcol
    split at hc
    · cases hc
      simp [hcol]
    · cases hc

/-! ### One prop-filter -/

theorem paramCondition_eq_ok {id : PropertyName} {f : ParamFilter} {k : Condition} :
    x.paramCondition id f = .ok k ↔
      ∃ name, x.index.param? f.name = some name ∧
        ((f.textMatch = none ∧ .param id name (!f.isNotDefined) = k.predicate) ∨
          ∃ text test, f.textMatch = some text ∧ f.isNotDefined = false ∧
            textTest text = .ok test ∧ .paramText id name test = k.predicate) ∧
        x.index.paramIndexed name = k.searchable := by
  obtain ⟨predicate, searchable⟩ := k
  cases hname : x.index.param? f.name with
  | none => simp [paramCondition, hname]
  | some name =>
    cases htext : f.textMatch with
    | none =>
      simp only [paramCondition, hname, htext, bind_eq_ok, pure_eq_ok]
      simp
    | some text =>
      simp only [paramCondition, hname, htext, check_eq_ok, bind_eq_ok, map_eq_ok, pure_eq_ok]
      constructor
      · rintro ⟨hd, _, ⟨test, htest, rfl⟩, ⟨⟩⟩
        exact ⟨name, rfl, .inr ⟨text, test, rfl, by simpa using hd, htest, rfl⟩, rfl⟩
      · rintro ⟨_, ⟨⟩, ⟨⟨⟩, -⟩ | ⟨_, test, ⟨⟩, hd, htest, rfl⟩, rfl⟩
        exact ⟨by simp [hd], _, ⟨test, htest, rfl⟩, rfl⟩

theorem paramCondition_means {id : PropertyName} {f : ParamFilter} {k : Condition}
    (h : x.paramCondition id f = .ok k) :
    k.Means (f.holds x.index id) ((x.index.param? f.name).any x.index.paramIndexed) := by
  obtain ⟨name, hname, hform, hsearchable⟩ := paramCondition_eq_ok.mp h
  refine ⟨fun owner c => ?_, by rw [hname, Option.any_some, hsearchable]⟩
  rcases hform with ⟨htext, hpredicate⟩ | ⟨text, test, htext, -, htest, hpredicate⟩
  · rw [← hpredicate]
    cases hd : f.isNotDefined <;> simp [ParamFilter.holds, Predicate.eval, hname, htext, hd]
  · rw [← hpredicate]
    simp [ParamFilter.holds, Predicate.eval, hname, htext, textTest_holds htest]

theorem valueCondition_eq_ok {id : PropertyName} {f : PropFilter} {value : Option Predicate} :
    x.valueCondition id f = .ok value ↔
      f.timeRange = none ∧ f.textMatch = none ∧ none = value ∨
      (∃ r range, f.timeRange = some r ∧ f.textMatch = none ∧ id.holdsTimes = true ∧
        x.readRange r = .ok range ∧ some (.propertyIn id range) = value) ∨
      ∃ text test, f.timeRange = none ∧ f.textMatch = some text ∧
        textTest text = .ok test ∧ some (.propertyText id test) = value := by
  cases hr : f.timeRange with
  | none =>
    cases ht : f.textMatch with
    | none => simp [valueCondition, hr, ht]
    | some text =>
      simp only [valueCondition, hr, ht, bind_eq_ok, pure_eq_ok]
      simp
  | some r =>
    cases ht : f.textMatch with
    | none =>
      cases htimes : id.holdsTimes with
      | false => simp [valueCondition, hr, ht, htimes]
      | true =>
        simp only [valueCondition, hr, ht, htimes, if_true, bind_eq_ok, pure_eq_ok]
        simp
    | some text => simp [valueCondition, hr, ht]

/-- The predicate on the values of the property is the filter's own condition, and it is there if
the filter has a range or a text. -/
theorem valueCondition_holds {id : PropertyName} {f : PropFilter} {value : Option Predicate}
    (h : x.valueCondition id f = .ok value) :
    value.isSome = (f.timeRange.isSome || f.textMatch.isSome) ∧
      ∀ owner c, evalOptional owner c value = (value.isNone || f.holdsOfValues id c) := by
  rcases valueCondition_eq_ok.mp h with ⟨hr, ht, rfl⟩ | ⟨r, range, hr, ht, -, hrange, rfl⟩ |
    ⟨text, test, hr, ht, htest, rfl⟩
  · exact ⟨by simp [hr, ht], fun owner c => rfl⟩
  · refine ⟨by simp [hr], fun owner c => ?_⟩
    have hany := range?_any hrange (zoneFree_propertyIn c id)
    simp [PropFilter.holdsOfValues, Predicate.eval, hr, hany]
  · refine ⟨by simp [ht], fun owner c => ?_⟩
    simp [PropFilter.holdsOfValues, Predicate.eval, hr, ht, textTest_holds htest]

/-- The condition of a prop-filter, put together from its own part and those of its
param-filters. -/
def assembleCondition (x : Planner) (f : PropFilter) (id : PropertyName)
    (value : Option Predicate) (params : List Condition) : Condition where
  predicate := (Predicate.bothOptional value (Predicate.ofParts (f.test = .all)
    (params.map Condition.predicate))).getD (.property id !f.isNotDefined)
  searchable := x.index.indexed id && params.all Condition.searchable

/-- What an accepted prop-filter says: not undefined and conditioned at once, its name known, its
parts read. -/
theorem propCondition_eq_ok {f : PropFilter} {k : Condition} :
    x.propCondition f = .ok k ↔
      (f.isNotDefined && f.hasConditions) = false ∧
        ∃ id value params, x.index.property? f.name = some id ∧
          x.valueCondition id f = .ok value ∧
          List.Forall₂ (fun g k => x.paramCondition id g = .ok k) f.paramFilters params ∧
          x.assembleCondition f id value params = k := by
  cases hid : x.index.property? f.name with
  | none => simp [propCondition, hid]
  | some id =>
    simp only [propCondition, hid, check_eq_ok, bind_eq_ok, mapM_eq_ok, pure_eq_ok]
    simp [assembleCondition]

/-- The predicate made of a prop-filter means the prop-filter, and is searchable when its fields
are. -/
theorem propCondition_means {f : PropFilter} {k : Condition} (h : x.propCondition f = .ok k) :
    k.Means (f.holds x.index) (f.searchable x.index) := by
  obtain ⟨-, id, value, params, hid, hvalue, hparams, rfl⟩ := propCondition_eq_ok.mp h
  obtain ⟨hsome, hown⟩ := valueCondition_holds hvalue
  constructor
  · intro owner c
    have heval : params.map (fun k => k.predicate.eval owner c) =
        f.paramFilters.map (ParamFilter.holds x.index id c) :=
      map_eq_map hparams fun g _ k hk => (paramCondition_means hk).eval owner c
    have hjoined : evalOptional owner c
          (Predicate.ofParts (f.test = .all) (params.map Condition.predicate)) =
        f.test.joins (f.paramFilters.map (ParamFilter.holds x.index id c)) := by
      rw [Predicate.evalOptional_ofParts, List.map_map, ← heval]
      rfl
    simp only [assembleCondition, Predicate.eval_getD, Predicate.evalOptional_bothOptional, hown,
      hjoined, Predicate.isSome_bothOptional, Predicate.isSome_ofParts, List.isEmpty_map,
      isEmpty_eq_isEmpty hparams, PropFilter.holds, hid, Option.any_some]
    cases value with
    | some p => simp
    | none =>
      obtain ⟨hr, ht⟩ : f.timeRange = none ∧ f.textMatch = none := by simpa using hsome.symm
      have hpresence : (Predicate.property id !f.isNotDefined).eval owner c =
          (c.has id != f.isNotDefined) := by
        cases f.isNotDefined <;> simp [Predicate.eval]
      simp only [PropFilter.holdsOfValues, hr, ht, hpresence, Option.isNone_none,
        Option.isSome_none, Bool.true_or, Bool.true_and, Bool.false_or]
      rw [Bool.and_comm]
  · simp only [assembleCondition, PropFilter.searchable, hid, Option.any_some]
    rw [all_eq_all hparams fun g _ k hk => (paramCondition_means hk).searchable]

/-! ### The prop-filters of a node -/

/-- The conditions are those of the prop-filters, each beside the filter that it was read from. -/
structure Reads (x : Planner) (fs : List PropFilter) (cs : List (PropFilter × Condition)) :
    Prop where
  filters : cs.map Prod.fst = fs
  read : ∀ k ∈ cs, x.propCondition k.1 = .ok k.2

theorem propConditions_eq_ok {kind : ComponentKind} {test : Junction} {fs : List PropFilter}
    {r : Relaxation × List Deferral} :
    x.propConditions kind test fs = .ok r ↔
      ∃ cs, x.Reads fs cs ∧ divide x.mode kind test cs = r := by
  simp only [propConditions, bind_eq_ok, mapM_pair_eq_ok, pure_eq_ok]
  constructor
  · rintro ⟨cs, ⟨hfs, hread⟩, hr⟩
    exact ⟨cs, ⟨hfs, hread⟩, hr⟩
  · rintro ⟨cs, ⟨hfs, hread⟩, hr⟩
    exact ⟨cs, ⟨hfs, hread⟩, hr⟩

theorem Reads.means {fs : List PropFilter} {cs : List (PropFilter × Condition)} (h : x.Reads fs cs)
    {k : PropFilter × Condition} (hk : k ∈ cs) :
    k.2.Means (k.1.holds x.index) (k.1.searchable x.index) :=
  propCondition_means (h.read k hk)

theorem Reads.eval {fs : List PropFilter} {cs : List (PropFilter × Condition)} (h : x.Reads fs cs)
    (owner : Option Component) (c : Component) :
    cs.map (fun k => k.2.predicate.eval owner c) = fs.map (PropFilter.holds x.index c) := by
  rw [← h.filters, List.map_map]
  exact List.map_congr_left fun k hk => (h.means hk).eval owner c

section Division

variable (mode : RecheckMode) (kind : ComponentKind) (test : Junction)
  (cs : List (PropFilter × Condition))

/-- The full predicate of a division asks for all that is divided. -/
theorem divide_full : (divide mode kind test cs).1.full =
    Predicate.ofParts (test = .all) (cs.map (·.2.predicate)) := by
  unfold divide
  dsimp only
  split
  · rfl
  · cases mode <;> cases test <;> rfl

/-- Whatever the mode, the full part of a node means all its prop-filters. -/
theorem eval_divide_full {fs : List PropFilter} {cs : List (PropFilter × Condition)}
    (h : x.Reads fs cs) (owner : Option Component) (c : Component) :
    evalOptional owner c (divide mode kind test cs).1.full =
      test.joins (fs.map (PropFilter.holds x.index c)) := by
  rw [divide_full, Predicate.evalOptional_ofParts, List.map_map, ← h.eval owner c]
  rfl

/-- Under "all" the searchable prop-filters follow from the whole, and under "any" the store is
asked nothing. -/
theorem sound_divide : (divide .honorTest kind test cs).1.Sound := by
  unfold divide
  dsimp only
  split
  · exact ⟨fun _ _ h => h, fun _ => rfl⟩
  · cases test with
    | any => exact ⟨fun _ _ _ => rfl, fun h => by cases h⟩
    | all =>
      refine ⟨fun owner c h => ?_, fun h => by cases h⟩
      have hall := Predicate.evalOptional_ofParts owner c .all
      simp only [decide_true] at hall h ⊢
      rw [hall, Junction.joins, List.all_map, List.all_map, List.all_eq_true] at h ⊢
      exact fun k hk => h k (List.mem_of_mem_filter hk)

theorem exact_divide : (divide .honorTest kind test cs).1.exact =
    (divide .honorTest kind test cs).2.isEmpty := by
  unfold divide
  dsimp only
  split
  · rfl
  · cases test <;> rfl

/-- What is deferred are some of the prop-filters, and only where there are some. -/
theorem mem_divide {d : Deferral} (h : d ∈ (divide mode kind test cs).2) :
    d.filters ≠ [] ∧ ∀ f ∈ d.filters, f ∈ cs.map Prod.fst := by
  unfold divide at h
  dsimp only at h
  split at h
  · simp at h
  · rename_i hrest
    have hne : (cs.filter (!·.2.searchable)).map (·.1) ≠ [] := fun hn => hrest (by rw [hn]; rfl)
    have hsub : ∀ f ∈ (cs.filter (!·.2.searchable)).map (·.1), f ∈ cs.map Prod.fst := by
      intro f hf
      obtain ⟨k, hk, rfl⟩ := List.mem_map.mp hf
      exact List.mem_map.mpr ⟨k, List.mem_of_mem_filter hk, rfl⟩
    have hcs : cs.map (·.1) ≠ [] := fun hn => hne (by simp_all)
    cases mode <;> cases test <;> simp only [List.mem_singleton] at h <;> subst h
    · exact ⟨hcs, fun f hf => hf⟩
    all_goals exact ⟨hne, hsub⟩

end Division

end Planner

end CalendarSearch
