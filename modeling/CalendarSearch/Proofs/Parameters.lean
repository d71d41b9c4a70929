import CalendarSearch.Proofs.Conditions

/-! # Parameters that must be there, and that must not

A prop-filter on one parameter asks for an instance of the property that has the parameter, and if
the parameter must not be defined, for an instance that lacks it. The two are opposites of each
other only where the instances agree: without any instance neither is satisfied, and instances that
differ satisfy both. -/

namespace CalendarSearch

open Traversal

/-- A prop-filter that has one param-filter and no other condition. -/
def PropFilter.onParam (property : String) (test : Junction) (f : ParamFilter) : PropFilter where
  name := property
  test := test
  paramFilters := [f]

/-- The property is there, and its instances all have the parameter, or all lack it. -/
def Component.AgreesOn (c : Component) (id : PropertyName) (name : ParamName) : Prop :=
  c.instances id ≠ [] ∧ ((∀ p ∈ c.instances id, (p.param? name).isSome = true) ∨
    ∀ p ∈ c.instances id, (p.param? name).isSome = false)

theorem Predicate.eval_param {id : PropertyName} {name : ParamName} {expected : Bool}
    {owner : Option Component} {c : Component} :
    (param id name expected).eval owner c = true ↔
      ∃ p ∈ c.instances id, (p.param? name).isSome = expected := by
  simp [eval]

/-- One of two things can be found where the other cannot, exactly if one is found everywhere. -/
theorem exists_iff_not_exists_iff {α : Type} {test : α → Bool} {as : List α} :
    ((∃ a ∈ as, test a = true) ↔ ¬∃ a ∈ as, test a = false) ↔
      as ≠ [] ∧ ((∀ a ∈ as, test a = true) ∨ ∀ a ∈ as, test a = false) := by
  have hnever : (¬∃ a ∈ as, test a = false) ↔ ∀ a ∈ as, test a = true := by simp
  rw [hnever]
  constructor
  · intro h
    refine ⟨fun hnil => ?_, ?_⟩
    · obtain ⟨a, ha, -⟩ := h.mpr (by simp [hnil])
      simp [hnil] at ha
    · by_cases hsome : ∃ a ∈ as, test a = true
      · exact .inl (h.mp hsome)
      · exact .inr (by simpa using hsome)
  · rintro ⟨hne, hall | hnone⟩
    · obtain ⟨a, ha⟩ := List.exists_mem_of_ne_nil as hne
      exact iff_of_true ⟨a, ha, hall a ha⟩ hall
    · obtain ⟨a, ha⟩ := List.exists_mem_of_ne_nil as hne
      refine iff_of_false (fun ⟨b, hb, htrue⟩ => ?_) fun hall => ?_
      · exact absurd htrue (by simp [hnone b hb])
      · exact absurd (hall a ha) (by simp [hnone a ha])

/-- A prop-filter on one parameter whose name is known is read as the test of that parameter. -/
theorem Planner.propCondition_onParam {x : Planner} {property param : String} {id : PropertyName}
    {name : ParamName} (hid : x.index.property? property = some id)
    (hname : x.index.param? param = some name) (test : Junction) (isNotDefined : Bool) :
    x.propCondition (.onParam property test { name := param, isNotDefined }) = .ok {
      predicate := .param id name !isNotDefined
      searchable := x.index.indexed id && x.index.paramIndexed name } := by
  have hparam : x.paramCondition id { name := param, isNotDefined } =
      .ok ⟨.param id name !isNotDefined, x.index.paramIndexed name⟩ := by
    simp only [paramCondition, hname]
    rfl
  simp only [propCondition, PropFilter.onParam, hid, List.mapM_cons, hparam]
  cases test <;> simp [valueCondition, Predicate.ofParts, Predicate.bothOptional] <;> rfl

/-- A prop-filter on one parameter selects the components in which an instance of the property has
the parameter; if the parameter must not be defined, those in which an instance lacks it. The second
filter selects what the first does not, exactly where the instances agree. -/
theorem propCondition_undefinedParam {x : Planner} {property param : String} {id : PropertyName}
    {name : ParamName} (hid : x.index.property? property = some id)
    (hname : x.index.param? param = some name) (test : Junction) :
    ∃ defined undefined : Condition,
      x.propCondition (.onParam property test { name := param }) = .ok defined ∧
      x.propCondition (.onParam property test { name := param, isNotDefined := true }) =
        .ok undefined ∧
      ∀ owner c,
        (defined.predicate.eval owner c = true ↔
          ∃ p ∈ c.instances id, (p.param? name).isSome = true) ∧
        (undefined.predicate.eval owner c = true ↔
          ∃ p ∈ c.instances id, (p.param? name).isSome = false) ∧
        ((defined.predicate.eval owner c = true ↔ ¬undefined.predicate.eval owner c = true) ↔
          c.AgreesOn id name) := by
  refine ⟨_, _, Planner.propCondition_onParam hid hname test false,
    Planner.propCondition_onParam hid hname test true, fun owner c => ?_⟩
  simp only [Predicate.eval_param, Bool.not_false, Bool.not_true, true_and]
  exact exists_iff_not_exists_iff

def uninvited : Component := { kind := .event }

/-- An event with one guest, whose answer is known. -/
def oneGuest : Component where
  kind := .event
  properties := [
    { id := .attendee
      value := "mailto:lisa@example.com"
      params := [{ id := .partstat, value := "ACCEPTED" }] }]

/-- The same event with a second guest, who has not been asked for an answer. -/
def twoGuests : Component :=
  oneGuest.addProperty { id := .attendee, value := "mailto:bernard@example.com" }

theorem propCondition_undefinedParam_oneGuest :
    (FieldIndex.standard.property? "ATTENDEE" = some .attendee ∧
      FieldIndex.standard.param? "PARTSTAT" = some .partstat) ∧
    oneGuest.AgreesOn .attendee .partstat ∧
    ∃ defined undefined : Condition,
      ({ index := .standard } : Planner).propCondition
        (.onParam "ATTENDEE" .any { name := "PARTSTAT" }) = .ok defined ∧
      ({ index := .standard } : Planner).propCondition
        (.onParam "ATTENDEE" .any { name := "PARTSTAT", isNotDefined := true }) = .ok undefined ∧
      (defined.predicate.eval none oneGuest = true ↔
        ¬undefined.predicate.eval none oneGuest = true) := by
  have hid : FieldIndex.standard.property? "ATTENDEE" = some .attendee := rfl
  have hname : FieldIndex.standard.param? "PARTSTAT" = some .partstat := rfl
  have hagrees : oneGuest.AgreesOn .attendee .partstat := ⟨by decide, .inl (by decide)⟩
  obtain ⟨defined, undefined, hdefined, hundefined, heval⟩ :=
    propCondition_undefinedParam (x := { index := .standard }) hid hname .any
  obtain ⟨-, -, hopposite⟩ := heval none oneGuest
  exact ⟨⟨hid, hname⟩, hagrees, defined, undefined, hdefined, hundefined, hopposite.mpr hagrees⟩

/-- Of the event without guests neither filter holds, and of the event with two guests both do. -/
theorem undefinedParam_not_opposite :
    ∃ defined undefined : Condition,
      ({ index := .standard } : Planner).propCondition
        (.onParam "ATTENDEE" .any { name := "PARTSTAT" }) = .ok defined ∧
      ({ index := .standard } : Planner).propCondition
        (.onParam "ATTENDEE" .any { name := "PARTSTAT", isNotDefined := true }) = .ok undefined ∧
      ¬(defined.predicate.eval none uninvited = true ↔
        ¬undefined.predicate.eval none uninvited = true) ∧
      ¬(defined.predicate.eval none twoGuests = true ↔
        ¬undefined.predicate.eval none twoGuests = true) :=
  ⟨_, _, rfl, rfl, by decide, by decide⟩

end CalendarSearch
