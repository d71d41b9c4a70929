import CalendarSearch.Proofs.Legacy

/-! # How a search ends

A search fails with its filter or with its store, and in no other way. A filter without a plan is
refused whatever the store would answer, and a failure of the store is passed on with the blame
where it was. Once the store has answered, the second check cannot fail: what a planner deferred it
can read again, each prop-filter by itself. -/

namespace CalendarSearch

/-- A failure of a search that passes on a failure of its store: the same collection is not found or
not accessible, or the failure itself is reported, if the request is not at fault. -/
inductive SearchError.Reports : SearchError → StoreError → Prop
  | collectionNotFound (collection : String) :
      Reports (.collectionNotFound collection) (.collectionNotFound collection)
  | accessDenied (collection : String) :
      Reports (.accessDenied collection) (.accessDenied collection)
  | retrieval {e : StoreError} : e.blamesRequest = false → Reports (.retrieval e) e

namespace SearchError

theorem reports_ofStore (e : StoreError) : (ofStore e).Reports e := by
  cases e with
  | collectionNotFound collection => exact .collectionNotFound collection
  | accessDenied collection => exact .accessDenied collection
  | unreadable path cause => exact .retrieval rfl
  | malformed path => exact .retrieval rfl
  | backend text => exact .retrieval rfl

theorem Reports.blamesRequest_eq {e : SearchError} {e' : StoreError} (h : e.Reports e') :
    e.blamesRequest = e'.blamesRequest := by
  cases h with
  | collectionNotFound collection => rfl
  | accessDenied collection => rfl
  | retrieval he => exact he.symm

end SearchError

namespace Plan

variable {x : Planner} {index : FieldIndex} {settings : Settings} {f : CompFilter} {p : Plan}

/-- A planner can check what it has planned. -/
theorem exists_check (h : x.plan f = .ok p) : ∃ check, p.check x = .ok check := by
  unfold check
  split
  · exact ⟨_, rfl⟩
  · -- only a legacy plan is read again, and all that it defers was read when it was planned
    obtain ⟨predicates, hread, -⟩ := deferredPredicates_asks (Planner.readable_plan h)
    rw [hread]
    exact ⟨_, rfl⟩

/-- The second check keeps what passes a test that does not depend on what was found. -/
theorem exists_refine (h : (settings.planner index).plan f = .ok p) :
    ∃ keep : Resource → Bool, ∀ found, p.refine index settings found = .ok (found.filter keep) := by
  cases hr : p.recheck with
  | false =>
    refine ⟨fun _ => true, fun found => ?_⟩
    rw [refine, hr, List.filter_true]
    rfl
  | true =>
    obtain ⟨check, hcheck⟩ := exists_check h
    refine ⟨fun r => settings.allows r && check r, fun found => ?_⟩
    rw [refine, hr, hcheck]
    rfl

end Plan

/-- A filter without a plan is refused whatever the store answers. With a plan, the search fails
exactly as the store does for its root, and blames the request where the store does; where the store
answers, the search keeps those resources that pass a test that depends on the plan alone. -/
theorem search_outcome (index : FieldIndex) (settings : Settings) (f : CompFilter) (scope : Scope) :
    (∀ e, (settings.planner index).plan f = .error e →
      ∀ store, search store index settings f scope = .error (.filter e)) ∧
    ∀ plan, (settings.planner index).plan f = .ok plan →
      ∃ keep : Resource → Bool,
        (∀ found, plan.refine index settings found = .ok (found.filter keep)) ∧
        ∀ store : Store,
          (∀ e, store plan.root scope .full = .error e →
            ∃ e', search store index settings f scope = .error e' ∧ e'.Reports e ∧
              e'.blamesRequest = e.blamesRequest) ∧
          ∀ found, store plan.root scope .full = .ok found →
            search store index settings f scope = .ok (found.filter keep) := by
  constructor
  · intro e he store
    simp only [search, he]
  · intro plan hplan
    obtain ⟨keep, hkeep⟩ := Plan.exists_refine hplan
    refine ⟨keep, hkeep, fun store => ⟨fun e he => ?_, fun found hfound => ?_⟩⟩
    · have hreports := SearchError.reports_ofStore e
      exact ⟨.ofStore e, by simp only [search, hplan, he], hreports, hreports.blamesRequest_eq⟩
    · simp only [search, hplan, hfound, hkeep]

def lockedStore : Store := fun _ _ _ => .error (.accessDenied "/work/")

theorem search_outcome_remindedEvents :
    ((({ mode := .legacyAnyOf } : Settings).planner .standard).plan remindedEvents =
        .ok remindedPlan ∧
      lockedStore remindedPlan.root {} .full = .error (.accessDenied "/work/")) ∧
    (∃ found, remindedPlan.refine .standard { mode := .legacyAnyOf }
        [silentEvent, remindedEvent] = .ok found) ∧
    ∃ e, search lockedStore .standard { mode := .legacyAnyOf } remindedEvents {} = .error e ∧
      e.Reports (.accessDenied "/work/") ∧ e.blamesRequest = true := by
  have hplan : (({ mode := .legacyAnyOf } : Settings).planner .standard).plan remindedEvents =
      .ok remindedPlan := rfl
  obtain ⟨-, hplanned⟩ := search_outcome .standard { mode := .legacyAnyOf } remindedEvents {}
  obtain ⟨keep, hkeep, hstore⟩ := hplanned remindedPlan hplan
  exact ⟨⟨hplan, rfl⟩, ⟨_, hkeep [silentEvent, remindedEvent]⟩, (hstore lockedStore).1 _ rfl⟩

end CalendarSearch
