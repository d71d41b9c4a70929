import CalendarSearch.Proofs.Legacy

/-! # What a search of a snapshot finds

A snapshot gives what satisfies the root of a plan, and the second check leaves out some of that.
Both together come to one test of each resource, and a search finds, in the order of the snapshot,
the resources in the scope that pass the test. -/

namespace CalendarSearch

open Predicate (evalOptional)

namespace Plan

/-- The root and the second check together keep the resources that are wanted. -/
def Finds (p : Plan) (index : FieldIndex) (settings : Settings) (wanted : Resource → Bool) : Prop :=
  ∀ rs : List Resource,
    p.refine index settings (rs.filter fun r => p.root.all (·.selects r)) = .ok (rs.filter wanted)

variable {p : Plan} {index : FieldIndex} {settings : Settings} {f : CompFilter}

/-- Without a second check the container has no part in what is found. -/
theorem Honours.finds {holds : Component → Bool} (h : p.Honours holds) :
    p.Finds index settings fun r => holds r.component && (!p.recheck || settings.allows r) := by
  intro rs
  rw [h.refine_eq]
  by_cases hr : p.recheck = true
  · rw [if_pos hr, List.filter_filter, hr]
    congr 1
    refine List.filter_congr fun r _ => ?_
    have hroot : holds r.component = true → p.root.all (·.selects r) = true := h.root r.component
    by_cases hh : holds r.component = true
    · simp [hh, hroot hh]
    · simp [hh]
  · have hr : p.recheck = false := by simpa using hr
    have hroot (r : Resource) : p.root.all (·.selects r) = holds r.component :=
      h.root_eq hr r.component
    simp [hr, hroot]

/-- Without a container the second check leaves out nothing else. -/
theorem Honours.finds_everywhere {holds : Component → Bool} (h : p.Honours holds)
    (hcontainer : settings.container = none) :
    p.Finds index settings fun r => holds r.component := by
  have hallows (r : Resource) : settings.allows r = true :=
    Settings.allows_iff.mpr fun container h => by simp [hcontainer] at h
  have hfinds : p.Finds index settings fun r =>
      holds r.component && (!p.recheck || settings.allows r) := h.finds
  simpa only [hallows, Bool.or_true, Bool.and_true] using hfinds

theorem finds_legacy (hmode : settings.mode = .legacyAnyOf)
    (h : (settings.planner index).plan f = .ok p) :
    p.Finds index settings fun r => p.root.all (·.selects r) && (!p.recheck ||
      settings.allows r && (r.kind = .alarm || p.deferredHolds index r.component) &&
        p.deferredHoldsOfAlarms index r.component) := by
  intro rs
  rw [refine_legacy hmode h, Planner.recheck_plan h]
  by_cases hd : p.deferred.isEmpty = true
  · simp [hd]
  · have hd : p.deferred.isEmpty = false := by simpa using hd
    simp only [hd, Bool.false_eq_true, if_false, Bool.not_false, Bool.not_true, Bool.false_or,
      List.filter_filter]
    congr 1
    exact List.filter_congr fun r _ => Bool.and_comm _ _

end Plan

/-- A search of a snapshot fails with the first collection that is missing, or finds the resources
in the scope that the plan finds. -/
theorem search_snapshot {index : FieldIndex} {settings : Settings} {f : CompFilter} {p : Plan}
    {wanted : Resource → Bool} (h : (settings.planner index).plan f = .ok p)
    (hfinds : p.Finds index settings wanted) (rs : List Resource) (scope : Scope) :
    search (Snapshot.answer rs) index settings f scope =
      match Snapshot.missing rs scope with
      | some collection => .error (.collectionNotFound collection)
      | none => .ok ((rs.filter fun r => scope.admits r.collection).filter wanted) := by
  simp only [search, h]
  cases hm : Snapshot.missing rs scope with
  | some collection =>
    simp only [Snapshot.answer, hm]
    rfl
  | none =>
    have hfound : (rs.filter fun r => scope.admits r.collection && evalOptional none r.component
        p.root) = (rs.filter fun r => scope.admits r.collection).filter fun r =>
          p.root.all (·.selects r) := by
      rw [List.filter_filter]
      exact List.filter_congr fun r _ => Bool.and_comm _ _
    simp only [Snapshot.answer_full hm, hfound, hfinds _]

end CalendarSearch
