import CalendarSearch.Proofs.Retrieval

/-! # Collections below a path

A recursive scope compares the texts of paths and not their parts. What lies below a path that ends
in a `/` is just what begins with it. A path without one also reaches its neighbours, whose names
only begin as its last name does. -/

namespace CalendarSearch

namespace Scope

def slashed (path : String) : List Char :=
  if path.toList.getLast? = some '/' then path.toList else path.toList ++ ['/']

/-- The collection is the one at the path, or lies below it. -/
def Nested (path collection : String) : Prop :=
  collection = path ∨ slashed path <+: collection.toList

/-- The path stops in the middle of a name of the collection. -/
def Neighbours (path collection : String) : Prop :=
  path.toList.getLast? ≠ some '/' ∧
    ∃ c rest, collection.toList = path.toList ++ c :: rest ∧ c ≠ '/'

variable {path collection : String}

/-- Paths are compared as texts: a recursive path covers all that starts with it. -/
theorem covers_recursive_iff :
    covers true path collection = true ↔ path.toList <+: collection.toList := by
  rw [covers, if_pos rfl, List.isPrefixOf_iff_prefix]

theorem Nested.covers (h : Nested path collection) : covers true path collection = true := by
  rw [covers_recursive_iff]
  rcases h with rfl | h
  · exact List.prefix_refl _
  · unfold slashed at h
    split at h
    · exact h
    · exact (List.prefix_append _ _).trans h

/-- A path reaches what is nested in it, and its neighbours. -/
theorem covers_iff : covers true path collection = true ↔
    Nested path collection ∨ Neighbours path collection := by
  constructor
  · intro h
    obtain ⟨rest, hrest⟩ := covers_recursive_iff.mp h
    by_cases hslash : path.toList.getLast? = some '/'
    · refine .inl (.inr ?_)
      rw [slashed, if_pos hslash]
      exact ⟨rest, hrest⟩
    · cases rest with
      | nil => exact .inl (.inl (String.toList_injective (by simpa using hrest.symm)))
      | cons c rest =>
        by_cases hc : c = '/'
        · refine .inl (.inr ⟨rest, ?_⟩)
          rw [slashed, if_neg hslash, ← hrest, hc, List.append_assoc]
          rfl
        · exact .inr ⟨hslash, c, rest, hrest.symm, hc⟩
  · rintro (h | ⟨-, c, rest, hrest, -⟩)
    · exact h.covers
    · exact covers_recursive_iff.mpr ⟨c :: rest, hrest.symm⟩

/-- No neighbour is nested. -/
theorem Neighbours.not_nested (h : Neighbours path collection) : ¬ Nested path collection := by
  obtain ⟨hslash, c, rest, hrest, hc⟩ := h
  rintro (rfl | ⟨rest', hrest'⟩)
  · simp at hrest
  · rw [slashed, if_neg hslash, hrest, List.append_assoc, List.append_cancel_left_eq] at hrest'
    cases hrest'
    exact hc rfl

/-- A path that ends in a `/` has no neighbours. -/
theorem not_neighbours_of_slash (h : path.toList.getLast? = some '/') :
    ¬ Neighbours path collection := fun hn => hn.1 h

end Scope

namespace Snapshot

open Scope

variable {rs : List Resource} {scope : Scope} {path : String}

/-- Nothing stored is a neighbour of a path of the scope. -/
def Apart (rs : List Resource) (scope : Scope) : Prop :=
  ∀ path ∈ scope.collections, ∀ r ∈ rs, ¬ Neighbours path r.collection

/-- With no neighbour in the store, being covered is being nested. -/
theorem Apart.covers_iff (h : Apart rs scope) (hrecursive : scope.recursive = true)
    (hpath : path ∈ scope.collections) {r : Resource} (hr : r ∈ rs) :
    covers scope.recursive path r.collection = true ↔ Nested path r.collection := by
  rw [hrecursive, Scope.covers_iff, or_iff_left (h path hpath r hr)]

theorem Apart.holds_iff (h : Apart rs scope) (hrecursive : scope.recursive = true)
    (hpath : path ∈ scope.collections) :
    Holds rs scope path ↔ ∃ r ∈ rs, Nested path r.collection :=
  exists_congr fun _ => and_congr_right fun hr => h.covers_iff hrecursive hpath hr

/-- With no neighbour among its paths, a scope admits what is nested below one of them. -/
theorem admits_of_apart {collection : String} (hrecursive : scope.recursive = true)
    (h : ∀ path ∈ scope.collections, ¬ Neighbours path collection) :
    scope.admits collection = true ↔
      scope.collections = [] ∨ ∃ path ∈ scope.collections, Nested path collection := by
  rw [Scope.admits_iff, hrecursive]
  refine or_congr_right <| exists_congr fun path => and_congr_right fun hpath => ?_
  rw [Scope.covers_iff, or_iff_left (h path hpath)]

/-- A recursive path reaches the collections nested in it and its neighbours, which no path has that
ends in a `/`. Where a collection is no neighbour, a scope admits it if it is nested in one of the
paths. Where nothing stored is one, a path is missing if nothing is nested in it, and what is found
is nested in one of the paths. -/
theorem recursive_nested (rs : List Resource) {scope : Scope}
    (hrecursive : scope.recursive = true) :
    (∀ path collection, (covers true path collection = true ↔
        Nested path collection ∨ Neighbours path collection) ∧
      ¬ (Nested path collection ∧ Neighbours path collection) ∧
      (path.toList.getLast? = some '/' → ¬ Neighbours path collection)) ∧
    (∀ collection, (∀ path ∈ scope.collections, ¬ Neighbours path collection) →
      (scope.admits collection = true ↔
        scope.collections = [] ∨ ∃ path ∈ scope.collections, Nested path collection)) ∧
    (Apart rs scope →
      (∀ path, missing rs scope = some path ↔ ∃ before after,
        scope.collections = before ++ path :: after ∧
        (∀ q ∈ before, ∃ r ∈ rs, Nested q r.collection) ∧ ∀ r ∈ rs, ¬ Nested path r.collection) ∧
      ((∀ path ∈ scope.collections, ∃ r ∈ rs, Nested path r.collection) →
        ∀ predicate detail, ∃ found, answer rs predicate scope detail = .ok found ∧
          IsExcerpt (fun r : Resource =>
            (scope.collections = [] ∨ ∃ path ∈ scope.collections, Nested path r.collection) ∧
            ∀ p ∈ predicate, p.selects r = true) detail.apply rs found)) := by
  refine ⟨fun path collection => ⟨Scope.covers_iff, fun h => h.2.not_nested h.1,
    not_neighbours_of_slash⟩, fun collection => admits_of_apart hrecursive,
    fun h => ⟨?missing, ?found⟩⟩
  case missing =>
    intro path
    rw [missing_eq_some_iff]
    refine exists_congr fun before => exists_congr fun after => and_congr_right fun hsplit => ?_
    have hmem {q : String} (hq : q ∈ before ∨ q = path) : q ∈ scope.collections := by
      rw [hsplit]
      rcases hq with hq | rfl
      · exact List.mem_append_left _ hq
      · exact List.mem_append_right _ List.mem_cons_self
    refine and_congr ?_ ?_
    · exact forall₂_congr fun q hq => h.holds_iff hrecursive (hmem (.inl hq))
    · rw [h.holds_iff hrecursive (hmem (.inr rfl))]
      simp only [not_exists, not_and]
  case found =>
    intro hholds predicate detail
    have hknown : ∀ path ∈ scope.collections, Holds rs scope path := fun path hpath =>
      (h.holds_iff hrecursive hpath).mpr (hholds path hpath)
    refine ⟨_, answer_of_none (missing_eq_none hknown), ?_⟩
    exact (isExcerpt_filter detail.apply rs fun r => wanted_iff).congr fun r hr =>
      and_congr_left fun _ => by
        rw [← Scope.admits_iff, admits_of_apart hrecursive fun path hpath => h path hpath r hr]

def bareWork : Scope := { collections := ["/work"], recursive := true }

/-- An event in a collection whose name begins as the one of work does. -/
def workshop : List Resource :=
  [{ href := "/workshop/1.ics", collection := "/workshop/", component := invited }]

theorem neighbour_found :
    bareWork.recursive = true ∧ ¬ Nested "/work" "/workshop/" ∧
      covers true "/work" "/workshop/" = true ∧ bareWork.admits "/workshop/" = true ∧
      missing workshop bareWork = none ∧ answer workshop none bareWork .full = .ok workshop := by
  have hneighbours : Neighbours "/work" "/workshop/" :=
    ⟨by decide, 's', "hop/".toList, rfl, by decide⟩
  exact ⟨rfl, hneighbours.not_nested, rfl, rfl, rfl, rfl⟩

theorem recursive_nested_workEvents :
    bareWork.recursive = true ∧ Apart workEvents bareWork ∧ missing workEvents bareWork = none ∧
      bareWork.admits "/work/old/" = true ∧ bareWork.admits "/home/" = false ∧
      IsExcerpt (fun r : Resource =>
        (bareWork.collections = [] ∨ ∃ path ∈ bareWork.collections, Nested path r.collection) ∧
        ∀ p ∈ some reviews, p.selects r = true)
        (Detail.only [.attendee]).apply workEvents workGuests := by
  have hrecursive : bareWork.recursive = true := rfl
  have hwork : Nested "/work" "/work/" := .inr ⟨[], rfl⟩
  have hold : Nested "/work" "/work/old/" := .inr ⟨"old/".toList, rfl⟩
  have hhome : ¬ Neighbours "/work" "/home/" := fun h =>
    absurd (Scope.covers_iff.mpr (.inr h)) (by decide)
  have hapart : Apart workEvents bareWork := by
    intro path hpath
    rw [List.mem_singleton.mp hpath]
    rw [workEvents, List.forall_mem_cons, List.forall_mem_cons, List.forall_mem_singleton]
    exact ⟨fun h => h.not_nested hwork, hhome, fun h => h.not_nested hold⟩
  have hknown : ∀ path ∈ bareWork.collections, ∃ r ∈ workEvents, Nested path r.collection := by
    intro path hpath
    rw [List.mem_singleton.mp hpath]
    exact ⟨workEvents[0], List.getElem_mem _, hwork⟩
  obtain ⟨-, hadmits, hstored⟩ := recursive_nested workEvents hrecursive
  obtain ⟨found, hfound, hexcerpt⟩ :=
    (hstored hapart).2 hknown (some reviews) (.only [.attendee])
  have hanswer : answer workEvents (some reviews) bareWork (.only [.attendee]) =
      .ok workGuests := rfl
  cases hanswer.symm.trans hfound
  have hinside : bareWork.admits "/work/old/" = true :=
    (hadmits "/work/old/" fun path hpath h =>
      h.not_nested (List.mem_singleton.mp hpath ▸ hold)).mpr
      (.inr ⟨"/work", List.mem_singleton_self _, hold⟩)
  exact ⟨hrecursive, hapart, rfl, hinside, rfl, hexcerpt⟩

end Snapshot

end CalendarSearch
