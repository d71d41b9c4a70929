import CalendarSearch.Store
import Mathlib.Data.List.Lattice

/-! # What a snapshot answers

A snapshot looks for the listed paths before it looks at the predicate, and at the predicate before
it leaves out properties. So the error depends on the scope alone, and what is left out of a
resource has no part in whether it is found. Answers are compared place by place, since a snapshot
may hold one resource twice. -/

namespace CalendarSearch

/-! ### Excerpts of a list -/

/-- The second list shows the wanted members of the first, in order, and once for each place where
one stands. -/
def IsExcerpt {α β : Type} (wanted : α → Prop) (shown : α → β) (as : List α) (bs : List β) : Prop :=
  ∃ places : List Nat, places.Pairwise (· < ·) ∧
    (∀ i, i ∈ places ↔ ∃ a, as[i]? = some a ∧ wanted a) ∧
    bs.map some = places.map fun i => as[i]?.map shown

/-- A filter followed by a map is an excerpt: in order, each entry once, and each as it is shown. -/
theorem isExcerpt_filter {α β : Type} {wanted : α → Prop} {p : α → Bool} (shown : α → β)
    (as : List α) (hp : ∀ a, p a = true ↔ wanted a) :
    IsExcerpt wanted shown as ((as.filter p).map shown) := by
  have hfst : (as.zipIdx.filter fun x => p x.1).map Prod.fst = as.filter p := by
    have hmap := List.filter_map (p := p) (f := Prod.fst) (l := as.zipIdx)
    rw [List.zipIdx_map_fst] at hmap
    exact hmap.symm
  refine ⟨(as.zipIdx.filter fun x => p x.1).map Prod.snd, ?_, ?_, ?_⟩
  · have hall : (as.zipIdx.map Prod.snd).Pairwise (· < ·) := by
      rw [List.zipIdx_map_snd]
      exact List.pairwise_lt_range'
    exact hall.sublist (List.filter_sublist.map Prod.snd)
  · intro i
    simp only [List.mem_map, List.mem_filter, List.mem_zipIdx_iff_getElem?, Prod.exists,
      exists_eq_right, hp]
  · rw [← hfst, List.map_map, List.map_map, List.map_map]
    refine List.map_congr_left fun x hx => ?_
    have hget := List.mem_zipIdx_iff_getElem?.mp (List.mem_filter.mp hx).1
    simp only [Function.comp_apply, hget, Option.map_some]

theorem IsExcerpt.congr {α β : Type} {wanted wanted' : α → Prop} {shown : α → β} {as : List α}
    {bs : List β} (h : IsExcerpt wanted shown as bs) (hwanted : ∀ a ∈ as, wanted a ↔ wanted' a) :
    IsExcerpt wanted' shown as bs := by
  obtain ⟨places, hordered, hmem, hshown⟩ := h
  refine ⟨places, hordered, fun i => (hmem i).trans ?_, hshown⟩
  exact exists_congr fun a => and_congr_right fun ha => hwanted a (List.mem_of_getElem? ha)

/-! ### Paths and scopes -/

namespace Snapshot

variable {rs : List Resource} {scope : Scope}

/-- Something is stored at a path of the scope. -/
def Holds (rs : List Resource) (scope : Scope) (path : String) : Prop :=
  ∃ r ∈ rs, Scope.covers scope.recursive path r.collection = true

/-- A path of the scope at which nothing is stored, though something is at those before it. -/
def FirstMissing (rs : List Resource) (scope : Scope) (path : String) : Prop :=
  ∃ before after, scope.collections = before ++ path :: after ∧
    (∀ q ∈ before, Holds rs scope q) ∧ ¬ Holds rs scope path

/-- The path that is reported is the first of the scope with nothing stored under it. -/
theorem missing_eq_some_iff {path : String} :
    missing rs scope = some path ↔ FirstMissing rs scope path := by
  have hholds (q : String) :
      (!rs.any fun r => Scope.covers scope.recursive q r.collection) = false ↔
        Holds rs scope q := by
    rw [Bool.not_eq_false', List.any_eq_true]
    rfl
  rw [missing, List.find?_eq_some_iff_append]
  constructor
  · rintro ⟨hpath, before, after, hsplit, hbefore⟩
    refine ⟨before, after, hsplit, fun q hq => (hholds q).mp ?_, fun h => ?_⟩
    · simpa using hbefore q hq
    · rw [(hholds path).mpr h] at hpath
      cases hpath
  · rintro ⟨before, after, hsplit, hbefore, hpath⟩
    refine ⟨?_, before, after, hsplit, fun q hq => ?_⟩
    · simpa [← hholds] using hpath
    · rw [(hholds q).mpr (hbefore q hq)]
      rfl

theorem missing_eq_none (h : ∀ path ∈ scope.collections, Holds rs scope path) :
    missing rs scope = none := by
  cases hmissing : missing rs scope with
  | none => rfl
  | some path =>
    obtain ⟨before, after, hsplit, -, hpath⟩ := missing_eq_some_iff.mp hmissing
    exact absurd (h path (by simp [hsplit])) hpath

end Snapshot

/-- A scope without paths admits every collection. -/
theorem Scope.admits_iff {scope : Scope} {collection : String} :
    scope.admits collection = true ↔
      scope.collections = [] ∨ ∃ path ∈ scope.collections,
        Scope.covers scope.recursive path collection = true := by
  rw [admits, Bool.or_eq_true, List.isEmpty_iff, List.any_eq_true]

/-! ### Details -/

namespace Detail

/-- The resource has lost all properties but those to keep, and its alarms unless they are to be
kept too, and nothing else. -/
structure Trims (keep : List PropertyName) (r s : Resource) : Prop where
  properties : IsExcerpt (fun p : Property => p.id ∈ keep) id r.component.properties
    s.component.properties
  alarms : s.component.alarms = if .valarm ∈ keep then r.component.alarms else []
  kind : s.component.kind = r.component.kind
  href : s.href = r.href
  collection : s.collection = r.collection
  container : s.container = r.container

theorem trims_apply (keep : List PropertyName) (r : Resource) :
    Trims keep r ((only keep).apply r) where
  properties := by
    have h : IsExcerpt (fun p : Property => p.id ∈ keep) id r.component.properties
        ((r.component.properties.filter (·.id ∈ keep)).map id) :=
      isExcerpt_filter id r.component.properties fun p => decide_eq_true_iff
    rwa [List.map_id] at h
  alarms := rfl
  kind := rfl
  href := rfl
  collection := rfl
  container := rfl

theorem apply_apply (keep keep' : List PropertyName) (r : Resource) :
    (only keep).apply ((only keep').apply r) = (only (keep ∩ keep')).apply r := by
  have hproperties : (r.component.properties.filter (·.id ∈ keep')).filter (·.id ∈ keep) =
      r.component.properties.filter (·.id ∈ keep ∩ keep') := by
    rw [List.filter_filter]
    refine List.filter_congr fun p _ => ?_
    rw [← Bool.decide_and]
    exact decide_eq_decide.mpr List.mem_inter_iff.symm
  have halarms : (if .valarm ∈ keep then
      (if .valarm ∈ keep' then r.component.alarms else []) else []) =
        if .valarm ∈ keep ∩ keep' then r.component.alarms else [] := by
    rw [← ite_and]
    exact if_congr List.mem_inter_iff.symm rfl rfl
  simp only [apply, hproperties, halarms]

end Detail

/-! ### Answers -/

namespace Snapshot

variable {rs : List Resource} {predicate : Option Predicate} {scope : Scope} {detail : Detail}

/-- Is a resource in the scope, and does it satisfy the predicate? -/
def wanted (predicate : Option Predicate) (scope : Scope) (r : Resource) : Bool :=
  scope.admits r.collection && predicate.all (·.selects r)

theorem wanted_iff {r : Resource} :
    wanted predicate scope r = true ↔
      (scope.collections = [] ∨ ∃ path ∈ scope.collections,
        Scope.covers scope.recursive path r.collection = true) ∧
      ∀ p ∈ predicate, p.selects r = true := by
  rw [wanted, Bool.and_eq_true, Scope.admits_iff, Option.all_eq_true]
  rfl

theorem answer_of_missing {path : String} (h : missing rs scope = some path) :
    answer rs predicate scope detail = .error (.collectionNotFound path) := by
  simp only [answer, h]

theorem answer_of_none (h : missing rs scope = none) :
    answer rs predicate scope detail =
      .ok ((rs.filter (wanted predicate scope)).map detail.apply) := by
  simp only [answer, h]
  rfl

/-- A missing collection is the only way a snapshot fails. -/
theorem answer_eq_error_iff {e : StoreError} :
    answer rs predicate scope detail = .error e ↔
      ∃ path, FirstMissing rs scope path ∧ e = .collectionNotFound path := by
  simp only [← missing_eq_some_iff]
  cases hmissing : missing rs scope with
  | some path =>
    rw [answer_of_missing hmissing, Except.error.injEq]
    constructor
    · rintro rfl
      exact ⟨path, rfl, rfl⟩
    · rintro ⟨path', hpath, rfl⟩
      cases hpath
      rfl
  | none => simp [answer_of_none hmissing]

/-- The detail never changes which resources are found. -/
theorem answer_eq_map_full :
    answer rs predicate scope detail =
      (answer rs predicate scope .full).map (List.map detail.apply) := by
  have hfull (l : List Resource) : l.map Detail.full.apply = l := List.map_id' l
  cases hmissing : missing rs scope with
  | some path =>
    rw [answer_of_missing hmissing, answer_of_missing hmissing]
    rfl
  | none =>
    rw [answer_of_none hmissing, answer_of_none hmissing, hfull]
    rfl

/-- A snapshot fails with the first path at which nothing is stored, whatever is asked for, or shows
in order, and once each, the resources in the scope that satisfy the predicate with all they have.
Details are trimmed afterwards, and trimming twice keeps what both keep. -/
theorem answer_exact (rs : List Resource) (predicate : Option Predicate) (scope : Scope)
    (detail : Detail) :
    (∀ e, answer rs predicate scope detail = .error e ↔
      ∃ path, FirstMissing rs scope path ∧ e = .collectionNotFound path) ∧
    ((∀ path ∈ scope.collections, Holds rs scope path) →
      ∃ found, answer rs predicate scope detail = .ok found ∧
        IsExcerpt (fun r : Resource =>
          (scope.collections = [] ∨ ∃ path ∈ scope.collections,
            Scope.covers scope.recursive path r.collection = true) ∧
          ∀ p ∈ predicate, p.selects r = true) detail.apply rs found) ∧
    answer rs predicate scope detail =
      (answer rs predicate scope .full).map (List.map detail.apply) ∧
    (∀ keep r, Detail.Trims keep r ((Detail.only keep).apply r)) ∧
    ∀ keep keep' r, (Detail.only keep).apply ((Detail.only keep').apply r) =
      (Detail.only (keep ∩ keep')).apply r := by
  refine ⟨fun e => answer_eq_error_iff, fun h => ?_, answer_eq_map_full, Detail.trims_apply,
    Detail.apply_apply⟩
  exact ⟨_, answer_of_none (missing_eq_none h),
    isExcerpt_filter detail.apply rs fun r => wanted_iff⟩

def invited : Component where
  kind := .event
  properties := [
    { id := .uid, value := "7" },
    { id := .summary, value := "Review" },
    { id := .attendee, value := "mailto:lisa@example.com" },
    { id := .attendee, value := "mailto:bernard@example.net" }]
  alarms := [{ kind := .alarm }]

def workEvents : List Resource := [
  { href := "/work/1.ics", collection := "/work/", component := invited },
  { href := "/home/2.ics", collection := "/home/", component := invited },
  { href := "/work/old/3.ics", collection := "/work/old/", component := invited }]

def workScope : Scope := { collections := ["/work/", "/work/old/"], recursive := true }

def reviews : Predicate := .propertyText .summary ⟨"review", true, false⟩

def guests : Component where
  kind := .event
  properties := [
    { id := .attendee, value := "mailto:lisa@example.com" },
    { id := .attendee, value := "mailto:bernard@example.net" }]

def workGuests : List Resource := [
  { href := "/work/1.ics", collection := "/work/", component := guests },
  { href := "/work/old/3.ics", collection := "/work/old/", component := guests }]

theorem answer_exact_workEvents :
    (∀ path ∈ workScope.collections, Holds workEvents workScope path) ∧
    answer workEvents (some reviews) workScope (.only [.attendee]) = .ok workGuests ∧
    IsExcerpt (fun r : Resource =>
      (workScope.collections = [] ∨ ∃ path ∈ workScope.collections,
        Scope.covers workScope.recursive path r.collection = true) ∧
      ∀ p ∈ some reviews, p.selects r = true)
      (Detail.only [.attendee]).apply workEvents workGuests := by
  have hholds : ∀ path ∈ workScope.collections, Holds workEvents workScope path := by
    intro path hpath
    rw [workScope, List.mem_pair] at hpath
    rcases hpath with rfl | rfl
    · exact ⟨workEvents[0], List.getElem_mem _, rfl⟩
    · exact ⟨workEvents[2], List.getElem_mem _, rfl⟩
  have hanswer : answer workEvents (some reviews) workScope (.only [.attendee]) =
      .ok workGuests := rfl
  obtain ⟨found, hfound, hexcerpt⟩ :=
    (answer_exact workEvents (some reviews) workScope (.only [.attendee])).2.1 hholds
  cases hanswer.symm.trans hfound
  exact ⟨hholds, hanswer, hexcerpt⟩

end Snapshot

end CalendarSearch
