import CalendarSearch.Plan.Planner
import CalendarSearch.Store

/-!
A search from end to end: a plan is made for a filter, the store searches by the root of the plan,
and what it finds is checked again where the plan asks for it.
-/

namespace CalendarSearch

inductive SearchError where
  | filter (error : FilterError)
  | collectionNotFound (collection : String)
  | accessDenied (collection : String)
  | retrieval (error : StoreError)
deriving DecidableEq, Repr

namespace SearchError

/-- What the failure of a store means for the search. -/
def ofStore : StoreError → SearchError
  | .collectionNotFound collection => collectionNotFound collection
  | .accessDenied collection => accessDenied collection
  | error => retrieval error

def message : SearchError → String
  | filter error => error.message
  | collectionNotFound collection => s!"collection not found: {collection}"
  | accessDenied collection => s!"access denied to collection {collection}"
  | retrieval error => s!"retrieval failed: {error.message}"

/-- The HTTP status of the answer to a request that fails so. -/
def status : SearchError → Nat
  | filter error => if error.beyondSupport then 403 else 400
  | accessDenied _ => 403
  | collectionNotFound _ => 404
  | retrieval _ => 500

/-- Is the request at fault, and not the server? -/
def blamesRequest : SearchError → Bool
  | retrieval _ => false
  | _ => true

end SearchError

namespace Settings

def planner (s : Settings) (index : FieldIndex) : Planner :=
  { index, mode := s.mode, zone := s.floatingZone }

/-- Is a resource kept where the settings allow it? -/
def allows (s : Settings) (r : Resource) : Bool := s.container.all (Text.alike r.container)

/-- Without a container resources may be kept anywhere, and with one only there, in any case. -/
theorem allows_iff {s : Settings} {r : Resource} : s.allows r = true ↔
    ∀ container, s.container = some container → Text.fold r.container = Text.fold container := by
  simp only [allows, Option.all_eq_true, Text.alike, beq_iff_eq]

end Settings

namespace Plan

/-- Any of the prop-filters that were deferred for a kind. -/
def deferredPredicate (p : Plan) (x : Planner) (kind : ComponentKind) :
    Except FilterError (Option Predicate) := do
  let filters := (p.deferralsOf kind).flatMap Deferral.filters
  return Predicate.ofParts false (← filters.mapM fun f => return (← x.propCondition f).predicate)

def deferredPredicates (p : Plan) (x : Planner) :
    Except FilterError (List (ComponentKind × Predicate)) := do
  let found ← ComponentKind.all.mapM fun kind => return (kind, ← p.deferredPredicate x kind)
  return found.filterMap fun (kind, predicate) => predicate.map fun p => (kind, p)

/-- A resource passes with any of the prop-filters deferred for its kind, and, if it has alarms and
some were deferred for alarms, with any of those on one of its alarms. -/
def passes (predicates : List (ComponentKind × Predicate)) (r : Resource) : Bool :=
  let own := if r.kind = .alarm then none else predicates.lookup r.kind
  let alarm := if r.component.alarms.isEmpty then none else predicates.lookup .alarm
  own.all (·.selects r) && alarm.all fun p => (Predicate.someAlarm p).selects r

/-- What is checked again of each resource. -/
def check (p : Plan) (x : Planner) : Except FilterError (Resource → Bool) :=
  match p.mode with
  | .honorTest => .ok fun r => p.residual.all (·.selects r)
  | .legacyAnyOf => do return passes (← p.deferredPredicates x)

/-- The resources among those found that the plan selects. -/
def refine (p : Plan) (index : FieldIndex) (settings : Settings) (found : List Resource) :
    Except SearchError (List Resource) :=
  if p.recheck then
    match p.check (settings.planner index) with
    | .ok check => .ok (found.filter fun r => settings.allows r && check r)
    | .error e => .error (.filter e)
  else .ok found

end Plan

/-- Runs a search: a filter without a plan never reaches the store. -/
def search (store : Store) (index : FieldIndex) (settings : Settings) (f : CompFilter)
    (scope : Scope) : Except SearchError (List Resource) :=
  match (settings.planner index).plan f with
  | .error e => .error (.filter e)
  | .ok plan =>
    match store plan.root scope .full with
    | .error e => .error (.ofStore e)
    | .ok found => plan.refine index settings found

end CalendarSearch
