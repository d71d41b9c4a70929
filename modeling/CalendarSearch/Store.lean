import CalendarSearch.Predicate.Eval

/-!
Stores of calendar resources. A store answers a predicate, within a scope, with the resources that
satisfy it. A *snapshot* is a store that holds its resources in memory.
-/

namespace CalendarSearch

inductive StoreError where
  | collectionNotFound (collection : String)
  | accessDenied (collection : String)
  /-- The file of a snapshot cannot be read. -/
  | unreadable (path cause : String)
  /-- The file of a snapshot is no list of resources. -/
  | malformed (path : String)
  | backend (text : String)
deriving DecidableEq, Repr

namespace StoreError

def message : StoreError → String
  | collectionNotFound collection => s!"collection not found: {collection}"
  | accessDenied collection => s!"access denied to collection {collection}"
  | unreadable path cause => s!"failed to read snapshot '{path}': {cause}"
  | malformed path => s!"invalid snapshot '{path}': not a list of resources"
  | backend text => s!"store backend error: {text}"

/-- Is the request at fault, and not the store? -/
def blamesRequest : StoreError → Bool
  | collectionNotFound _ | accessDenied _ => true
  | unreadable .. | malformed _ | backend _ => false

end StoreError

/-- The collections that are searched: those listed, or all if none is; `recursive` adds what lies
below them. -/
structure Scope where
  collections : List String := []
  recursive : Bool := false
deriving DecidableEq, Repr

namespace Scope

/-- Is a collection covered by one listed path? -/
def covers (recursive : Bool) (path collection : String) : Bool :=
  if recursive then path.toList.isPrefixOf collection.toList else collection = path

def admits (s : Scope) (collection : String) : Bool :=
  s.collections.isEmpty || s.collections.any (covers s.recursive · collection)

end Scope

/-- How much of each resource is wanted. -/
inductive Detail where
  | full
  | only (properties : List PropertyName)
deriving DecidableEq, Repr

namespace Detail

/-- The resource with the wanted properties; its alarms stay if `VALARM` is wanted. -/
def apply (p : Detail) (r : Resource) : Resource :=
  match p with
  | full => r
  | only keep =>
    { r with component := { r.component with
        properties := r.component.properties.filter (·.id ∈ keep)
        alarms := if .valarm ∈ keep then r.component.alarms else [] } }

end Detail

/-- A store answers a predicate, or none for everything, within a scope. -/
abbrev Store := Option Predicate → Scope → Detail → Except StoreError (List Resource)

namespace Snapshot

/-- The first collection of the scope that holds nothing. -/
def missing (resources : List Resource) (scope : Scope) : Option String :=
  scope.collections.find? fun path =>
    !resources.any fun r => Scope.covers scope.recursive path r.collection

/-- Every resource in the scope that satisfies the predicate, in order. -/
def answer (resources : List Resource) : Store := fun predicate scope projection =>
  match missing resources scope with
  | some collection => .error (.collectionNotFound collection)
  | none =>
    .ok ((resources.filter fun r =>
      scope.admits r.collection && predicate.all (·.selects r)).map projection.apply)

end Snapshot

end CalendarSearch
