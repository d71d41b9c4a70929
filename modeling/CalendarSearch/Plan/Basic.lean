import CalendarSearch.Filter.Basic
import CalendarSearch.Predicate.Basic
import CalendarSearch.Settings.Basic

/-!
A plan for a search: the predicate that the store searches by, and what must be checked again on the
resources that it finds.
-/

namespace CalendarSearch

/-- Prop-filters of one component node that the store cannot search by. -/
structure Deferral where
  kind : ComponentKind
  test : Junction
  filters : List PropFilter
deriving DecidableEq, Repr

structure Plan where
  /-- What the store searches by; without it, the store returns everything. -/
  root : Option Predicate := none
  /-- Must the resources be checked again? -/
  recheck : Bool := false
  /-- The complete predicate, where the root is weaker. -/
  residual : Option Predicate := none
  /-- What was deferred, a node before the nodes inside it. -/
  deferred : List Deferral := []
  /-- The kinds that the filter names, in the order of its nodes. -/
  named : List ComponentKind := []
  mode : RecheckMode
deriving Repr

namespace Plan

/-- Defers some prop-filters; if there are none, nothing is to be checked again for them. -/
def addDeferral (p : Plan) (d : Deferral) : Plan :=
  if d.filters.isEmpty then p
  else { p with deferred := p.deferred ++ [d], recheck := true }

def deferralsOf (p : Plan) (kind : ComponentKind) : List Deferral :=
  p.deferred.filter (·.kind = kind)

/-- The kinds for which something was deferred, each with its groups. All that was deferred is kept
in one list, so it holds of every list that a kind has one entry here, with a group in it. -/
def deferralsByKind (p : Plan) : List (ComponentKind × List Deferral) :=
  (ComponentKind.all.map fun kind => (kind, p.deferralsOf kind)).filter (!·.2.isEmpty)

/-- The kinds that the filter names, each once. -/
def kinds (p : Plan) : List ComponentKind := ComponentKind.all.filter (· ∈ p.named)

/-- Does the plan select every resource? -/
def selectsAll (p : Plan) : Bool := p.root.isNone && !p.recheck

end Plan

end CalendarSearch
