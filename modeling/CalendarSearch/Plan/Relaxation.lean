import CalendarSearch.Predicate.Basic

/-!
A predicate together with a weaker one. The *full* predicate is what a filter asks; the *coarse* one
is what a store can search by itself, and everything that satisfies the full predicate satisfies it.
A missing predicate is true of everything.
-/

namespace CalendarSearch

structure Relaxation where
  full : Option Predicate
  coarse : Option Predicate
  /-- Do the two predicates say the same? -/
  exact : Bool
deriving Repr

namespace Relaxation

/-- The predicate that is true of everything. -/
def everything : Relaxation := ⟨none, none, true⟩

/-- A predicate that a store can search by. -/
def ofPredicate (p : Predicate) : Relaxation := ⟨some p, some p, true⟩

/-- All of the parts. -/
def meet (parts : List Relaxation) : Relaxation where
  full := Predicate.conjoin (parts.map full)
  coarse := Predicate.conjoin (parts.map coarse)
  exact := parts.all exact

/-- The disjunction of predicates, one of which may be true of everything. -/
def disjoin (ps : List (Option Predicate)) : Option Predicate :=
  (ps.mapM id).bind (Predicate.ofParts false)

/-- Any of the parts; if there are none, everything. -/
def join (parts : List Relaxation) : Relaxation where
  full := disjoin (parts.map full)
  coarse := disjoin (parts.map coarse)
  exact := parts.all exact

def ofParts (all : Bool) (parts : List Relaxation) : Relaxation :=
  if all then meet parts else join parts

/-- The opposite of the full predicate. The opposite of a weaker predicate says nothing, so a coarse
predicate is only left where it is exact. -/
def opposite (r : Relaxation) : Relaxation where
  full := r.full.map Predicate.opposite
  coarse := if r.exact then r.coarse.map Predicate.opposite else none
  exact := r.exact

def hasAlarm : Predicate := .property .valarm true

def onAlarm (p : Option Predicate) : Predicate := p.elim hasAlarm .someAlarm

/-- Both predicates, said of one and the same alarm of a component. -/
def onOneAlarm (r : Relaxation) : Relaxation where
  full := some (onAlarm r.full)
  coarse := some (onAlarm r.coarse)
  exact := r.exact

end Relaxation

end CalendarSearch
