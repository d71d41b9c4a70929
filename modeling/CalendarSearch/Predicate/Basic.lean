import CalendarSearch.Component.Basic
import CalendarSearch.Time.Range

/-!
Predicates on components: what a filter asks, in a form that a store can search by. Smart
constructors keep conjunctions and disjunctions flat and cancel double negations.
-/

namespace CalendarSearch

/-- A text to search for in values, and whether it must be missing from them. -/
structure TextTest where
  value : String
  caseless : Bool
  negate : Bool
deriving DecidableEq, Repr

inductive Predicate where
  | and (parts : List Predicate)
  | or (parts : List Predicate)
  | not (part : Predicate)
  /-- The component is of this kind. -/
  | kind (kind : ComponentKind)
  /-- The time that the component takes up meets the range. -/
  | occursIn (range : TimeRange)
  /-- One of the alarms of the component satisfies the predicate. -/
  | someAlarm (part : Predicate)
  /-- The component is an alarm, and fires in the range. -/
  | firesIn (range : TimeRange)
  /-- The property is there, or is missing if `expected` is false. -/
  | property (id : PropertyName) (expected : Bool)
  /-- A value of the property lies in the range. -/
  | propertyIn (id : PropertyName) (range : TimeRange)
  | propertyText (id : PropertyName) (test : TextTest)
  /-- An instance of the property has the parameter, or lacks it if `expected` is false. -/
  | param (id : PropertyName) (param : ParamName) (expected : Bool)
  | paramText (id : PropertyName) (param : ParamName) (test : TextTest)
deriving Repr

namespace Predicate

/-- The parts of a conjunction; any other predicate is its own only part. -/
def conjuncts : Predicate → List Predicate
  | and parts => parts
  | p => [p]

/-- The parts of a disjunction; any other predicate is its own only part. -/
def disjuncts : Predicate → List Predicate
  | or parts => parts
  | p => [p]

/-- Both predicates, as one flat conjunction. -/
def both (p q : Predicate) : Predicate := and (p.conjuncts ++ q.conjuncts)

/-- Either predicate, as one flat disjunction. -/
def either (p q : Predicate) : Predicate := or (p.disjuncts ++ q.disjuncts)

def opposite : Predicate → Predicate
  | not p => p
  | p => not p

def isNot : Predicate → Bool
  | not _ => true
  | _ => false

/-- All or any of several predicates; none at all, or the only one, stand for themselves. -/
def ofParts (all : Bool) : List Predicate → Option Predicate
  | [] => none
  | [p] => some p
  | ps => some (if all then and ps else or ps)

/-- Both of two predicates, either of which may be missing. -/
def bothOptional : Option Predicate → Option Predicate → Option Predicate
  | some p, some q => some (p.both q)
  | p, none => p
  | none, q => q

/-- All of the predicates that are there, as one flat conjunction. -/
def conjoin (ps : List (Option Predicate)) : Option Predicate := ps.foldl bothOptional none

end Predicate

end CalendarSearch
