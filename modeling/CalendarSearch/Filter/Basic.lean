import CalendarSearch.Filter.Error

/-!
Filter descriptions: what a client asks for, node by node. A comp-filter describes a component, its
prop-filters the properties of that component, and their param-filters the parameters of those.
-/

namespace CalendarSearch

/-- How the conditions of a node are joined. -/
inductive Junction where
  | any | all
deriving DecidableEq, Repr

namespace Junction

/-- Reads a `test` attribute: everything but `allof` asks for any of the conditions. -/
def ofAttribute (value : Option String) : Junction :=
  if value = some "allof" then all else any

def name : Junction → String
  | any => "anyof"
  | all => "allof"

@[simp] theorem ofAttribute_name (j : Junction) : ofAttribute (some j.name) = j := by
  cases j <;> simp [ofAttribute, name]

end Junction

/-- The two attributes of a time range, as written. -/
structure RangeText where
  start : Option String := none
  stop : Option String := none
deriving DecidableEq, Repr

/-- Compares without regard to the case of ASCII letters. -/
def caselessCollation : String := "i;ascii-casemap"

/-- Compares character by character. -/
def octetCollation : String := "i;octet"

/-- A text that is searched for; `negate` asks that it be missing. -/
structure TextMatch where
  value : String
  collation : String := caselessCollation
  negate : Bool := false
deriving DecidableEq, Repr

/-- Is the search caseless? Only two collations are supported. -/
def TextMatch.caseless (t : TextMatch) : Except FilterError Bool :=
  if t.collation = caselessCollation then .ok true
  else if t.collation = octetCollation then .ok false
  else .error (.unsupportedCollation t.collation)

structure ParamFilter where
  name : String
  isNotDefined : Bool := false
  textMatch : Option TextMatch := none
deriving DecidableEq, Repr

structure PropFilter where
  name : String
  test : Junction := .any
  isNotDefined : Bool := false
  timeRange : Option RangeText := none
  textMatch : Option TextMatch := none
  paramFilters : List ParamFilter := []
deriving DecidableEq, Repr

/-- Does the filter say anything of the values or parameters of the property? -/
def PropFilter.hasConditions (f : PropFilter) : Bool :=
  f.timeRange.isSome || f.textMatch.isSome || !f.paramFilters.isEmpty

/-- Does the filter ask only that the property be there? -/
def PropFilter.asksPresenceOnly (f : PropFilter) : Bool := !f.isNotDefined && !f.hasConditions

structure CompFilter where
  name : String
  test : Junction := .any
  isNotDefined : Bool := false
  timeRange : Option RangeText := none
  propFilters : List PropFilter := []
  compFilters : List CompFilter := []
deriving Repr

/-- What holds of a node if it holds of the nodes inside it, holds of all nodes. -/
@[elab_as_elim]
theorem CompFilter.induction {P : CompFilter → Prop}
    (node : ∀ f : CompFilter, (∀ g ∈ f.compFilters, P g) → P f) : ∀ f, P f
  | ⟨name, test, isNotDefined, timeRange, propFilters, compFilters⟩ => by
    refine node _ fun g hg => ?_
    have hsize : sizeOf g < sizeOf compFilters := List.sizeOf_lt_of_mem hg
    exact CompFilter.induction node g
termination_by f => sizeOf f
decreasing_by
  simp only [CompFilter.mk.sizeOf_spec]
  omega

/-- Does the node set no condition of its own? -/
def CompFilter.isUnconditional (f : CompFilter) : Bool :=
  f.timeRange.isNone && f.compFilters.isEmpty && f.propFilters.isEmpty

end CalendarSearch
