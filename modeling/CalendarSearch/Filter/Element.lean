import CalendarSearch.Filter.Attributes
import CalendarSearch.Filter.Basic

/-!
Filters as a markup document holds them: a tree of elements with attributes and text. Reading is
strict about elements and lenient about attributes: an element that does not belong where it stands,
or stands there twice, is an error, and an attribute without a meaning is passed over.
-/

namespace CalendarSearch

structure Element where
  name : String
  attributes : Attributes := .empty
  children : List Element := []
  text : Option String := none
deriving Repr

namespace Element

/-- What holds of an element if it holds of its children, holds of all elements. -/
@[elab_as_elim]
theorem induction {P : Element → Prop}
    (element : ∀ e : Element, (∀ child ∈ e.children, P child) → P e) : ∀ e, P e
  | ⟨name, attributes, children, text⟩ => by
    refine element _ fun child hchild => ?_
    have hsize : sizeOf child < sizeOf children := List.sizeOf_lt_of_mem hchild
    exact induction element child
termination_by e => sizeOf e
decreasing_by
  simp only [Element.mk.sizeOf_spec]
  omega

def attribute? (e : Element) (name : String) : Option String := e.attributes.get? name

/-- The `name` attribute, which the elements of a filter must have. -/
def nameAttribute (e : Element) : Except FilterError String :=
  match e.attribute? "name" with
  | some name => .ok name
  | none => .error (.invalid (.unnamed e.name))

/-- A time range is read as it stands; its values are checked when they are used. -/
def rangeText (e : Element) : RangeText := ⟨e.attribute? "start", e.attribute? "end"⟩

def textMatch (e : Element) : Except FilterError TextMatch :=
  match e.text with
  | none => .error (.invalid .emptyTextMatch)
  | some value => .ok {
      value
      collation := (e.attribute? "collation").getD caselessCollation
      negate := e.attribute? "negate-condition" = some "yes" }

def readParamChild (f : ParamFilter) (child : Element) : Except FilterError ParamFilter :=
  match child.name with
  | "is-not-defined" => .ok { f with isNotDefined := true }
  | "text-match" =>
    if f.textMatch.isSome then .error (.invalid (.repeated "text-match" "param-filter"))
    else do return { f with textMatch := some (← child.textMatch) }
  | other => .error (.invalid (.unexpected other "param-filter"))

def paramFilter (e : Element) : Except FilterError ParamFilter := do
  e.children.foldlM readParamChild { name := ← e.nameAttribute }

def readPropChild (f : PropFilter) (child : Element) : Except FilterError PropFilter :=
  match child.name with
  | "is-not-defined" => .ok { f with isNotDefined := true }
  | "time-range" =>
    if f.timeRange.isSome then .error (.invalid (.repeated "time-range" "prop-filter"))
    else .ok { f with timeRange := some child.rangeText }
  | "text-match" =>
    if f.textMatch.isSome then .error (.invalid (.repeated "text-match" "prop-filter"))
    else do return { f with textMatch := some (← child.textMatch) }
  | "param-filter" => do
    return { f with paramFilters := f.paramFilters ++ [← child.paramFilter] }
  | other => .error (.invalid (.unexpected other "prop-filter"))

def propFilter (e : Element) : Except FilterError PropFilter := do
  e.children.foldlM readPropChild
    { name := ← e.nameAttribute, test := .ofAttribute (e.attribute? "test") }

mutual

def compFilter : Element → Except FilterError CompFilter
  | ⟨element, attributes, children, text⟩ => do
    let e : Element := ⟨element, attributes, [], text⟩
    readCompChildren { name := ← e.nameAttribute, test := .ofAttribute (e.attribute? "test") }
      children

def readCompChildren (f : CompFilter) : List Element → Except FilterError CompFilter
  | [] => .ok f
  | child :: rest =>
    match child.name with
    | "is-not-defined" => readCompChildren { f with isNotDefined := true } rest
    | "time-range" =>
      if f.timeRange.isSome then .error (.invalid (.repeated "time-range" "comp-filter"))
      else readCompChildren { f with timeRange := some child.rangeText } rest
    | "prop-filter" => do
      readCompChildren { f with propFilters := f.propFilters ++ [← child.propFilter] } rest
    | "comp-filter" => do
      readCompChildren { f with compFilters := f.compFilters ++ [← compFilter child] } rest
    | other => .error (.invalid (.unexpected other "comp-filter"))

end

/-- Reads a whole filter: a `comp-filter` element, alone or as the only child of a `filter`. -/
def toFilter (e : Element) : Except FilterError CompFilter :=
  match e.name with
  | "filter" =>
    match e.children with
    | [only] =>
      if only.name = "comp-filter" then only.compFilter else .error (.invalid .filterContent)
    | _ => .error (.invalid .filterContent)
  | "comp-filter" => e.compFilter
  | other => .error (.invalid (.unknownRoot other))

end Element

end CalendarSearch
