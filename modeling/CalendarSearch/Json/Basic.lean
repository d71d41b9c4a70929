/-!
JSON values. Only whole numbers have a value here; any other number is kept as a number without one.
A string literal may name half of a surrogate pair, and then it stands for no text.
-/

namespace CalendarSearch

inductive Json where
  | null
  | bool (value : Bool)
  | int (value : Int)
  /-- A number with a fraction or an exponent, or a negative zero. -/
  | real
  /-- A string; `none` if its literal stands for no text. -/
  | string (value : Option String)
  | array (items : List Json)
  /-- The members of an object as written, repetitions included. -/
  | object (members : List (Option String × Json))
deriving Repr

namespace Json

def text (s : String) : Json := string (some s)

def record (members : List (String × Json)) : Json :=
  object (members.map fun (name, value) => (some name, value))

/-- A member that is left out if it has no value. -/
def optionalMember (name : String) (value : Option Json) : List (String × Json) :=
  match value with
  | some value => [(name, value)]
  | none => []

def nullable (encode : α → Json) : Option α → Json
  | some a => encode a
  | none => null

mutual

/-- How many arrays and objects lie within one another. -/
def depth : Json → Nat
  | array items => depthOfItems items + 1
  | object members => depthOfMembers members + 1
  | _ => 0

def depthOfItems : List Json → Nat
  | [] => 0
  | item :: items => max item.depth (depthOfItems items)

def depthOfMembers : List (Option String × Json) → Nat
  | [] => 0
  | (_, value) :: members => max value.depth (depthOfMembers members)

end

end Json

end CalendarSearch
