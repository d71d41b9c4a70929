import CalendarSearch.Json.Reader

/-!
Reading values of the library out of JSON. A decoder is told how many arrays and objects it may
still enter; only the parts that it looks at count, so a member that nothing reads may be nested
deeper.
-/

namespace CalendarSearch.Json

/-- Reads a value out of JSON, entering at most so many arrays and objects within one another. -/
abbrev Decoder (α : Type) := Nat → Json → Option α

namespace Decoder

def refuse : Decoder α := fun _ _ => none

def bool : Decoder Bool
  | _, .bool b => some b
  | _, _ => none

def string : Decoder String
  | _, .string s => s
  | _, _ => none

/-- A whole number below 2 ^ 32. -/
def nat32 : Decoder Nat
  | _, .int n => if 0 ≤ n && n < 0x100000000 then some n.toNat else none
  | _, _ => none

def list (item : Decoder α) : Decoder (List α)
  | n + 1, .array items => items.mapM (item n)
  | _, _ => none

def nullable (value : Decoder α) : Decoder (Option α)
  | _, .null => some none
  | n, j => (value n j).map some

/-- One of some names. The name may also be the only member of an object, with the value `null`. -/
def oneOf (choices : List (String × α)) : Decoder α
  | _, .string (some name) => choices.lookup name
  | _ + 1, .object [(some name, .null)] => choices.lookup name
  | _, _ => none

/-- The members of an object whose names and values are all texts. -/
def texts : Decoder (List (String × String))
  | _ + 1, .object members => members.mapM fun
    | (some name, .string (some value)) => some (name, value)
    | _ => none
  | _, _ => none

end Decoder

/-- The values of the named members of an object, none of which may be repeated; members with other
names are passed over. An array gives the values of the first names in their order. -/
def fields (names : List String) : Json → Option (List (Option Json))
  | object members =>
    if members.all (·.1.isSome) && names.all fun name => members.countP (·.1 == some name) ≤ 1 then
      some (names.map fun name => members.lookup (some name))
    else none
  | array items =>
    if items.length ≤ names.length then
      some (items.map some ++ List.replicate (names.length - items.length) none)
    else none
  | _ => none

def required (d : Decoder α) (n : Nat) (field : Option Json) : Option α := field.bind (d n)

/-- A member that has a value of its own if it is missing. -/
def defaulted (value : α) (d : Decoder α) (n : Nat) : Option Json → Option α
  | none => some value
  | some j => d n j

/-- A member that may be missing or `null`. -/
def optional (d : Decoder α) : Nat → Option Json → Option (Option α) :=
  defaulted none (.nullable d)

@[simp] theorem required_some (d : Decoder α) (n : Nat) (j : Json) :
    required d n (some j) = d n j := rfl

@[simp] theorem defaulted_some (value : α) (d : Decoder α) (n : Nat) (j : Json) :
    defaulted value d n (some j) = d n j := rfl

@[simp] theorem optional_some (d : Decoder α) (n : Nat) (j : Json) :
    optional d n (some j) = Decoder.nullable d n j := rfl

@[simp] theorem optional_none (d : Decoder α) (n : Nat) : optional d n none = some none := rfl

/-- Reads a value out of JSON, however deep it is nested. -/
def decode (d : Decoder α) (j : Json) : Option α := d j.depth j

/-- The deepest nesting that is read out of a text. -/
def nestingLimit : Nat := 127

def decodeText (d : Decoder α) (s : String) : Option α := (read s).bind (d nestingLimit)

end CalendarSearch.Json
