import CalendarSearch.Json.Basic
import CalendarSearch.Text.Decimal

/-!
Writing JSON texts, on one line or laid out with two blanks for each level.
-/

namespace CalendarSearch.Json

def hexDigit (n : Nat) : Char := (Nat.toDigits 16 n).getLastD '0'

/-- A character within a string: quotes, backslashes and control characters are escaped. -/
def escape (c : Char) : List Char :=
  match c with
  | '"' => ['\\', '"']
  | '\\' => ['\\', '\\']
  | '\x08' => ['\\', 'b']
  | '\x0c' => ['\\', 'f']
  | '\n' => ['\\', 'n']
  | '\r' => ['\\', 'r']
  | '\t' => ['\\', 't']
  | c =>
    if c.toNat < 0x20 then ['\\', 'u', '0', '0', hexDigit (c.toNat / 16), hexDigit (c.toNat % 16)]
    else [c]

def quote (s : String) : String := String.ofList ('"' :: s.toList.flatMap escape ++ ['"'])

/-- The opening and closing of lists of parts, and what stands between the parts. -/
structure Layout where
  /-- Starts a line at a level, if lines are started at all. -/
  newline : Nat → String
  /-- Stands between a name and its value. -/
  colon : String

/-- Everything on one line, without blanks. -/
def compact : Layout := ⟨fun _ => "", ":"⟩

/-- Each part on a line of its own, two blanks further in than what holds it. -/
def pretty : Layout := ⟨fun level => "\n" ++ "".pushn ' ' (2 * level), ": "⟩

mutual

/-- The text of a value that starts on a line of the given level. -/
def write (layout : Layout) (level : Nat) : Json → String
  | null => "null"
  | bool b => if b then "true" else "false"
  | int n => toString n
  | real => "null"
  | string s => quote (s.getD "")
  | array [] => "[]"
  | array items => "[" ++ writeItems layout (level + 1) items ++ layout.newline level ++ "]"
  | object [] => "\x7b\x7d"
  | object members =>
    "\x7b" ++ writeMembers layout (level + 1) members ++ layout.newline level ++ "\x7d"

def writeItems (layout : Layout) (level : Nat) : List Json → String
  | [] => ""
  | [item] => layout.newline level ++ write layout level item
  | item :: items =>
    layout.newline level ++ write layout level item ++ "," ++ writeItems layout level items

def writeMembers (layout : Layout) (level : Nat) : List (Option String × Json) → String
  | [] => ""
  | [(name, value)] =>
    layout.newline level ++ quote (name.getD "") ++ layout.colon ++ write layout level value
  | (name, value) :: members =>
    layout.newline level ++ quote (name.getD "") ++ layout.colon ++ write layout level value ++
      "," ++ writeMembers layout level members

end

def toLine (j : Json) : String := write compact 0 j

def toLines (j : Json) : String := write pretty 0 j

end CalendarSearch.Json
