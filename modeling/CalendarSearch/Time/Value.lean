import CalendarSearch.Time.Fields

/-!
The values of date and date-time properties. A value without a zone is read in UTC.
-/

namespace CalendarSearch

/-- A whole day, known by its start, or a single instant. -/
inductive TimeValue where
  | day (start : Instant)
  | moment (time : Instant)
deriving DecidableEq, Repr

namespace TimeValue

/-- The instant of a value; a day has the instant of its start. -/
def instant : TimeValue → Instant
  | day t => t
  | moment t => t

def isDay : TimeValue → Bool
  | day _ => true
  | moment _ => false

def dropZulu (cs : List Char) : List Char :=
  if cs.getLast? = some 'Z' then cs.dropLast else cs

/-- Reads a value between blanks. Eight bytes are a day; fifteen bytes, with or without a `Z` after
them, are an instant. -/
def ofChars (cs : List Char) : Option TimeValue :=
  let value := Text.trim cs
  let length := Text.byteLength value
  if length = 8 then (Fields.day value).map day
  else if length = 15 || length = 16 then
    let bare := dropZulu value
    if Text.byteLength bare = 15 then (Fields.dateTime bare).map moment else none
  else none

def parse (s : String) : Option TimeValue := ofChars s.toList

end TimeValue

end CalendarSearch
