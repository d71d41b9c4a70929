import CalendarSearch.Text.Decimal
import CalendarSearch.Toml.Basic

/-!
Numbers and times in TOML. Digits may be parted by single underscores. A number is written as an
integer in four bases or as a decimal fraction; a time as a date, a time of day or both, with or
without an offset.
-/

namespace CalendarSearch.Toml

open Text

/-- A run of digits, of which any two may have an underscore between them. -/
def moreDigits (isDigit : Char → Bool) : List Char → List Char × List Char
  | '_' :: c :: rest =>
    if isDigit c then
      let (digits, rest) := moreDigits isDigit rest
      (c :: digits, rest)
    else ([], '_' :: c :: rest)
  | c :: rest =>
    if isDigit c then
      let (digits, rest) := moreDigits isDigit rest
      (c :: digits, rest)
    else ([], c :: rest)
  | [] => ([], [])

def digitRun (isDigit : Char → Bool) (cs : List Char) : Option (List Char × List Char) :=
  if cs.head?.any isDigit then some (moreDigits isDigit cs) else none

/-- The sign of a number, if it has one; is it negative? -/
def sign : List Char → Bool × List Char
  | '-' :: rest => (true, rest)
  | '+' :: rest => (false, rest)
  | rest => (false, rest)

/-- The digits of a decimal integer; a leading zero stands alone. -/
def decimalDigits (cs : List Char) : Option (List Char × List Char) :=
  match cs with
  | '0' :: rest => some (['0'], rest)
  | _ => digitRun Char.isDigit cs

def maxInteger : Nat := 9223372036854775807

def hexDigitValue (c : Char) : Nat :=
  if c.isDigit then digitValue c else c.toLower.toNat - 'a'.toNat + 10

def isHexDigit (c : Char) : Bool :=
  c.isDigit || ('a' ≤ c && c ≤ 'f') || ('A' ≤ c && c ≤ 'F')

/-- An integer in a base other than ten, after the mark of its base. -/
def basedInteger (base : Nat) (isDigit : Char → Bool) (cs : List Char) :
    Option (Toml × List Char) := do
  let (digits, rest) ← digitRun isDigit cs
  let n := digits.foldl (fun n c => base * n + hexDigitValue c) 0
  if n ≤ maxInteger then return (integer n, rest) else none

def readInteger (cs : List Char) : Option (Toml × List Char) :=
  match cs with
  | '0' :: 'x' :: rest => basedInteger 16 isHexDigit rest
  | '0' :: 'o' :: rest => basedInteger 8 (fun c => '0' ≤ c && c ≤ '7') rest
  | '0' :: 'b' :: rest => basedInteger 2 (fun c => c = '0' || c = '1') rest
  | _ => do
    let (negative, rest) := sign cs
    let (digits, rest) ← decimalDigits rest
    let n := numeral digits
    if negative then
      if n ≤ maxInteger + 1 then return (integer (-(n : Int)), rest) else none
    else if n ≤ maxInteger then return (integer n, rest)
    else none

def fraction (cs : List Char) : Option (List Char × List Char) :=
  match cs with
  | '.' :: rest => digitRun Char.isDigit rest
  | _ => some ([], cs)

/-- The exponent of a number; zero if there is none. -/
def exponent (cs : List Char) : Option (Int × List Char) :=
  match cs with
  | c :: rest =>
    if c = 'e' || c = 'E' then do
      let (negative, rest) := sign rest
      let (digits, rest) ← digitRun Char.isDigit rest
      return (if negative then -(numeral digits : Int) else numeral digits, rest)
    else some (0, cs)
  | [] => some (0, [])

/-- The smallest number that a binary float of 64 bits rounds to infinity. -/
def floatOverflow : Nat := (1 <<< 1024) - (1 <<< 970)

/-- Is `digits * 10 ^ scale` too large for a float? The count of digits settles all but the numbers
close to the limit, and keeps the powers that are computed small. -/
def overflows (digits : List Char) (scale : Int) : Bool :=
  let n := numeral digits
  if n = 0 then false
  else
    let magnitude := (Nat.toDigits 10 n).length + scale
    if magnitude < 300 then false
    else if 320 < magnitude then true
    else if 0 ≤ scale then floatOverflow ≤ n * Nat.pow 10 scale.toNat
    else floatOverflow * Nat.pow 10 scale.natAbs ≤ n

/-- A number with a fraction or an exponent. One that is too large is refused, unless it is
negative. -/
def readFloat (cs : List Char) : Option (Toml × List Char) := do
  let (negative, unsigned) := sign cs
  match unsigned with
  | 'i' :: 'n' :: 'f' :: rest => return (real, rest)
  | 'n' :: 'a' :: 'n' :: rest => return (real, rest)
  | _ =>
    let (whole, rest) ← decimalDigits unsigned
    if rest.head?.any fun c => c = '.' || c = 'e' || c = 'E' then
      let (part, rest) ← fraction rest
      let (power, rest) ← exponent rest
      if !negative && overflows (whole ++ part) (power - part.length) then none
      else return (real, rest)
    else none

def fixedNumber (width : Nat) (cs : List Char) : Option (Nat × List Char) :=
  let digits := (cs.take width).takeWhile Char.isDigit
  if digits.length = width then some (numeral digits, cs.drop width) else none

def expect (c : Char) : List Char → Option (List Char)
  | d :: rest => if d = c then some rest else none
  | [] => none

def daysInMonth (year month : Nat) : Nat :=
  if month = 2 then
    if year % 4 = 0 && (year % 100 ≠ 0 || year % 400 = 0) then 29 else 28
  else if month = 4 || month = 6 || month = 9 || month = 11 then 30
  else 31

def skipDate (cs : List Char) : Option (List Char) := do
  let (year, rest) ← fixedNumber 4 cs
  let rest ← expect '-' rest
  let (month, rest) ← fixedNumber 2 rest
  let rest ← expect '-' rest
  let (day, rest) ← fixedNumber 2 rest
  if 1 ≤ month && month ≤ 12 && 1 ≤ day && day ≤ daysInMonth year month then return rest else none

def skipHourMinute (cs : List Char) : Option (List Char) := do
  let (hour, rest) ← fixedNumber 2 cs
  let rest ← expect ':' rest
  let (minute, rest) ← fixedNumber 2 rest
  if hour ≤ 23 && minute ≤ 59 then return rest else none

def skipClock (cs : List Char) : Option (List Char) := do
  let rest ← skipHourMinute cs
  let rest ← expect ':' rest
  let (second, rest) ← fixedNumber 2 rest
  if 60 < second then none
  match rest with
  | '.' :: rest =>
    if rest.head?.any Char.isDigit then return rest.dropWhile Char.isDigit else none
  | _ => return rest

def skipOffset (cs : List Char) : Option (List Char) :=
  match cs with
  | 'Z' :: rest => some rest
  | 'z' :: rest => some rest
  | '+' :: rest => skipHourMinute rest
  | '-' :: rest => skipHourMinute rest
  | _ => some cs

def readTime (cs : List Char) : Option (Toml × List Char) :=
  match skipDate cs with
  | some rest =>
    match rest with
    | c :: later =>
      if c = 'T' || c = 't' || c = ' ' then
        match (skipClock later).bind skipOffset with
        | some rest => some (time, rest)
        | none => some (time, rest)
      else some (time, rest)
    | [] => some (time, [])
  | none => (skipClock cs).map fun rest => (time, rest)

def readNumber (cs : List Char) : Option (Toml × List Char) :=
  (readTime cs).or ((readFloat cs).or (readInteger cs))

end CalendarSearch.Toml
