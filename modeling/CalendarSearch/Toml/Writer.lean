/-!
Strings as TOML writes them. A string gets the plainest form that shows it: between double quotes
without escapes, else between single quotes, else over several lines, else with escapes.
-/

namespace CalendarSearch.Toml

def longestRun (c : Char) (cs : List Char) : Nat :=
  (cs.foldl (fun (longest, run) d =>
    let run := if d = c then run + 1 else 0
    (max longest run, run)) (0, 0)).1

/-- A control character that only an escape can show. -/
def needsEscape (c : Char) : Bool :=
  c ≠ '\t' && c ≠ '\n' && (c.toNat < 0x20 || c.toNat = 0x7F)

/-- Four hexadecimal digits in capitals. -/
def fourHexDigits (n : Nat) : List Char :=
  let digits := (Nat.toDigits 16 n).map Char.toUpper
  List.replicate (4 - digits.length) '0' ++ digits

/-- The text between double quotes. A quote is escaped where it would be one too many in a row; line
ends stay if the string goes over several lines. -/
def escaped (overLines : Bool) (quotes : Nat) : List Char → List Char
  | [] => []
  | c :: cs =>
    let next := escaped overLines 0 cs
    if c = '"' then
      if quotes < (if overLines then 2 else 0) then c :: escaped overLines (quotes + 1) cs
      else '\\' :: c :: next
    else if c = '\\' then '\\' :: '\\' :: next
    else if c = '\n' then if overLines then c :: next else '\\' :: 'n' :: next
    else if c = '\t' then '\\' :: 't' :: next
    else if c = '\r' then '\\' :: 'r' :: next
    else if c = '\x08' then '\\' :: 'b' :: next
    else if c = '\x0c' then '\\' :: 'f' :: next
    else if needsEscape c then '\\' :: 'u' :: fourHexDigits c.toNat ++ next
    else c :: next

/-- A string in the plainest form that shows it. -/
def quote (s : String) : String :=
  let cs := s.toList
  let hasControl := cs.any needsEscape
  let hasBackslash := cs.contains '\\'
  let hasNewline := cs.contains '\n'
  let doubles := longestRun '"' cs
  let singles := longestRun '\'' cs
  let start := if hasNewline then ['\n'] else []
  let double := ['"', '"', '"']
  let single := ['\'', '\'', '\'']
  String.ofList (
    if !hasControl && !hasBackslash && !hasNewline && doubles = 0 then
      '"' :: escaped false 0 cs ++ ['"']
    else if !hasControl && !hasNewline && singles = 0 then '\'' :: cs ++ ['\'']
    else if !hasControl && !hasBackslash && doubles ≤ 2 then
      double ++ start ++ escaped true 0 cs ++ double
    else if !hasControl && singles ≤ 2 then single ++ start ++ cs ++ single
    else if hasNewline then double ++ start ++ escaped true 0 cs ++ double
    else '"' :: escaped false 0 cs ++ ['"'])

end CalendarSearch.Toml
