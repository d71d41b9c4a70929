import CalendarSearch.Json.Reader
import CalendarSearch.Toml.Number

/-!
Reading TOML texts, version 1.0 of the format.
-/

namespace CalendarSearch.Toml

def isBlank (c : Char) : Bool := c = ' ' || c = '\t'

def skipBlanks (cs : List Char) : List Char := cs.dropWhile isBlank

/-- A character that may stand in a comment or a string: no control character but the tab. -/
def isPlain (c : Char) : Bool := c = '\t' || (0x20 ≤ c.toNat && c.toNat ≠ 0x7F)

/-- Skips the end of a line. -/
def skipNewline? : List Char → Option (List Char)
  | '\n' :: rest => some rest
  | '\r' :: '\n' :: rest => some rest
  | _ => none

def skipNewline (cs : List Char) : List Char := (skipNewline? cs).getD cs

/-- Skips what may follow at the end of a line: blanks and a comment. -/
def lineEnd (cs : List Char) : Option (List Char) :=
  let rest := match skipBlanks cs with
    | '#' :: rest => rest.dropWhile isPlain
    | rest => rest
  if rest.isEmpty then some [] else skipNewline? rest

/-- Skips blanks, comments and ends of lines, as between the items of an array. -/
def skipLayout (inComment : Bool) : List Char → List Char
  | [] => []
  | '\n' :: rest => skipLayout false rest
  | '\r' :: '\n' :: rest => skipLayout false rest
  | c :: rest =>
    if inComment then if isPlain c then skipLayout true rest else c :: rest
    else if c = '#' then skipLayout true rest
    else if isBlank c then skipLayout false rest
    else c :: rest

/-! ### Strings -/

/-- The character with a code point, unless it is half of a surrogate pair. -/
def codePoint? (n : Nat) : Option Char := if n.isValidChar then some (Char.ofNat n) else none

def simpleEscape? (c : Char) : Option Char :=
  match c with
  | 'b' => some '\x08'
  | 't' => some '\t'
  | 'n' => some '\n'
  | 'f' => some '\x0c'
  | 'r' => some '\r'
  | '"' => some '"'
  | '\\' => some '\\'
  | _ => none

def hexEscape? (digits : List Char) : Option Char :=
  if digits.all isHexDigit then
    codePoint? (digits.foldl (fun n c => 16 * n + hexDigitValue c) 0)
  else none

def before (c : Option Char) (text : Option (List Char × List Char)) :
    Option (List Char × List Char) := do
  let c ← c
  let (cs, rest) ← text
  return (c :: cs, rest)

/-- A string on one line, after its opening quote. -/
def basicString : List Char → Option (List Char × List Char)
  | [] => none
  | '"' :: rest => some ([], rest)
  | '\\' :: 'u' :: a :: b :: c :: d :: rest => before (hexEscape? [a, b, c, d]) (basicString rest)
  | '\\' :: 'U' :: a :: b :: c :: d :: e :: f :: g :: h :: rest =>
    before (hexEscape? [a, b, c, d, e, f, g, h]) (basicString rest)
  | '\\' :: c :: rest => before (simpleEscape? c) (basicString rest)
  | c :: rest => if isPlain c && c ≠ '\\' then before (some c) (basicString rest) else none

/-- A string on one line without escapes, after its opening quote. -/
def literalString : List Char → Option (List Char × List Char)
  | [] => none
  | '\'' :: rest => some ([], rest)
  | c :: rest => if isPlain c then before (some c) (literalString rest) else none

/-- Where the reader of a string over several lines stands after a backslash. -/
inductive Fold where
  /-- Within the text. -/
  | outside
  /-- After the backslash; the line has to end. -/
  | atLineEnd
  /-- On a later line; blanks do not count until the text goes on. -/
  | skipping
deriving DecidableEq

/-- A string over several lines, after its opening quotes. Up to two quotes may stand before the
closing ones. A backslash at the end of a line takes the line end and all blanks after it away. -/
def basicLines (fold : Fold) : List Char → Option (List Char × List Char)
  | [] => none
  | '\n' :: rest =>
    if fold = .outside then before (some '\n') (basicLines .outside rest)
    else basicLines .skipping rest
  | '\r' :: '\n' :: rest =>
    if fold = .outside then before (some '\n') (basicLines .outside rest)
    else basicLines .skipping rest
  | ' ' :: rest =>
    if fold = .outside then before (some ' ') (basicLines .outside rest) else basicLines fold rest
  | '\t' :: rest =>
    if fold = .outside then before (some '\t') (basicLines .outside rest) else basicLines fold rest
  | '"' :: '"' :: '"' :: '"' :: '"' :: rest =>
    if fold = .atLineEnd then none else some (['"', '"'], rest)
  | '"' :: '"' :: '"' :: '"' :: rest => if fold = .atLineEnd then none else some (['"'], rest)
  | '"' :: '"' :: '"' :: rest => if fold = .atLineEnd then none else some ([], rest)
  | '\\' :: 'u' :: a :: b :: c :: d :: rest =>
    if fold = .atLineEnd then none
    else before (hexEscape? [a, b, c, d]) (basicLines .outside rest)
  | '\\' :: 'U' :: a :: b :: c :: d :: e :: f :: g :: h :: rest =>
    if fold = .atLineEnd then none
    else before (hexEscape? [a, b, c, d, e, f, g, h]) (basicLines .outside rest)
  | '\\' :: '\n' :: rest => if fold = .atLineEnd then none else basicLines .skipping rest
  | '\\' :: '\r' :: '\n' :: rest => if fold = .atLineEnd then none else basicLines .skipping rest
  | '\\' :: c :: rest =>
    if fold = .atLineEnd then none
    else if isBlank c then basicLines .atLineEnd rest
    else before (simpleEscape? c) (basicLines .outside rest)
  | c :: rest =>
    if fold = .atLineEnd then none
    else if isPlain c && c ≠ '\\' then before (some c) (basicLines .outside rest)
    else none

/-- A string over several lines without escapes, after its opening quotes. -/
def literalLines : List Char → Option (List Char × List Char)
  | [] => none
  | '\r' :: '\n' :: rest => before (some '\n') (literalLines rest)
  | '\n' :: rest => before (some '\n') (literalLines rest)
  | '\'' :: '\'' :: '\'' :: '\'' :: '\'' :: rest => some (['\'', '\''], rest)
  | '\'' :: '\'' :: '\'' :: '\'' :: rest => some (['\''], rest)
  | '\'' :: '\'' :: '\'' :: rest => some ([], rest)
  | c :: rest => if isPlain c then before (some c) (literalLines rest) else none

def readString (cs : List Char) : Option (Toml × List Char) :=
  let text := match cs with
    | '"' :: '"' :: '"' :: rest => basicLines .outside (skipNewline rest)
    | '\'' :: '\'' :: '\'' :: rest => literalLines (skipNewline rest)
    | '"' :: rest => basicString rest
    | '\'' :: rest => literalString rest
    | _ => none
  text.map fun (cs, rest) => (string (String.ofList cs), rest)

/-! ### Keys -/

/-- The most containers within one another, and one more than the parts that a key may have. -/
def nestingLimit : Nat := 80

def isBareKeyChar (c : Char) : Bool := c.isAlphanum || c = '-' || c = '_'

def simpleKey (cs : List Char) : Option (String × List Char) :=
  match cs with
  | '"' :: rest => (basicString rest).map fun (name, rest) => (String.ofList name, rest)
  | '\'' :: rest => (literalString rest).map fun (name, rest) => (String.ofList name, rest)
  | _ =>
    let name := cs.takeWhile isBareKeyChar
    if name.isEmpty then none else some (String.ofList name, cs.dropWhile isBareKeyChar)

def keyParts : Nat → List Char → Option (List String × List Char)
  | 0, _ => none
  | fuel + 1, cs => do
    let (name, rest) ← simpleKey (skipBlanks cs)
    match skipBlanks rest with
    | '.' :: rest =>
      let (names, rest) ← keyParts fuel rest
      return (name :: names, rest)
    | rest => return ([name], rest)

def readKey (cs : List Char) : Option (List String × List Char) := keyParts (nestingLimit - 1) cs

/-! ### Values -/

def word (expected : String) (value : Toml) (cs : List Char) : Option (Toml × List Char) :=
  if expected.toList.isPrefixOf cs then some (value, cs.drop expected.length) else none

mutual

/-- A value and what follows it. It may hold at most `levels` arrays and tables within one
another. -/
def readValue : Nat → Nat → List Char → Option (Toml × List Char)
  | 0, _, _ => none
  | fuel + 1, levels, cs =>
    match cs with
    | '"' :: _ => readString cs
    | '\'' :: _ => readString cs
    | 't' :: _ => word "true" (boolean true) cs
    | 'f' :: _ => word "false" (boolean false) cs
    | '[' :: rest =>
      match levels, skipLayout false rest with
      | 0, _ => none
      | _, ']' :: rest => some (array [], rest)
      | levels + 1, rest =>
        (readItems fuel levels rest).map fun (items, rest) => (array items, rest)
    | '\x7b' :: rest =>
      match levels, skipBlanks rest with
      | 0, _ => none
      | _, '\x7d' :: rest => some (inline [], rest)
      | levels + 1, rest => do
        let (pairs, rest) ← readPairs fuel levels rest
        return (← inlineOf pairs, rest)
    | _ => readNumber cs

/-- The items of an array up to its closing bracket; a comma may follow the last one. -/
def readItems : Nat → Nat → List Char → Option (List Toml × List Char)
  | 0, _, _ => none
  | fuel + 1, levels, cs => do
    let (item, rest) ← readValue fuel levels cs
    match skipLayout false rest with
    | ']' :: rest => return ([item], rest)
    | ',' :: rest =>
      match skipLayout false rest with
      | ']' :: rest => return ([item], rest)
      | rest =>
        let (items, rest) ← readItems fuel levels rest
        return (item :: items, rest)
    | _ => none

/-- The pairs of a table up to its closing brace, all on one line. -/
def readPairs : Nat → Nat → List Char → Option (List (List String × Toml) × List Char)
  | 0, _, _ => none
  | fuel + 1, levels, cs => do
    let (key, rest) ← readKey cs
    let rest ← expect '=' rest
    let (value, rest) ← readValue fuel levels (skipBlanks rest)
    match skipBlanks rest with
    | '\x7d' :: rest => return ([(key, value)], rest)
    | ',' :: rest =>
      let (pairs, rest) ← readPairs fuel levels rest
      return ((key, value) :: pairs, rest)
    | _ => none

end

/-! ### Documents -/

/-- One line that is neither blank nor a comment, and what follows it. -/
def readLine (cs : List Char) : Option (Line × List Char) :=
  match cs with
  | '[' :: '[' :: rest => do
    let (path, rest) ← readKey rest
    let rest ← expect ']' rest
    let rest ← expect ']' rest
    return (.arrayHeader path, ← lineEnd rest)
  | '[' :: rest => do
    let (path, rest) ← readKey rest
    let rest ← expect ']' rest
    return (.header path, ← lineEnd rest)
  | _ => do
    let (key, rest) ← readKey cs
    let rest ← expect '=' rest
    let (value, rest) ← readValue (2 * rest.length + 2) (nestingLimit - 1) (skipBlanks rest)
    return (.entry key value, ← lineEnd rest)

def readLines : Nat → List Char → Option (List Line)
  | 0, _ => none
  | fuel + 1, cs =>
    match skipBlanks cs with
    | [] => some []
    | '#' :: rest => do readLines fuel (← lineEnd ('#' :: rest))
    | '\n' :: rest => readLines fuel rest
    | '\r' :: '\n' :: rest => readLines fuel rest
    | rest => do
      let (line, rest) ← readLine rest
      return line :: (← readLines fuel rest)

/-- The tables of a document. A byte order mark may stand before it. -/
def read (s : String) : Option Entries := do
  let cs := match s.toList with
    | '\ufeff' :: cs => cs
    | cs => cs
  ofLines (← readLines (cs.length + 1) cs)

end CalendarSearch.Toml
