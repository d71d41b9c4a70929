import CalendarSearch.Text.Ascii

/-!
Files as a command sees them: what a path leads to, and why a file cannot be read.
-/

namespace CalendarSearch

inductive FileFault where
  | notFound
  | notDirectory
  | isDirectory
  | nameTooLong
  /-- The bytes of the file are not UTF-8. -/
  | notText
  | other (text : String)
deriving DecidableEq, Repr

def FileFault.message : FileFault → String
  | notFound => "No such file or directory (os error 2)"
  | notDirectory => "Not a directory (os error 20)"
  | isDirectory => "Is a directory (os error 21)"
  | nameTooLong => "File name too long (os error 36)"
  | notText => "stream did not contain valid UTF-8"
  | other text => text

/-- What a path leads to. -/
inductive FileEntry where
  | absent (fault : FileFault)
  | directory
  | file (content : ByteArray)
  /-- There is something at the path, but it cannot be read. -/
  | locked (fault : FileFault)

namespace FileEntry

def isThere : FileEntry → Bool
  | absent _ => false
  | _ => true

def text : FileEntry → Except FileFault String
  | absent fault => .error fault
  | directory => .error .isDirectory
  | locked fault => .error fault
  | file content =>
    match String.fromUTF8? content with
    | some s => .ok s
    | none => .error .notText

/-- A file that holds a text is read as that text. -/
theorem text_toUTF8 (s : String) : (file s.toUTF8).text = .ok s := by
  have hvalid : String.fromUTF8? s.toUTF8 = some s := dif_pos s.isValidUTF8
  simp only [text, hvalid]

end FileEntry

abbrev Files := String → FileEntry

namespace Files

/-- The longest name that a file can have, in bytes. -/
def longestName : Nat := 255

/-- The longest path that can be followed, in bytes. -/
def longestPath : Nat := 4095

/-- Can a part of a path be followed from every directory? -/
def isDots (name : String) : Bool := name ∈ ["", ".", ".."]

/-- Follows the parts of a path where no names are known. -/
def followUnknown : List String → FileEntry
  | [] => .directory
  | name :: rest =>
    if isDots name then followUnknown rest
    else if longestName < name.utf8ByteSize then .absent .nameTooLong
    else .absent .notFound

/-- Follows the parts of a path from a directory, whose own path is `here`, below the one that holds
the entries. That one is the root of all files, or nothing is known of what lies above it. -/
def follow (isRoot : Bool) (entries : List (String × FileEntry)) (here : List String) :
    List String → FileEntry
  | [] => .directory
  | name :: rest =>
    if name = "" || name = "." then follow isRoot entries here rest
    else if name = ".." then
      if here.isEmpty && !isRoot then followUnknown rest
      else follow isRoot entries here.dropLast rest
    else
      let path := "/".intercalate (here ++ [name])
      if longestName < name.utf8ByteSize then .absent .nameTooLong
      else match entries.lookup path with
        | some .directory => follow isRoot entries (here ++ [name]) rest
        | some entry => if rest.isEmpty then entry else .absent .notDirectory
        | none =>
          if entries.any fun (p, _) => (path ++ "/").toList.isPrefixOf p.toList then
            follow isRoot entries (here ++ [name]) rest
          else .absent .notFound

/-- What every system has below its root: the usual directories, and the file that is empty. -/
def systemEntries : List (String × FileEntry) :=
  ["bin", "dev", "etc", "home", "tmp", "usr", "var"].map (·, .directory) ++
    [("dev/null", .file .empty)]

/-- The files seen from a directory that holds these entries and nothing else, where a path from the
root leads to what every system has. -/
def ofDirectory (entries : List (String × FileEntry)) : Files := fun path =>
  let parts := (Text.splitAt '/' path.toList).map String.ofList
  if path.isEmpty then .absent .notFound
  else if longestPath < path.utf8ByteSize then .absent .nameTooLong
  else if path.startsWith "/" then follow true systemEntries [] parts
  else follow false entries [] parts

/-- A name that something can have in a directory: it is not followed further. -/
def IsName (name : String) : Prop :=
  isDots name = false ∧ '/' ∉ name.toList ∧ name.utf8ByteSize ≤ longestName

instance (name : String) : Decidable (IsName name) := inferInstanceAs (Decidable (_ ∧ _))

section

variable {entries : List (String × FileEntry)} {name : String} {entry : FileEntry}

theorem ofDirectory_of_isName (h : IsName name) :
    ofDirectory entries name = follow false entries [] [name] := by
  obtain ⟨hdots, hslash, hshort⟩ := h
  have hempty : name.isEmpty = false := by
    rw [Bool.eq_false_iff]
    intro he
    rw [String.isEmpty_iff.mp he] at hdots
    cases hdots
  have hroot : name.startsWith "/" = false := by
    rw [Bool.eq_false_iff, Ne, String.startsWith_string_iff]
    exact fun hpre => hslash (hpre.subset (List.mem_singleton_self _))
  have hpath : ¬longestPath < name.utf8ByteSize :=
    Nat.not_lt.mpr (Nat.le_trans hshort (by decide))
  simp only [ofDirectory, hempty, hroot, if_neg hpath, Text.splitAt_eq_singleton hslash,
    Bool.false_eq_true, if_false, List.map_cons, List.map_nil, String.ofList_toList]

theorem follow_name (h : IsName name) : follow false entries [] [name] =
    ((entries.lookup name).getD
      (if entries.any fun e => (name ++ "/").toList.isPrefixOf e.1.toList then .directory
        else .absent .notFound)) := by
  obtain ⟨hdots, hslash, hshort⟩ := h
  obtain ⟨hempty, hdot, hdotdot⟩ : name ≠ "" ∧ name ≠ "." ∧ name ≠ ".." := by
    simpa [isDots] using hdots
  have hpath : "/".intercalate ([] ++ [name]) = name := rfl
  simp only [follow, hempty, hdot, hdotdot, decide_false, Bool.or_false, Bool.false_eq_true,
    if_false, if_neg (Nat.not_lt.mpr hshort), hpath]
  cases entries.lookup name with
  | none => rfl
  | some entry => cases entry <;> rfl

/-- The name of an entry leads to that entry. -/
theorem ofDirectory_listed (h : IsName name) (hentry : entries.lookup name = some entry) :
    ofDirectory entries name = entry := by
  rw [ofDirectory_of_isName h, follow_name h, hentry, Option.getD_some]

/-- A name that no entry starts with leads nowhere. -/
theorem ofDirectory_unlisted (h : IsName name)
    (hentry : ∀ e ∈ entries, ¬name.toList <+: e.1.toList) :
    ofDirectory entries name = .absent .notFound := by
  have hnone : entries.lookup name = none := by
    rw [List.lookup_eq_none_iff]
    intro e he
    simp only [bne_iff_ne]
    rintro rfl
    exact hentry e he (List.prefix_refl _)
  have hbelow : (entries.any fun e => (name ++ "/").toList.isPrefixOf e.1.toList) = false := by
    rw [List.any_eq_false]
    intro e he hpre
    rw [List.isPrefixOf_iff_prefix, String.toList_append] at hpre
    exact hentry e he ((List.prefix_append _ _).trans hpre)
  rw [ofDirectory_of_isName h, follow_name h, hnone, hbelow]
  rfl

end

end Files

end CalendarSearch
