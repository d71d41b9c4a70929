/-!
The settings of a search.
-/

namespace CalendarSearch

/-- How the prop-filters that a store cannot search by are applied to what it found. -/
inductive RecheckMode where
  /-- As the filter joins them. -/
  | honorTest
  /-- Any one of those for the kind of the component is enough. -/
  | legacyAnyOf
deriving DecidableEq, Repr

def RecheckMode.name : RecheckMode → String
  | .honorTest => "honor-test"
  | .legacyAnyOf => "legacy-any-of"

structure Settings where
  /-- The version of the file format that the settings are written in. -/
  version : Nat := 1
  mode : RecheckMode := .honorTest
  /-- The only container that rechecked resources may be kept in, if there is one. -/
  container : Option String := none
  /-- The zone that floating times are resolved in. -/
  floatingZone : Option String := none
deriving DecidableEq, Repr

def Settings.newestVersion : Nat := 1

end CalendarSearch
