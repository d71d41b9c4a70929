import CalendarSearch.Command.Run
import CalendarSearch.Proofs.Grammar
import CalendarSearch.Proofs.JsonTexts
import CalendarSearch.Proofs.Outcome

/-! # One filter, two commands

Compiling a filter and searching by it read the same file and plan with the same settings, so both
refuse a filter for the same error. The error takes two ways to the user. Where the filter cannot be
read, both commands report it as it is; where it has no plan, a search reports it as a failure of
its own, under the code that belongs to its HTTP status. The two codes differ exactly for a filter
that is well formed but beyond what the server supports, and no such error arises while a filter is
read. -/

namespace CalendarSearch

open Traversal

/-- A search fails because of its filter exactly where the filter has no plan. -/
theorem search_eq_filter_error {store : Store} {index : FieldIndex} {settings : Settings}
    {f : CompFilter} {scope : Scope} {e : FilterError} :
    search store index settings f scope = .error (.filter e) ↔
      (settings.planner index).plan f = .error e := by
  cases hplan : (settings.planner index).plan f with
  | error e' => simp only [search, hplan, Except.error.injEq, SearchError.filter.injEq]
  | ok plan =>
    -- with a plan, only the store can fail, and its failures say nothing of the filter
    obtain ⟨keep, hkeep⟩ := Plan.exists_refine hplan
    cases hfound : store plan.root scope .full with
    | error e' => cases e' <;> simp [search, hplan, hfound, SearchError.ofStore]
    | ok found => simp [search, hplan, hfound, hkeep]

/-- What a search prints as JSON is a snapshot of what it found. -/
theorem Snapshot.ofFile_found (path : String) (found : List Resource)
    (hdepth : (Json.array (found.map Resource.toJson)).depth ≤ Json.nestingLimit) :
    Snapshot.ofFile path
      (.file ((Json.array (found.map Resource.toJson)).toLines ++ "\n").toUTF8) = .ok found := by
  have hread : Json.decodeText (.list Resource.decoder)
      ((Json.array (found.map Resource.toJson)).toLines ++ "\n") = some found :=
    Resource.decodeText_write Json.loose_pretty found hdepth Json.isBlank_newline
  simp only [Snapshot.ofFile, FileEntry.text_toUTF8, hread]

namespace Command

namespace Failure

/-- The error of the filter that a failure is due to, if it is due to one. -/
def filterError? : Failure → Option FilterError
  | filter e => some e
  | search (.filter e) => some e
  | _ => none

theorem filterError?_eq_some {failure : Failure} {e : FilterError} :
    failure.filterError? = some e ↔ failure = .filter e ∨ failure = .search (.filter e) := by
  cases failure with
  | search error => cases error <;> simp [filterError?]
  | _ => simp [filterError?]

theorem exitCode_of_filterError? {failure : Failure} {e : FilterError}
    (h : failure.filterError? = some e) : failure.exitCode = 2 := by
  obtain rfl | rfl := filterError?_eq_some.mp h <;> rfl

/-- The code under which a search reports a filter that has no plan. -/
theorem code_search_filter (e : FilterError) :
    (search (.filter e)).code = if e.beyondSupport then "FORBIDDEN" else "FILTER_ERROR" := by
  cases h : e.beyondSupport <;> simp [code, SearchError.status, h]

theorem textual_toJson (failure : Failure) : failure.toJson.Textual := by
  refine Json.textual_record (List.forall_mem_singleton.mpr (Json.textual_record ?_))
  simp only [List.forall_mem_cons]
  exact ⟨.text _, .text _, by simp⟩

end Failure

/-- The error for which the filter of a request is refused, if it is. -/
def refusal (env : Environment) (files : Files) (r : Request) : Option FilterError :=
  match perform env files r with
  | .ok _ => none
  | .error failure => failure.filterError?

/-- A request is refused for an error of its filter: the exit status is 2, and JSON output holds the
failure under the given code. `stderr` is what `run` reports, without the lines of the log. -/
def Refuses (env : Environment) (files : Files) (r : Request) (e : FilterError) (code : String) :
    Prop :=
  ∃ failure : Failure,
    perform env files r = .error failure ∧ failure.filterError? = some e ∧ failure.code = code ∧
      (run env files r).exit = 2 ∧
      (r.json = true → (run env files r).stderr = failure.toJson.toLines ++ "\n")

section

variable {env : Environment} {files : Files} {r : Request} {failure : Failure} {e : FilterError}

theorem refusal_eq_some : refusal env files r = some e ↔
    ∃ failure, perform env files r = .error failure ∧ failure.filterError? = some e := by
  unfold refusal
  split <;> simp [*]

theorem refuses_of_perform (h : perform env files r = .error failure)
    (he : failure.filterError? = some e) : Refuses env files r e failure.code := by
  refine ⟨failure, h, he, rfl, ?_, fun hjson => ?_⟩
  · simp only [run, h, Failure.exitCode_of_filterError? he]
  · simp only [run, h, hjson, if_true]

/-- What a refused request reports in JSON is read as its failure. -/
theorem Refuses.read_stderr {code : String} (h : Refuses env files r e code)
    (hjson : r.json = true) : ∃ failure : Failure, failure.filterError? = some e ∧
      failure.code = code ∧ Json.read (run env files r).stderr = some failure.toJson := by
  obtain ⟨failure, -, he, hcode, -, hstderr⟩ := h
  refine ⟨failure, he, hcode, ?_⟩
  rw [hstderr hjson]
  exact failure.textual_toJson.read_write Json.loose_pretty Json.isBlank_newline

/-- A request fails in one way only, and so it is refused under one code only. -/
theorem Refuses.unique {code code' : String} (h : Refuses env files r e code)
    (h' : Refuses env files r e code') : code = code' := by
  obtain ⟨failure, hfailure, -, rfl, -⟩ := h
  obtain ⟨failure', hfailure', -, rfl, -⟩ := h'
  rw [hfailure, Except.error.injEq] at hfailure'
  rw [hfailure']

end

/-- The files that both commands read first hold these settings and this tree of elements. -/
structure Reads (env : Environment) (files : Files) (config : Option String) (filter : String)
    (settings : Settings) (element : Element) : Prop where
  settings : ∃ path, settingsPath env config = .ok path ∧
    Settings.ofFile path (files path) = .ok settings
  element : ∃ text, (files filter).text = .ok text ∧
    Json.decodeText Element.decoder text = some element

/-- What is wrong with a filter: it cannot be read out of its elements, or it has no plan. -/
inductive Faulty (settings : Settings) (element : Element) (e : FilterError) : Prop
  | unread : element.toFilter = .error e → Faulty settings element e
  | unplanned (f : CompFilter) : element.toFilter = .ok f →
      (settings.planner .standard).plan f = .error e → Faulty settings element e

namespace Reads

variable {env : Environment} {files : Files} {config : Option String} {filter snapshot : String}
  {settings : Settings} {element : Element} {resources : List Resource} {failure : Failure}
  {e : FilterError}

theorem filterOfFile_eq (h : Reads env files config filter settings element) :
    filterOfFile filter (files filter) = element.toFilter.mapError .filter := by
  obtain ⟨text, htext, helement⟩ := h.element
  simp only [filterOfFile, htext, helement]

/-- Compiling fails with its filter and in no other way. -/
theorem compile_fails_iff (h : Reads env files config filter settings element)
    (verbose json : Bool) :
    perform env files ⟨verbose, json, config, .compile filter⟩ = .error failure ↔
      ∃ e, Faulty settings element e ∧ failure = .filter e := by
  obtain ⟨path, hpath, hsettings⟩ := h.settings
  have hperform : perform env files ⟨verbose, json, config, .compile filter⟩ = .error failure ↔
      (∃ e, element.toFilter = .error e ∧ .filter e = failure) ∨
      ∃ f, element.toFilter = .ok f ∧
        ∃ e, (settings.planner .standard).plan f = .error e ∧ .filter e = failure := by
    simp [perform, hpath, hsettings, h.filterOfFile_eq, bind_eq_error, mapError_eq_error,
      mapError_eq_ok, pure, Except.pure]
  rw [hperform]
  constructor
  · rintro (⟨e, hread, rfl⟩ | ⟨f, hread, e, hplan, rfl⟩)
    · exact ⟨e, .unread hread, rfl⟩
    · exact ⟨e, .unplanned f hread hplan, rfl⟩
  · rintro ⟨e, hread | ⟨f, hread, hplan⟩, rfl⟩
    · exact .inl ⟨e, hread, rfl⟩
    · exact .inr ⟨f, hread, e, hplan, rfl⟩

/-- A search fails with its filter where it is not read, and else as the search in the snapshot
does. -/
theorem query_fails_iff (h : Reads env files config filter settings element)
    (hsnapshot : Snapshot.ofFile snapshot (files snapshot) = .ok resources)
    (verbose json : Bool) (collections : List String) (recursive : Bool) :
    perform env files ⟨verbose, json, config, .query filter snapshot collections recursive⟩ =
        .error failure ↔
      (∃ e, element.toFilter = .error e ∧ .filter e = failure) ∨
      ∃ f, element.toFilter = .ok f ∧
        ∃ error, search (Snapshot.answer resources) .standard settings f
          { collections, recursive } = .error error ∧ .search error = failure := by
  obtain ⟨path, hpath, hsettings⟩ := h.settings
  simp [perform, hpath, hsettings, hsnapshot, h.filterOfFile_eq, bind_eq_error, mapError_eq_error,
    mapError_eq_ok, pure, Except.pure]

/-- Compiling refuses exactly the faulty filters. -/
theorem refusal_compile (h : Reads env files config filter settings element)
    (verbose json : Bool) :
    refusal env files ⟨verbose, json, config, .compile filter⟩ = some e ↔
      Faulty settings element e := by
  simp only [refusal_eq_some, h.compile_fails_iff]
  constructor
  · rintro ⟨failure, ⟨e', he', rfl⟩, he⟩
    obtain rfl : e' = e := Option.some.inj he
    exact he'
  · intro he
    exact ⟨.filter e, ⟨e, he, rfl⟩, rfl⟩

theorem refuses_compile (h : Reads env files config filter settings element)
    (he : Faulty settings element e) (verbose json : Bool) :
    Refuses env files ⟨verbose, json, config, .compile filter⟩ e "FILTER_ERROR" :=
  refuses_of_perform ((h.compile_fails_iff verbose json).mpr ⟨e, he, rfl⟩) rfl

/-- A search refuses exactly the faulty filters, whatever it finds or fails to find. -/
theorem refusal_query (h : Reads env files config filter settings element)
    (hsnapshot : Snapshot.ofFile snapshot (files snapshot) = .ok resources)
    (verbose json : Bool) (collections : List String) (recursive : Bool) :
    refusal env files ⟨verbose, json, config, .query filter snapshot collections recursive⟩ =
        some e ↔ Faulty settings element e := by
  simp only [refusal_eq_some, h.query_fails_iff hsnapshot]
  constructor
  · rintro ⟨failure, ⟨e', hread, rfl⟩ | ⟨f, hread, error, hsearch, rfl⟩, he⟩
    · obtain rfl : e' = e := Option.some.inj he
      exact .unread hread
    · obtain hfilter | hfilter := Failure.filterError?_eq_some.mp he
      · cases hfilter
      · obtain rfl : error = .filter e := by simpa using hfilter
        exact .unplanned f hread (search_eq_filter_error.mp hsearch)
  · rintro (hread | ⟨f, hread, hplan⟩)
    · exact ⟨.filter e, .inl ⟨e, hread, rfl⟩, rfl⟩
    · exact ⟨.search (.filter e), .inr ⟨f, hread, _, search_eq_filter_error.mpr hplan, rfl⟩, rfl⟩

/-- An error of the elements makes the filter invalid, so its code does not depend on the way that
it takes; for a filter without a plan the code is that of the HTTP status. -/
theorem refuses_query (h : Reads env files config filter settings element)
    (hsnapshot : Snapshot.ofFile snapshot (files snapshot) = .ok resources)
    (he : Faulty settings element e) (verbose json : Bool) (collections : List String)
    (recursive : Bool) :
    Refuses env files ⟨verbose, json, config, .query filter snapshot collections recursive⟩ e
      (if e.beyondSupport then "FORBIDDEN" else "FILTER_ERROR") := by
  cases he with
  | unread hread =>
    obtain ⟨flaw, rfl⟩ := Element.strict_toFilter element e hread
    exact refuses_of_perform ((h.query_fails_iff hsnapshot verbose json collections recursive).mpr
      (.inl ⟨_, hread, rfl⟩)) rfl
  | unplanned f hread hplan =>
    rw [← Failure.code_search_filter]
    exact refuses_of_perform ((h.query_fails_iff hsnapshot verbose json collections recursive).mpr
      (.inr ⟨f, hread, _, search_eq_filter_error.mpr hplan, rfl⟩)) rfl

end Reads

section

variable {env : Environment} {files : Files} {config : Option String} {filter snapshot : String}
  {settings : Settings} {element : Element} {resources : List Resource}

/-- Compiling a filter and searching by it refuse the same filters for the same errors, and exit
with status 2. Compiling reports all these errors under one code, and a search does so too, except
where the filter is well formed but beyond what the server supports: that is forbidden. -/
theorem compile_query_refusal (h : Reads env files config filter settings element)
    (hsnapshot : Snapshot.ofFile snapshot (files snapshot) = .ok resources)
    (verbose json verbose' json' : Bool) (collections : List String) (recursive : Bool) :
    let compile : Request := ⟨verbose, json, config, .compile filter⟩
    let query : Request := ⟨verbose', json', config, .query filter snapshot collections recursive⟩
    refusal env files compile = refusal env files query ∧
      ∀ e, refusal env files compile = some e →
        Refuses env files compile e "FILTER_ERROR" ∧
        Refuses env files query e (if e.beyondSupport then "FORBIDDEN" else "FILTER_ERROR") := by
  intro compile query
  constructor
  · ext e
    rw [h.refusal_compile, h.refusal_query hsnapshot]
  · intro e he
    have hfaulty := (h.refusal_compile verbose json).mp he
    exact ⟨h.refuses_compile hfaulty verbose json,
      h.refuses_query hsnapshot hfaulty verbose' json' collections recursive⟩

end

def unknownProperty : Element where
  name := "comp-filter"
  attributes := .ofList [("name", "VCALENDAR")]
  children := [{
    name := "comp-filter"
    attributes := .ofList [("name", "VEVENT")]
    children := [{ name := "prop-filter", attributes := .ofList [("name", "X-FOO")] }] }]

/-- A directory with that filter beside an empty snapshot, and nothing else. -/
def unknownPropertyFiles : Files := .ofDirectory [
  ("filter.json", .file (unknownProperty.toJson.toLines ++ "\n").toUTF8),
  ("snapshot.json", .file ((Json.array []).toLines ++ "\n").toUTF8)]

def compileUnknownProperty : Request where
  verbose := false
  json := true
  config := some "config.toml"
  action := .compile "filter.json"

def queryUnknownProperty : Request where
  verbose := false
  json := true
  config := some "config.toml"
  action := .query "filter.json" "snapshot.json" [] false

theorem reads_unknownProperty :
    Reads {} unknownPropertyFiles (some "config.toml") "filter.json" {} unknownProperty := by
  have hconfig : unknownPropertyFiles "config.toml" = .absent .notFound :=
    Files.ofDirectory_unlisted (by decide) (by decide)
  have hfile : unknownPropertyFiles "filter.json" =
      .file (unknownProperty.toJson.toLines ++ "\n").toUTF8 :=
    Files.ofDirectory_listed (by decide) rfl
  refine ⟨⟨"config.toml", rfl, ?_⟩, unknownProperty.toJson.toLines ++ "\n", ?_, ?_⟩
  · rw [hconfig]
    rfl
  · rw [hfile, FileEntry.text_toUTF8]
  · exact unknownProperty.decodeText_write Json.loose_pretty (by decide) Json.isBlank_newline

theorem snapshot_unknownProperty :
    Snapshot.ofFile "snapshot.json" (unknownPropertyFiles "snapshot.json") = .ok [] := by
  have hfile : unknownPropertyFiles "snapshot.json" =
      .file ((Json.array []).toLines ++ "\n").toUTF8 :=
    Files.ofDirectory_listed (by decide) rfl
  rw [hfile]
  exact Snapshot.ofFile_found "snapshot.json" [] (by decide)

theorem faulty_unknownProperty : Faulty {} unknownProperty (.unknownProperty "X-FOO") :=
  .unplanned
    { name := "VCALENDAR"
      compFilters := [{ name := "VEVENT", propFilters := [{ name := "X-FOO" }] }] } rfl rfl

theorem compile_query_refusal_unknownProperty :
    (Reads {} unknownPropertyFiles (some "config.toml") "filter.json" {} unknownProperty ∧
      Snapshot.ofFile "snapshot.json" (unknownPropertyFiles "snapshot.json") = .ok []) ∧
    refusal {} unknownPropertyFiles compileUnknownProperty = some (.unknownProperty "X-FOO") ∧
    Refuses {} unknownPropertyFiles compileUnknownProperty (.unknownProperty "X-FOO")
      "FILTER_ERROR" ∧
    Refuses {} unknownPropertyFiles queryUnknownProperty (.unknownProperty "X-FOO")
      "FORBIDDEN" := by
  have hrefusal : refusal {} unknownPropertyFiles compileUnknownProperty =
      some (.unknownProperty "X-FOO") :=
    (reads_unknownProperty.refusal_compile false true).mpr faulty_unknownProperty
  obtain ⟨-, hcodes⟩ := compile_query_refusal reads_unknownProperty snapshot_unknownProperty
    false true false true [] false
  exact ⟨⟨reads_unknownProperty, snapshot_unknownProperty⟩, hrefusal, hcodes _ hrefusal⟩

/-- No code is the one that both commands report for an unknown property. -/
theorem unknownProperty_codes_differ :
    (Reads {} unknownPropertyFiles (some "config.toml") "filter.json" {} unknownProperty ∧
      Snapshot.ofFile "snapshot.json" (unknownPropertyFiles "snapshot.json") = .ok []) ∧
    refusal {} unknownPropertyFiles compileUnknownProperty = some (.unknownProperty "X-FOO") ∧
    refusal {} unknownPropertyFiles queryUnknownProperty = some (.unknownProperty "X-FOO") ∧
    ¬ ∃ code,
      Refuses {} unknownPropertyFiles compileUnknownProperty (.unknownProperty "X-FOO") code ∧
      Refuses {} unknownPropertyFiles queryUnknownProperty (.unknownProperty "X-FOO") code := by
  have hreads := reads_unknownProperty
  have hsnapshot := snapshot_unknownProperty
  refine ⟨⟨hreads, hsnapshot⟩, (hreads.refusal_compile false true).mpr faulty_unknownProperty,
    (hreads.refusal_query hsnapshot false true [] false).mpr faulty_unknownProperty, ?_⟩
  rintro ⟨code, hcompile, hquery⟩
  have hfilter : code = "FILTER_ERROR" :=
    hcompile.unique (hreads.refuses_compile faulty_unknownProperty false true)
  have hforbidden : code = "FORBIDDEN" :=
    hquery.unique (hreads.refuses_query hsnapshot faulty_unknownProperty false true [] false)
  exact absurd (hfilter.symm.trans hforbidden) (by decide)

end Command

end CalendarSearch
