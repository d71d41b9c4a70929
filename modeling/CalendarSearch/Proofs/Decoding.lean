import CalendarSearch.Component.Codec
import CalendarSearch.Filter.Codec

/-! # Decoding gives back what was encoded

A decoder recovers a value from a JSON value if it gives the value back as soon as it may enter as
many arrays and objects as lie within one another there. -/

namespace CalendarSearch

open Json (Decoder)

namespace Json

variable {α : Type}

/-! ### Members of records -/

theorem lookup_of_mem {members : List (String × Json)} (h : (members.map Prod.fst).Nodup)
    {member : String × Json} (hm : member ∈ members) :
    (members.map fun (name, value) => (some name, value)).lookup (some member.1) =
      some member.2 := by
  induction members with
  | nil => cases hm
  | cons first members ih =>
    obtain ⟨hfirst, hrest⟩ := List.nodup_cons.mp h
    obtain rfl | hm := List.mem_cons.mp hm
    · simp
    · have hne : member.1 ≠ first.1 := fun he => hfirst (he ▸ List.mem_map_of_mem hm)
      simp [List.lookup_cons, beq_false_of_ne hne, ih hrest hm]

/-- A key that was not written is read as missing, which is where a default comes in. -/
theorem lookup_of_not_mem {members : List (String × Json)} {name : String}
    (h : name ∉ members.map Prod.fst) :
    (members.map fun (name, value) => (some name, value)).lookup (some name) = none := by
  refine List.lookup_eq_none_iff.mpr fun entry hentry => ?_
  obtain ⟨member, hm, rfl⟩ := List.mem_map.mp hentry
  have hne : name ≠ member.1 := fun he => h (he ▸ List.mem_map_of_mem hm)
  simpa using hne

/-- The members of a record are found by their names, and names that are left out are missing. -/
theorem fields_record (names missing : List String) {members : List (String × Json)}
    (hnames : names = members.map Prod.fst ++ missing) (hnodup : names.Nodup) :
    fields names (record members) =
      some (members.map (fun member => some member.2) ++ missing.map fun _ => none) := by
  subst hnames
  obtain ⟨hkeys, -, hmissing⟩ := List.nodup_append.mp hnodup
  have hall : (members.map fun (name, value) => (some name, value)).all (·.1.isSome) = true := by
    simp
  have hcount : (members.map Prod.fst ++ missing).all (fun name =>
      (members.map fun (name, value) => (some name, value)).countP (·.1 == some name) ≤ 1) =
        true := by
    refine List.all_eq_true.mpr fun name _ => decide_eq_true ?_
    have hname := List.nodup_iff_count.mp hkeys name
    rw [List.count, List.countP_map] at hname
    rw [List.countP_map]
    simpa [Function.comp_def] using hname
  rw [record, fields, hall, hcount]
  simp only [Bool.and_self, if_true, List.map_append, List.map_map]
  congr 2
  · exact List.map_congr_left fun member hm => lookup_of_mem hkeys hm
  · exact List.map_congr_left fun name hname =>
      lookup_of_not_mem fun hm => hmissing name hm name hname rfl

/-! ### How deep values are nested -/

theorem depth_lt_array {items : List Json} {j : Json} (h : j ∈ items) :
    j.depth < (array items).depth := by
  have hle : j.depth ≤ depthOfItems items := by
    induction h with
    | head items => exact Nat.le_max_left _ _
    | tail item _ ih => exact Nat.le_trans ih (Nat.le_max_right _ _)
  exact Nat.lt_succ_of_le hle

theorem depth_lt_record {members : List (String × Json)} {name : String} {j : Json}
    (h : (name, j) ∈ members) : j.depth < (record members).depth := by
  have hle : j.depth ≤ depthOfMembers (members.map fun (name, value) => (some name, value)) := by
    induction h with
    | head members => exact Nat.le_max_left _ _
    | tail first _ ih => exact Nat.le_trans ih (Nat.le_max_right _ _)
  exact Nat.lt_succ_of_le hle

namespace Decoder

/-- The decoder gives the value back as soon as it may enter as many arrays and objects as lie
within one another in the JSON value. -/
def Recovers (d : Decoder α) (j : Json) (a : α) : Prop := ∀ n, j.depth ≤ n → d n j = some a

variable {d : Decoder α} {a : α}

theorem Recovers.decode {j : Json} (h : d.Recovers j a) : Json.decode d j = some a :=
  h _ (Nat.le_refl _)

theorem recovers_string (s : String) : string.Recovers (.text s) s := fun _ _ => rfl

theorem recovers_bool (b : Bool) : bool.Recovers (.bool b) b := fun _ _ => rfl

theorem recovers_oneOf {choices : List (String × α)} {name : String}
    (h : choices.lookup name = some a) : (oneOf choices).Recovers (.text name) a := fun _ _ => h

/-- A missing value is written as `null`, so no value that is there may be. -/
theorem recovers_nullable {encode : α → Json} (hnull : ∀ a, encode a ≠ null)
    (h : ∀ a, d.Recovers (encode a) a) (o : Option α) :
    (nullable d).Recovers (Json.nullable encode o) o := by
  cases o with
  | none => exact fun _ _ => rfl
  | some a =>
    intro n hn
    have ha : d n (encode a) = some a := h a n hn
    rw [Json.nullable, nullable, ha]
    · rfl
    · exact hnull a

theorem recovers_optionalText (o : Option String) :
    (nullable string).Recovers (.nullable .text o) o :=
  recovers_nullable (fun _ h => by cases h) recovers_string o

theorem recovers_list {encode : α → Json} {as : List α} (h : ∀ a ∈ as, d.Recovers (encode a) a) :
    (list d).Recovers (.array (as.map encode)) as := by
  intro n hn
  cases n with
  | zero => simp [depth] at hn
  | succ n =>
    have hread : ∀ a ∈ as, d n (encode a) = some a := fun a ha => h a ha n
      (Nat.le_of_lt_succ (Nat.lt_of_lt_of_le (depth_lt_array (List.mem_map_of_mem ha)) hn))
    rw [list]
    clear h hn
    induction as with
    | nil => rfl
    | cons a as ih =>
      obtain ⟨ha, has⟩ := List.forall_mem_cons.mp hread
      rw [List.map_cons, List.mapM_cons, ha, ih has]
      rfl

/-- The fields of a record are one level less deep, which leaves fuel to read each. -/
theorem recovers_record {members : List (String × Json)}
    (h : ∀ n, (∀ member ∈ members, member.2.depth ≤ n) → d (n + 1) (record members) = some a) :
    d.Recovers (record members) a := by
  intro n hn
  cases n with
  | zero => simp [record, depth] at hn
  | succ n =>
    exact h n fun _ hm => Nat.le_of_lt_succ (Nat.lt_of_lt_of_le (depth_lt_record hm) hn)

/-- A decoder that reads values within values of their own type, level by level, recovers those
whose JSON is not deeper than the levels. -/
theorem recovers_levels {level : Decoder α → Decoder α} {upTo : Nat → Decoder α}
    {encode : α → Json} {children : α → List α}
    (hupTo : ∀ levels, upTo (levels + 1) = level (upTo levels))
    (hpos : ∀ a, 0 < (encode a).depth)
    (hdepth : ∀ a, ∀ child ∈ children a, (encode child).depth < (encode a).depth)
    (hlevel : ∀ (d : Decoder α) a, (∀ child ∈ children a, d.Recovers (encode child) child) →
      (level d).Recovers (encode a) a) {levels : Nat} :
    ∀ {a : α}, (encode a).depth ≤ levels → (upTo levels).Recovers (encode a) a := by
  induction levels with
  | zero => exact fun h => absurd h (Nat.not_le_of_lt (hpos _))
  | succ levels ih =>
    intro a h
    rw [hupTo]
    refine hlevel _ a fun child hc => ih ?_
    exact Nat.le_of_lt_succ (Nat.lt_of_lt_of_le (hdepth a child hc) h)

end Decoder

end Json

/-! ### Components and resources -/

theorem PropertyName.recovers (p : PropertyName) : decoder.Recovers p.toJson p :=
  Decoder.recovers_oneOf (by cases p <;> rfl)

theorem ParamName.recovers (p : ParamName) : decoder.Recovers p.toJson p :=
  Decoder.recovers_oneOf (by cases p <;> rfl)

theorem ComponentKind.recovers (k : ComponentKind) : decoder.Recovers k.toJson k :=
  Decoder.recovers_oneOf (by cases k <;> rfl)

theorem Param.recovers (p : Param) : decoder.Recovers p.toJson p := by
  refine Decoder.recovers_record fun n h => ?_
  simp only [List.forall_mem_cons] at h
  obtain ⟨hid, hvalue, -⟩ := h
  rw [decoder, Json.fields_record ["id", "value"] []]
  · simp [p.id.recovers n hid, Decoder.recovers_string p.value n hvalue]
  · rfl
  · decide

theorem Property.recovers (p : Property) : decoder.Recovers p.toJson p := by
  have hlist : (Decoder.list Param.decoder).Recovers
      (.array (p.params.map Param.toJson)) p.params :=
    Decoder.recovers_list fun q _ => q.recovers
  refine Decoder.recovers_record fun n h => ?_
  simp only [List.forall_mem_cons] at h
  obtain ⟨hid, hvalue, hparams, -⟩ := h
  rw [decoder, Json.fields_record ["id", "value", "params"] []]
  · simp [p.id.recovers n hid, Decoder.recovers_string p.value n hvalue, hlist n hparams]
  · rfl
  · decide

namespace Component

theorem alarmsToJson_eq_map (alarms : List Component) :
    alarmsToJson alarms = alarms.map toJson := by
  induction alarms with
  | nil => rfl
  | cons alarm alarms ih => rw [alarmsToJson, ih, List.map_cons]

theorem toJson_eq (c : Component) : c.toJson = .record [
    ("kind", c.kind.toJson),
    ("properties", .array (c.properties.map Property.toJson)),
    ("alarms", .array (c.alarms.map toJson))] := by
  obtain ⟨kind, properties, alarms⟩ := c
  rw [toJson, alarmsToJson_eq_map]

theorem recovers_decoderOver {alarm : Decoder Component} {c : Component}
    (h : ∀ a ∈ c.alarms, alarm.Recovers a.toJson a) : (decoderOver alarm).Recovers c.toJson c := by
  obtain ⟨kind, properties, alarms⟩ := c
  have hproperties : (Decoder.list Property.decoder).Recovers
      (.array (properties.map Property.toJson)) properties :=
    Decoder.recovers_list fun p _ => p.recovers
  have halarms : (Decoder.list alarm).Recovers (.array (alarms.map toJson)) alarms :=
    Decoder.recovers_list h
  rw [toJson_eq]
  refine Decoder.recovers_record fun n h => ?_
  simp only [List.forall_mem_cons] at h
  obtain ⟨hkind, hps, has, -⟩ := h
  rw [decoderOver, Json.fields_record ["kind", "properties", "alarms"] []]
  · simp [kind.recovers n hkind, hproperties n hps, halarms n has]
  · rfl
  · decide

theorem depth_toJson_lt {c alarm : Component} (h : alarm ∈ c.alarms) :
    alarm.toJson.depth < c.toJson.depth := by
  rw [toJson_eq c]
  exact Nat.lt_trans (Json.depth_lt_array (List.mem_map_of_mem h))
    (Json.depth_lt_record (.tail _ (.tail _ (.head _))))

theorem recovers (c : Component) : decoder.Recovers c.toJson c := fun _ hn =>
  Decoder.recovers_levels (fun _ => rfl) (fun c => by rw [toJson_eq]; exact Nat.succ_pos _)
    (fun _ _ h => depth_toJson_lt h) (fun _ _ h => recovers_decoderOver h) hn _ hn

end Component

theorem Resource.recovers (r : Resource) : decoder.Recovers r.toJson r := by
  refine Decoder.recovers_record fun n h => ?_
  simp only [List.forall_mem_cons] at h
  obtain ⟨hhref, hcollection, hcontainer, hcomponent, -⟩ := h
  rw [decoder, Json.fields_record ["href", "collection", "container", "component"] []]
  · simp [Decoder.recovers_string r.href n hhref,
      Decoder.recovers_string r.collection n hcollection,
      Decoder.recovers_string r.container n hcontainer, r.component.recovers n hcomponent]
  · rfl
  · decide

/-! ### Filters -/

theorem Junction.recovers (j : Junction) : decoder.Recovers j.toJson j :=
  Decoder.recovers_oneOf (by cases j <;> rfl)

theorem RangeText.recovers (r : RangeText) : decoder.Recovers r.toJson r := by
  refine Decoder.recovers_record fun n h => ?_
  simp only [List.forall_mem_cons] at h
  obtain ⟨hstart, hstop, -⟩ := h
  rw [decoder, Json.fields_record ["start", "end"] []]
  · simp [Decoder.recovers_optionalText r.start n hstart,
      Decoder.recovers_optionalText r.stop n hstop]
  · rfl
  · decide

theorem TextMatch.recovers (t : TextMatch) : decoder.Recovers t.toJson t := by
  refine Decoder.recovers_record fun n h => ?_
  simp only [List.forall_mem_cons] at h
  obtain ⟨hvalue, hcollation, hnegate, -⟩ := h
  rw [decoder, Json.fields_record ["value", "collation", "negate"] []]
  · simp [Decoder.recovers_string t.value n hvalue,
      Decoder.recovers_string t.collation n hcollation, Decoder.recovers_bool t.negate n hnegate]
  · rfl
  · decide

theorem recovers_optionalRange (o : Option RangeText) :
    (Decoder.nullable RangeText.decoder).Recovers (.nullable RangeText.toJson o) o :=
  Decoder.recovers_nullable (fun _ h => by cases h) RangeText.recovers o

theorem recovers_optionalMatch (o : Option TextMatch) :
    (Decoder.nullable TextMatch.decoder).Recovers (.nullable TextMatch.toJson o) o :=
  Decoder.recovers_nullable (fun _ h => by cases h) TextMatch.recovers o

theorem ParamFilter.recovers (f : ParamFilter) : decoder.Recovers f.toJson f := by
  refine Decoder.recovers_record fun n h => ?_
  simp only [List.forall_mem_cons] at h
  obtain ⟨hname, hdefined, htext, -⟩ := h
  rw [decoder, Json.fields_record ["name", "is_not_defined", "text_match"] []]
  · simp [Decoder.recovers_string f.name n hname, Decoder.recovers_bool f.isNotDefined n hdefined,
      recovers_optionalMatch f.textMatch n htext]
  · rfl
  · decide

theorem PropFilter.recovers (f : PropFilter) : decoder.Recovers f.toJson f := by
  have hlist : (Decoder.list ParamFilter.decoder).Recovers
      (.array (f.paramFilters.map ParamFilter.toJson)) f.paramFilters :=
    Decoder.recovers_list fun g _ => g.recovers
  refine Decoder.recovers_record fun n h => ?_
  simp only [List.forall_mem_cons] at h
  obtain ⟨hname, htest, hdefined, hrange, htext, hparams, -⟩ := h
  rw [decoder, Json.fields_record
    ["name", "test", "is_not_defined", "time_range", "text_match", "param_filters"] []]
  · simp [Decoder.recovers_string f.name n hname, f.test.recovers n htest,
      Decoder.recovers_bool f.isNotDefined n hdefined, recovers_optionalRange f.timeRange n hrange,
      recovers_optionalMatch f.textMatch n htext, hlist n hparams]
  · rfl
  · decide

namespace CompFilter

theorem childrenToJson_eq_map (fs : List CompFilter) : childrenToJson fs = fs.map toJson := by
  induction fs with
  | nil => rfl
  | cons f fs ih => rw [childrenToJson, ih, List.map_cons]

theorem toJson_eq (f : CompFilter) : f.toJson = .record [
    ("name", .text f.name),
    ("test", f.test.toJson),
    ("is_not_defined", .bool f.isNotDefined),
    ("time_range", .nullable RangeText.toJson f.timeRange),
    ("prop_filters", .array (f.propFilters.map PropFilter.toJson)),
    ("comp_filters", .array (f.compFilters.map toJson))] := by
  obtain ⟨name, test, isNotDefined, timeRange, propFilters, compFilters⟩ := f
  rw [toJson, childrenToJson_eq_map]

theorem recovers_decoderOver {child : Decoder CompFilter} {f : CompFilter}
    (h : ∀ g ∈ f.compFilters, child.Recovers g.toJson g) :
    (decoderOver child).Recovers f.toJson f := by
  obtain ⟨name, test, isNotDefined, timeRange, propFilters, compFilters⟩ := f
  have hprops : (Decoder.list PropFilter.decoder).Recovers
      (.array (propFilters.map PropFilter.toJson)) propFilters :=
    Decoder.recovers_list fun g _ => g.recovers
  have hcomps : (Decoder.list child).Recovers (.array (compFilters.map toJson)) compFilters :=
    Decoder.recovers_list h
  rw [toJson_eq]
  refine Decoder.recovers_record fun n h => ?_
  simp only [List.forall_mem_cons] at h
  obtain ⟨hname, htest, hdefined, hrange, hps, hcs, -⟩ := h
  rw [decoderOver, Json.fields_record
    ["name", "test", "is_not_defined", "time_range", "prop_filters", "comp_filters"] []]
  · simp [Decoder.recovers_string name n hname, test.recovers n htest,
      Decoder.recovers_bool isNotDefined n hdefined, recovers_optionalRange timeRange n hrange,
      hprops n hps, hcomps n hcs]
  · rfl
  · decide

theorem depth_toJson_lt {f g : CompFilter} (h : g ∈ f.compFilters) :
    g.toJson.depth < f.toJson.depth := by
  rw [toJson_eq f]
  exact Nat.lt_trans (Json.depth_lt_array (List.mem_map_of_mem h))
    (Json.depth_lt_record (.tail _ (.tail _ (.tail _ (.tail _ (.tail _ (.head _)))))))

theorem recovers (f : CompFilter) : decoder.Recovers f.toJson f := fun _ hn =>
  Decoder.recovers_levels (fun _ => rfl) (fun f => by rw [toJson_eq]; exact Nat.succ_pos _)
    (fun _ _ h => depth_toJson_lt h) (fun _ _ h => recovers_decoderOver h) hn _ hn

end CompFilter

/-! ### Elements -/

namespace Attributes

/-- A name that comes after all others has its place at the end. -/
theorem place_of_forall_lt {name value : String} {entries : List (String × String)}
    (h : ∀ e ∈ entries, e.1 < name) : place name value entries = entries ++ [(name, value)] := by
  induction entries with
  | nil => rfl
  | cons head rest ih =>
    obtain ⟨hhead, hrest⟩ := List.forall_mem_cons.mp h
    have hne : ¬name = head.1 := fun he => String.lt_irrefl _ (he ▸ hhead)
    have hnot : ¬name < head.1 := fun hlt => String.lt_irrefl _ (String.lt_trans hlt hhead)
    rw [place, if_neg hne, if_neg hnot, ih hrest, List.cons_append]

/-- Attributes are kept sorted and without repeats, so listing them loses nothing. -/
theorem ofList_entries (a : Attributes) : ofList a.entries = a := by
  have grown (entries : List (String × String)) (b : Attributes)
      (h : (b.entries ++ entries).Pairwise fun a b => a.1 < b.1) :
      (entries.foldl (fun a e => a.insert e.1 e.2) b).entries = b.entries ++ entries := by
    induction entries generalizing b with
    | nil => rw [List.foldl_nil, List.append_nil]
    | cons e entries ih =>
      have hplace : (b.insert e.1 e.2).entries = b.entries ++ [e] :=
        place_of_forall_lt fun e' he' =>
          (List.pairwise_append.mp h).2.2 e' he' e List.mem_cons_self
      rw [List.foldl_cons, ih, hplace, List.append_assoc, List.singleton_append]
      rwa [hplace, List.append_assoc, List.singleton_append]
  have hentries : (ofList a.entries).entries = a.entries := grown a.entries empty a.ordered
  cases hofList : ofList a.entries
  cases a
  simp_all

/-- The entries of an attribute record come back in the order they are kept in. -/
theorem texts_toJson (a : Attributes) (n : Nat) :
    Decoder.texts (n + 1) a.toJson = some a.entries := by
  rw [toJson, Json.record, Decoder.texts]
  induction a.entries with
  | nil => rfl
  | cons e entries ih =>
    rw [List.map_cons, List.map_cons, List.mapM_cons, ih]
    rfl

theorem recovers (a : Attributes) : decoder.Recovers a.toJson a := by
  refine Decoder.recovers_record fun n _ => ?_
  change (Decoder.texts (n + 1) a.toJson).map ofList = some a
  rw [texts_toJson, Option.map_some, ofList_entries]

end Attributes

namespace Element

theorem childrenToJson_eq_map (es : List Element) : childrenToJson es = es.map toJson := by
  induction es with
  | nil => rfl
  | cons e es ih => rw [childrenToJson, ih, List.map_cons]

theorem toJson_eq (e : Element) : e.toJson = .record ([
    ("name", .text e.name),
    ("attributes", e.attributes.toJson),
    ("children", .array (e.children.map toJson))] ++
    Json.optionalMember "text" (e.text.map Json.text)) := by
  obtain ⟨name, attributes, children, text⟩ := e
  rw [toJson, childrenToJson_eq_map]

theorem recovers_decoderOver {child : Decoder Element} {e : Element}
    (h : ∀ c ∈ e.children, child.Recovers c.toJson c) :
    (decoderOver child).Recovers e.toJson e := by
  obtain ⟨name, attributes, children, text⟩ := e
  have hchildren : (Decoder.list child).Recovers (.array (children.map toJson)) children :=
    Decoder.recovers_list h
  rw [toJson_eq]
  refine Decoder.recovers_record fun n h => ?_
  simp only [List.forall_mem_append, List.forall_mem_cons] at h
  obtain ⟨⟨hname, hattributes, hcs, -⟩, htext⟩ := h
  have hname := Decoder.recovers_string name n hname
  have hattributes := attributes.recovers n hattributes
  have hcs := hchildren n hcs
  rw [decoderOver]
  -- a text that is missing leaves its member out
  cases text with
  | none =>
    rw [Json.fields_record ["name", "attributes", "children", "text"] ["text"]]
    · simp [Json.optionalMember, hname, hattributes, hcs]
    · rfl
    · decide
  | some text =>
    have htext : Decoder.nullable .string n (.text text) = some (some text) :=
      Decoder.recovers_optionalText (some text) n (htext _ (.head _))
    rw [Json.fields_record ["name", "attributes", "children", "text"] []]
    · simp [Json.optionalMember, hname, hattributes, hcs, htext]
    · rfl
    · decide

theorem depth_toJson_lt {e child : Element} (h : child ∈ e.children) :
    child.toJson.depth < e.toJson.depth := by
  rw [toJson_eq e]
  exact Nat.lt_trans (Json.depth_lt_array (List.mem_map_of_mem h))
    (Json.depth_lt_record (List.mem_append_left _ (.tail _ (.tail _ (.head _)))))

theorem recovers (e : Element) : decoder.Recovers e.toJson e := fun _ hn =>
  Decoder.recovers_levels (fun _ => rfl) (fun e => by rw [toJson_eq]; exact Nat.succ_pos _)
    (fun _ _ h => depth_toJson_lt h) (fun _ _ h => recovers_decoderOver h) hn _ hn

end Element

/-- Reading the JSON of a resource, of a filter or of an element gives it back, however deep alarms,
nodes and elements lie within one another. -/
theorem decode_toJson :
    (∀ r : Resource, Json.decode Resource.decoder r.toJson = some r) ∧
      (∀ f : CompFilter, Json.decode CompFilter.decoder f.toJson = some f) ∧
      ∀ e : Element, Json.decode Element.decoder e.toJson = some e :=
  ⟨fun r => r.recovers.decode, fun f => f.recovers.decode, fun e => e.recovers.decode⟩

end CalendarSearch
