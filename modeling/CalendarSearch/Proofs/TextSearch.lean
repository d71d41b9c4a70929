import CalendarSearch.Proofs.Conditions

/-! # What a search for a text finds

A text is searched for in the values of a property, or in those of one of its parameters. It is
found in a value where it stands as a block of neighbouring characters; a caseless search lets the
ASCII letters of the block differ in case, and no other character. The negated search is not the
opposite of the plain one: both need a value to search in, and where there is one just one of them
holds. -/

namespace CalendarSearch

namespace Text

/-! ### Characters that count as the same -/

/-- The first character is an ASCII capital, and the second its small letter. -/
def IsCapitalOf (capital small : Char) : Prop :=
  65 ≤ capital.toNat ∧ capital.toNat ≤ 90 ∧ small.toNat = capital.toNat + 32

/-- The characters are equal, or the search is caseless and they are the two cases of an ASCII
letter. -/
def Same (caseless : Bool) (a b : Char) : Prop :=
  a = b ∨ caseless = true ∧ (IsCapitalOf a b ∨ IsCapitalOf b a)

/-- Outside ASCII no two characters count as the same. -/
theorem Same.eq_of_not_ascii {caseless : Bool} {a b : Char} (h : Same caseless a b)
    (hascii : 128 ≤ a.toNat ∨ 128 ≤ b.toNat) : a = b := by
  obtain h | ⟨-, h⟩ := h
  · exact h
  · unfold IsCapitalOf at h
    omega

theorem toNat_toLower (c : Char) :
    c.toLower.toNat = if 65 ≤ c.toNat ∧ c.toNat ≤ 90 then c.toNat + 32 else c.toNat := by
  have hcapital : (c.val ≥ 'A'.val ∧ c.val ≤ 'Z'.val) ↔ 65 ≤ c.toNat ∧ c.toNat ≤ 90 := by
    rw [ge_iff_le, UInt32.le_iff_toNat_le, UInt32.le_iff_toNat_le]
    rfl
  unfold Char.toLower
  split
  · rename_i hc
    have hc := hcapital.mp hc
    rw [if_pos hc]
    show (c.val + ('a'.val - 'A'.val)).toNat = _
    rw [UInt32.toNat_add]
    show (c.toNat + 32) % 2 ^ 32 = _
    omega
  · rename_i hc
    rw [if_neg fun h => hc (hcapital.mpr h)]

/-- Folding identifies a letter with its other case and nothing else. -/
theorem toLower_eq_toLower_iff {a b : Char} : a.toLower = b.toLower ↔ Same true a b := by
  rw [← Char.toNat_inj, toNat_toLower, toNat_toLower, Same, ← Char.toNat_inj]
  simp only [IsCapitalOf, true_and]
  split <;> split <;> omega

/-! ### Texts that stand in others -/

/-- The needle is a block of neighbouring characters of the text, up to characters that count as the
same. -/
def StandsIn (caseless : Bool) (needle text : String) : Prop :=
  ∃ before block after, text.toList = before ++ block ++ after ∧
    List.Forall₂ (Same caseless) needle.toList block

theorem forall₂_same_false {cs ds : List Char} : List.Forall₂ (Same false) cs ds ↔ cs = ds := by
  have hsame : Same false = Eq := by
    funext a b
    simp [Same]
  rw [hsame, List.forall₂_eq_eq_eq]

theorem forall₂_same_true {cs ds : List Char} :
    List.Forall₂ (Same true) cs ds ↔ cs.map Char.toLower = ds.map Char.toLower := by
  rw [← List.forall₂_eq_eq_eq, List.forall₂_map_left_iff, List.forall₂_map_right_iff]
  simp only [toLower_eq_toLower_iff]

/-- A search for a needle finds it as an infix, up to case where case does not count. -/
theorem contains_iff {caseless : Bool} {text needle : String} :
    contains caseless text needle = true ↔ StandsIn caseless needle text := by
  unfold contains StandsIn
  cases caseless with
  | false =>
    simp only [Bool.false_eq_true, if_false, occurs_iff, forall₂_same_false]
    exact ⟨fun ⟨before, after, h⟩ => ⟨before, _, after, h.symm, rfl⟩,
      fun ⟨before, _, after, h, hblock⟩ => ⟨before, after, hblock ▸ h.symm⟩⟩
  | true =>
    simp only [if_true, occurs_iff, fold, List.infix_map_iff, forall₂_same_true]
    constructor
    · rintro ⟨block, ⟨before, after, h⟩, hblock⟩
      exact ⟨before, block, after, h.symm, hblock⟩
    · rintro ⟨before, block, after, h, hblock⟩
      exact ⟨block, ⟨before, after, h.symm⟩, hblock⟩

theorem Same.relax {a b : Char} (h : Same false a b) (caseless : Bool) : Same caseless a b := by
  obtain h | ⟨hfalse, -⟩ := h
  · exact .inl h
  · cases hfalse

/-- What is found in a search that minds the case is found in one that does not. -/
theorem StandsIn.relax {needle text : String} (h : StandsIn false needle text) (caseless : Bool) :
    StandsIn caseless needle text := by
  obtain ⟨before, block, after, htext, hblock⟩ := h
  exact ⟨before, block, after, htext, hblock.imp fun _ _ hab => hab.relax caseless⟩

/-! ### Texts in another case -/

/-- The texts differ at most in the case of ASCII letters. -/
def Recased (s t : String) : Prop := List.Forall₂ (Same true) s.toList t.toList

theorem recased_iff {s t : String} : Recased s t ↔ fold s = fold t := forall₂_same_true

end Text

open Text

/-! ### Components in another case -/

/-- The same parameter, with its value in another case. -/
structure Param.Recased (p q : Param) : Prop where
  id : p.id = q.id
  value : Text.Recased p.value q.value

/-- The same property, with its value and those of its parameters in other cases. -/
structure Property.Recased (p q : Property) : Prop where
  id : p.id = q.id
  value : Text.Recased p.value q.value
  params : List.Forall₂ Param.Recased p.params q.params

/-- The same properties, with their values in other cases. -/
def Component.Recased (c d : Component) : Prop :=
  List.Forall₂ Property.Recased c.properties d.properties

/-! ### Where texts are searched for -/

/-- The values of a property, or those of one of its parameters. -/
inductive TextPlace where
  | property (id : PropertyName)
  | param (id : PropertyName) (name : ParamName)

namespace TextPlace

/-- The predicate that makes a search there. -/
def asks : TextPlace → TextTest → Predicate
  | property id, test => .propertyText id test
  | param id name, test => .paramText id name test

/-- The component has the value there: in an instance of the property, or in the first parameter of
that name that an instance has. -/
def Holds (c : Component) (value : String) : TextPlace → Prop
  | property id => ∃ p ∈ c.properties, p.id = id ∧ p.value = value
  | param id name => ∃ p ∈ c.properties, p.id = id ∧ ∃ before q after,
      p.params = before ++ q :: after ∧ (∀ r ∈ before, r.id ≠ name) ∧ q.id = name ∧ q.value = value

/-- All the values there. -/
def values (c : Component) : TextPlace → List String
  | property id => (c.instances id).map Property.value
  | param id name => c.paramValues id name

variable {place : TextPlace} {c d : Component}

theorem eval_asks (place : TextPlace) (test : TextTest) (owner : Option Component) (c : Component) :
    (place.asks test).eval owner c = test.holds (place.values c) := by
  cases place with
  | property id => rw [asks, Predicate.eval, values]
  | param id name => rw [asks, Predicate.eval, values]

/-- The first parameter of a name is the one that counts. -/
theorem param?_eq_some_iff {p : Property} {name : ParamName} {value : String} :
    p.param? name = some value ↔ ∃ before q after, p.params = before ++ q :: after ∧
      (∀ r ∈ before, r.id ≠ name) ∧ q.id = name ∧ q.value = value := by
  simp only [Property.param?, Option.map_eq_some_iff, List.find?_eq_some_iff_append,
    decide_eq_true_eq, Bool.not_eq_true', decide_eq_false_iff_not]
  constructor
  · rintro ⟨q, ⟨hname, before, after, hparams, hbefore⟩, hvalue⟩
    exact ⟨before, q, after, hparams, hbefore, hname, hvalue⟩
  · rintro ⟨before, q, after, hparams, hbefore, hname, hvalue⟩
    exact ⟨q, ⟨hname, before, after, hparams, hbefore⟩, hvalue⟩

theorem mem_values {value : String} : value ∈ place.values c ↔ place.Holds c value := by
  cases place with
  | property id =>
    simp [values, Holds, Component.instances, and_assoc]
  | param id name =>
    simp [values, Holds, Component.paramValues, Component.instances, param?_eq_some_iff, and_assoc]

/-! ### Values in another case -/

theorem recased_instances (h : c.Recased d) (id : PropertyName) :
    List.Forall₂ Property.Recased (c.instances id) (d.instances id) :=
  List.rel_filter (fun {p q} hpq => by simp only [hpq.id]) h

/-- The first parameter of a name is the same one in both. -/
theorem recased_param? {p q : Property} (h : p.Recased q) (name : ParamName) :
    Option.Rel Text.Recased (p.param? name) (q.param? name) := by
  have first {rs ss : List Param} (hrs : List.Forall₂ Param.Recased rs ss) :
      Option.Rel Text.Recased ((rs.find? (·.id = name)).map Param.value)
        ((ss.find? (·.id = name)).map Param.value) := by
    induction hrs with
    | nil => exact .none
    | cons hrs _ ih =>
      rename_i r s _ _ _
      by_cases hr : r.id = name
      · have hs : s.id = name := hrs.id ▸ hr
        simp only [List.find?_cons, hr, hs, decide_true, Option.map_some]
        exact .some hrs.value
      · have hs : s.id ≠ name := hrs.id ▸ hr
        simp only [List.find?_cons, hr, hs, decide_false]
        exact ih
  exact first h.params

theorem recased_values (h : c.Recased d) (place : TextPlace) :
    List.Forall₂ Text.Recased (place.values c) (place.values d) := by
  cases place with
  | property id =>
    exact List.rel_map (fun _ _ hpq => hpq.value) (recased_instances h id)
  | param id name =>
    exact List.rel_filterMap (R := Property.Recased) (fun {p q} hpq => recased_param? hpq name)
      (recased_instances h id)

end TextPlace

namespace TextTest

/-! ### What a test says of values -/

variable {needle : String} {caseless : Bool} {vs : List String}

theorem holds_plain : holds ⟨needle, caseless, false⟩ vs = true ↔
    ∃ v ∈ vs, StandsIn caseless needle v := by
  cases vs with
  | nil => simp [holds]
  | cons v vs => simp [holds, contains_iff]

/-- A negated test still needs a value, and no value may hold the needle. -/
theorem holds_negated : holds ⟨needle, caseless, true⟩ vs = true ↔
    (∃ v, v ∈ vs) ∧ ∀ v ∈ vs, ¬StandsIn caseless needle v := by
  cases vs with
  | nil => simp [holds]
  | cons v vs => simp [holds, ← contains_iff]

theorem holds_nil (test : TextTest) : holds test [] = false := rfl

/-- Where there is a value, the negated test is the opposite of the plain one. -/
theorem holds_opposite (hvs : vs ≠ []) :
    holds ⟨needle, caseless, true⟩ vs = !holds ⟨needle, caseless, false⟩ vs := by
  cases vs with
  | nil => exact absurd rfl hvs
  | cons v vs => simp [holds]

/-- A caseless test does not see the case of anything. -/
theorem holds_recased {needle' : String} {ws : List String} (hneedle : Recased needle needle')
    (hvs : List.Forall₂ Recased vs ws) (negate : Bool) :
    holds ⟨needle, true, negate⟩ vs = holds ⟨needle', true, negate⟩ ws := by
  have hany :
      (vs.any fun v => contains true v needle) = ws.any fun w => contains true w needle' := by
    induction hvs with
    | nil => rfl
    | cons hvw _ ih =>
      rw [List.any_cons, List.any_cons, ih]
      simp only [contains, if_true, recased_iff.mp hneedle, recased_iff.mp hvw]
  have hempty : ws.isEmpty = vs.isEmpty := Traversal.isEmpty_eq_isEmpty hvs
  simp only [holds, hany, hempty]

end TextTest

/-- The plain search holds where the needle stands in one of the values, and the negated one where
there are values and it stands in none of them: so where there is a value just one of the two holds,
and where there is none neither does. What is found with regard to the case is found without, and a
caseless search gives the same answer when letters of the needle and of the values change their
case. Outside ASCII a character is found only as itself. -/
theorem search_texts (place : TextPlace) (needle : String) (owner : Option Component)
    (c : Component) :
    (∀ negate,
      Planner.textTest ⟨needle, caselessCollation, negate⟩ = .ok ⟨needle, true, negate⟩ ∧
      Planner.textTest ⟨needle, octetCollation, negate⟩ = .ok ⟨needle, false, negate⟩) ∧
    (∀ caseless,
      ((place.asks ⟨needle, caseless, false⟩).eval owner c = true ↔
        ∃ v, place.Holds c v ∧ StandsIn caseless needle v) ∧
      ((place.asks ⟨needle, caseless, true⟩).eval owner c = true ↔
        (∃ v, place.Holds c v) ∧ ∀ v, place.Holds c v → ¬StandsIn caseless needle v) ∧
      ((∃ v, place.Holds c v) →
        (place.asks ⟨needle, caseless, true⟩).eval owner c =
          !(place.asks ⟨needle, caseless, false⟩).eval owner c) ∧
      ((¬∃ v, place.Holds c v) →
        ∀ negate, (place.asks ⟨needle, caseless, negate⟩).eval owner c = false)) ∧
    ((place.asks ⟨needle, false, false⟩).eval owner c = true →
      (place.asks ⟨needle, true, false⟩).eval owner c = true) ∧
    (∀ needle' owner' d negate, Recased needle needle' → c.Recased d →
      (place.asks ⟨needle', true, negate⟩).eval owner' d =
        (place.asks ⟨needle, true, negate⟩).eval owner c) ∧
    ∀ caseless a b, Same caseless a b → 128 ≤ a.toNat ∨ 128 ≤ b.toNat → a = b := by
  simp only [TextPlace.eval_asks, ← TextPlace.mem_values]
  refine ⟨?collations, ?found, ?relaxed, ?recased, fun _ _ _ h => h.eq_of_not_ascii⟩
  case collations =>
    exact fun negate => ⟨rfl, rfl⟩
  case found =>
    intro caseless
    refine ⟨TextTest.holds_plain, TextTest.holds_negated, fun ⟨v, hv⟩ => ?_, fun hnone negate => ?_⟩
    · exact TextTest.holds_opposite (List.ne_nil_of_mem hv)
    · have hnil : place.values c = [] :=
        List.eq_nil_iff_forall_not_mem.mpr fun v hv => hnone ⟨v, hv⟩
      rw [hnil, TextTest.holds_nil]
  case relaxed =>
    intro hfound
    obtain ⟨v, hv, hstands⟩ := TextTest.holds_plain.mp hfound
    exact TextTest.holds_plain.mpr ⟨v, hv, hstands.relax true⟩
  case recased =>
    intro needle' _ d negate hneedle hrecased
    exact (TextTest.holds_recased hneedle (TextPlace.recased_values hrecased place) negate).symm

def meeting : Component where
  kind := .event
  properties := [
    { id := .summary, value := "Café Meeting" },
    { id := .attendee, value := "mailto:ann@work", params := [{ id := .cn, value := "Ann" }] }]

/-- The same meeting with the letters in other cases, but for the one outside ASCII. -/
def loudMeeting : Component where
  kind := .event
  properties := [
    { id := .summary, value := "CAFé MEETING" },
    { id := .attendee, value := "mailto:ann@work", params := [{ id := .cn, value := "ANN" }] }]

theorem recased_loudMeeting : meeting.Recased loudMeeting := by
  have hsummary : Recased "Café Meeting" "CAFé MEETING" := recased_iff.mpr (by decide +kernel)
  have haddress : Recased "mailto:ann@work" "mailto:ann@work" := recased_iff.mpr rfl
  have hname : Recased "Ann" "ANN" := recased_iff.mpr (by decide +kernel)
  exact .cons ⟨rfl, hsummary, .nil⟩ (.cons ⟨rfl, haddress, .cons ⟨rfl, hname⟩ .nil⟩ .nil)

theorem search_texts_meeting :
    ((TextPlace.property .summary).Holds meeting "Café Meeting" ∧
      Recased "Meet" "mEET" ∧ meeting.Recased loudMeeting) ∧
    ((TextPlace.property .summary).asks ⟨"Meet", true, false⟩).eval none meeting = true ∧
    ((TextPlace.property .summary).asks ⟨"Meet", false, true⟩).eval none meeting = false ∧
    ((TextPlace.property .summary).asks ⟨"mEET", true, false⟩).eval none loudMeeting = true ∧
    ((TextPlace.property .summary).asks ⟨"CAFÉ", true, true⟩).eval none meeting = true ∧
    ((TextPlace.property .location).asks ⟨"Meet", true, true⟩).eval none meeting = false ∧
    ((TextPlace.param .attendee .cn).asks ⟨"ann", true, false⟩).eval none meeting = true := by
  have hvalue : (TextPlace.property .summary).Holds meeting "Café Meeting" :=
    ⟨_, List.mem_cons_self, rfl, rfl⟩
  have hneedle : Recased "Meet" "mEET" := recased_iff.mpr (by decide +kernel)
  have hfound : ((TextPlace.property .summary).asks ⟨"Meet", false, false⟩).eval none meeting =
      true := by decide +kernel
  have hplain : ((TextPlace.property .summary).asks ⟨"CAFÉ", true, false⟩).eval none meeting =
      false := by decide +kernel
  have hnowhere : ¬∃ v, (TextPlace.property .location).Holds meeting v := by
    simp [TextPlace.Holds, meeting]
  obtain ⟨-, hsummary, hrelaxed, hrecased, -⟩ :=
    search_texts (.property .summary) "Meet" none meeting
  have hcaseless := hrelaxed hfound
  have hnegated := (hsummary false).2.2.1 ⟨_, hvalue⟩
  have hloud := hrecased "mEET" none loudMeeting false hneedle recased_loudMeeting
  have haccent := ((search_texts (.property .summary) "CAFÉ" none meeting).2.1 true).2.2.1
    ⟨_, hvalue⟩
  have hlocation := ((search_texts (.property .location) "Meet" none meeting).2.1 true).2.2.2
    hnowhere true
  rw [hfound] at hnegated
  rw [hcaseless] at hloud
  rw [hplain] at haccent
  exact ⟨⟨hvalue, hneedle, recased_loudMeeting⟩, hcaseless, hnegated, hloud, haccent, hlocation,
    by decide +kernel⟩

end CalendarSearch
