import CalendarSearch.Proofs.Evaluation

/-! # Relaxations are sound

In a sound relaxation the full predicate implies the coarse one, of every component and with every
owner, and an exact relaxation has the same predicate twice. Joining, negating and scoping to an
alarm keep relaxations sound, and do to the full predicate what they are named for. -/

namespace CalendarSearch.Relaxation

open Predicate (evalOptional)

structure Sound (r : Relaxation) : Prop where
  implied : ∀ owner c, evalOptional owner c r.full = true → evalOptional owner c r.coarse = true
  same : r.exact = true → r.coarse = r.full

variable (owner : Option Component) (c : Component)

/-! ### The full predicate -/

theorem eval_full_meet (parts : List Relaxation) :
    evalOptional owner c (meet parts).full = parts.all fun r => evalOptional owner c r.full := by
  rw [meet, Predicate.evalOptional_conjoin, List.all_map]
  rfl

theorem eval_full_join (parts : List Relaxation) :
    evalOptional owner c (join parts).full =
      Junction.any.joins (parts.map fun r => evalOptional owner c r.full) := by
  rw [join, Predicate.evalOptional_disjoin, List.map_map]
  rfl

theorem eval_full_ofParts (test : Junction) (parts : List Relaxation) :
    evalOptional owner c (ofParts (test = .all) parts).full =
      test.joins (parts.map fun r => evalOptional owner c r.full) := by
  cases test with
  | any =>
    simp only [ofParts, reduceCtorEq, decide_false, Bool.false_eq_true, if_false]
    exact eval_full_join owner c parts
  | all =>
    simp only [ofParts, decide_true, if_true]
    rw [eval_full_meet, Junction.joins, List.all_map]
    rfl

/-- With nothing asked of it, the alarm need only be there. -/
theorem eval_onAlarm (p : Option Predicate) :
    (onAlarm p).eval owner c = c.alarms.any fun alarm => evalOptional (some c) alarm p := by
  cases p with
  | none => cases h : c.alarms <;> simp [onAlarm, hasAlarm, Predicate.eval, Component.has, h]
  | some p => simp [onAlarm]

/-- A part that asks nothing cannot be negated, so the full predicate must be there. -/
theorem eval_full_opposite {r : Relaxation} (h : r.full.isSome = true) :
    evalOptional owner c r.opposite.full = !evalOptional owner c r.full := by
  obtain ⟨p, hp⟩ := Option.isSome_iff_exists.mp h
  simp [opposite, hp, Predicate.eval_opposite]

/-! ### Soundness -/

theorem Sound.ofPredicate (p : Predicate) : (ofPredicate p).Sound :=
  ⟨fun _ _ h => h, fun _ => rfl⟩

theorem Sound.meet {parts : List Relaxation} (h : ∀ r ∈ parts, r.Sound) :
    (meet parts).Sound where
  implied owner c hf := by
    simp only [Relaxation.meet, Predicate.evalOptional_conjoin, List.all_map,
      List.all_eq_true, Function.comp_apply] at hf ⊢
    exact fun r hr => (h r hr).implied owner c (hf r hr)
  same he := by
    have hmap : parts.map coarse = parts.map full :=
      List.map_congr_left fun r hr => (h r hr).same (List.all_eq_true.mp he r hr)
    simp only [Relaxation.meet, hmap]

/-- A disjunction asks the store nothing when one of its parts does, which is what keeps it
sound. -/
theorem Sound.join {parts : List Relaxation} (h : ∀ r ∈ parts, r.Sound) :
    (join parts).Sound where
  implied owner c hf := by
    simp only [Relaxation.join, Predicate.evalOptional_disjoin, Junction.joins, List.isEmpty_map,
      List.any_map, Bool.or_eq_true, List.any_eq_true, Function.comp_apply, id] at hf ⊢
    obtain hempty | ⟨r, hr, hf⟩ := hf
    · exact .inl hempty
    · exact .inr ⟨r, hr, (h r hr).implied owner c hf⟩
  same he := by
    have hmap : parts.map coarse = parts.map full :=
      List.map_congr_left fun r hr => (h r hr).same (List.all_eq_true.mp he r hr)
    simp only [Relaxation.join, hmap]

theorem Sound.ofParts (all : Bool) {parts : List Relaxation} (h : ∀ r ∈ parts, r.Sound) :
    (ofParts all parts).Sound := by
  cases all with
  | true => exact .meet h
  | false => exact .join h

/-- The opposite of a weaker predicate would be stronger, so what is not exact loses its coarse
predicate. -/
theorem Sound.opposite {r : Relaxation} (h : r.Sound) : r.opposite.Sound where
  implied owner c hf := by
    cases he : r.exact with
    | true => simpa [Relaxation.opposite, he, h.same he] using hf
    | false => simp [Relaxation.opposite, he]
  same he := by
    have he' : r.exact = true := he
    simp [Relaxation.opposite, he', h.same he']

/-- The alarm that passes the full predicate passes the coarse one. -/
theorem Sound.onOneAlarm {r : Relaxation} (h : r.Sound) : r.onOneAlarm.Sound where
  implied owner c hf := by
    simp only [Relaxation.onOneAlarm, Predicate.evalOptional_some, eval_onAlarm,
      List.any_eq_true] at hf ⊢
    obtain ⟨alarm, ha, hf⟩ := hf
    exact ⟨alarm, ha, h.implied (some c) alarm hf⟩
  same he := by simp only [Relaxation.onOneAlarm, h.same he]

/-! ### What is there -/

theorem isSome_full_meet (parts : List Relaxation) :
    (meet parts).full.isSome = parts.any fun r => r.full.isSome := by
  rw [meet, Predicate.isSome_conjoin, List.any_map]
  rfl

theorem isSome_coarse_meet (parts : List Relaxation) :
    (meet parts).coarse.isSome = parts.any fun r => r.coarse.isSome := by
  rw [meet, Predicate.isSome_conjoin, List.any_map]
  rfl

/-- Parts that are all there leave something, joined by either test, unless there are none. -/
theorem isSome_joined (all : Bool) {view : Relaxation → Option Predicate} {parts : List Relaxation}
    (h : ∀ r ∈ parts, (view r).isSome = true) :
    (if all then Predicate.conjoin (parts.map view) else disjoin (parts.map view)).isSome =
      !parts.isEmpty := by
  have hnone : none ∉ parts.map view := by simpa [Option.isSome_iff_ne_none] using h
  rw [← List.isEmpty_map]
  cases all with
  | true =>
    rw [if_pos rfl, Predicate.isSome_conjoin]
    obtain ⟨qs, hqs⟩ := Predicate.exists_map_some hnone
    rw [hqs]
    cases qs <;> rfl
  | false =>
    rw [if_neg Bool.false_ne_true]
    exact Predicate.isSome_disjoin hnone

theorem isSome_full_ofParts (all : Bool) {parts : List Relaxation}
    (h : ∀ r ∈ parts, r.full.isSome = true) :
    (ofParts all parts).full.isSome = !parts.isEmpty := by
  rw [← isSome_joined all h]
  cases all <;> rfl

theorem isSome_coarse_ofParts (all : Bool) {parts : List Relaxation}
    (h : ∀ r ∈ parts, r.coarse.isSome = true) :
    (ofParts all parts).coarse.isSome = !parts.isEmpty := by
  rw [← isSome_joined all h]
  cases all <;> rfl

/-! ### The builders -/

/-- Every builder keeps relaxations sound. Of the full predicates, `meet` is the conjunction, `join`
the disjunction, or everything if there is nothing to join, `opposite` the negation, where there is
something to negate, and `onOneAlarm` says of one alarm, with the component as its owner, what was
said of the component. -/
theorem builders_sound {parts : List Relaxation} {r : Relaxation} (hparts : ∀ q ∈ parts, q.Sound)
    (hr : r.Sound) :
    ((meet parts).Sound ∧ ∀ owner c, evalOptional owner c (meet parts).full = true ↔
      ∀ q ∈ parts, evalOptional owner c q.full = true) ∧
    ((join parts).Sound ∧ ∀ owner c, evalOptional owner c (join parts).full = true ↔
      parts = [] ∨ ∃ q ∈ parts, evalOptional owner c q.full = true) ∧
    (r.opposite.Sound ∧ (r.full.isSome = true → ∀ owner c,
      (evalOptional owner c r.opposite.full = true ↔ ¬evalOptional owner c r.full = true))) ∧
    (r.onOneAlarm.Sound ∧ ∀ owner c, evalOptional owner c r.onOneAlarm.full = true ↔
      ∃ alarm ∈ c.alarms, evalOptional (some c) alarm r.full = true) := by
  refine ⟨⟨.meet hparts, fun owner c => ?_⟩, ⟨.join hparts, fun owner c => ?_⟩,
    ⟨hr.opposite, fun hsome owner c => ?_⟩, ⟨hr.onOneAlarm, fun owner c => ?_⟩⟩
  · rw [eval_full_meet, List.all_eq_true]
  · rw [eval_full_join, Junction.joins]
    simp
  · rw [eval_full_opposite owner c hsome, Bool.not_eq_true', Bool.not_eq_true]
  · rw [onOneAlarm, Predicate.evalOptional_some, eval_onAlarm, List.any_eq_true]

/-- A comment is asked for, which the store cannot search by. -/
def hasComment : Relaxation := ⟨some (.property .comment true), none, false⟩

/-- What stays of the comment is nothing in the negation, and an alarm in the other. -/
theorem builders_sound_hasComment :
    ((∀ q ∈ [ofPredicate (.kind .event), hasComment], q.Sound) ∧ hasComment.Sound) ∧
    (meet [ofPredicate (.kind .event), hasComment]).Sound ∧
    (join [ofPredicate (.kind .event), hasComment]).Sound ∧
    (hasComment.opposite.Sound ∧ hasComment.opposite.coarse = none) ∧
    (hasComment.onOneAlarm.Sound ∧ hasComment.onOneAlarm.coarse = some hasAlarm) := by
  have hcomment : hasComment.Sound := ⟨fun _ _ _ => rfl, nofun⟩
  have hparts : ∀ q ∈ [ofPredicate (.kind .event), hasComment], q.Sound := by
    simpa using ⟨Sound.ofPredicate (.kind .event), hcomment⟩
  obtain ⟨⟨hmeet, -⟩, ⟨hjoin, -⟩, ⟨hopposite, -⟩, ⟨halarm, -⟩⟩ := builders_sound hparts hcomment
  exact ⟨⟨hparts, hcomment⟩, hmeet, hjoin, ⟨hopposite, rfl⟩, ⟨halarm, rfl⟩⟩

end CalendarSearch.Relaxation
