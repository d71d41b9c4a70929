import CalendarSearch.Proofs.Nodes
import CalendarSearch.Proofs.Validity

/-! # The filters that can be planned

A planner accepts the valid filters, and no others: each of its readings gives an answer exactly
where what it reads is valid, and else an error that tells a fault of it. -/

namespace CalendarSearch

open Traversal

namespace Planner

variable {x : Planner}

/-! ### Every reading has a verdict -/

theorem verdict_readRange {r : RangeText} :
    Verdict r.Valid (TimeRange.parse r.start r.stop = .error ·) (x.readRange r) := by
  unfold readRange RangeText.Valid
  cases TimeRange.parse r.start r.stop with
  | error e => exact .refuse (by simp) rfl
  | ok range => exact .accept ⟨range, rfl⟩

/-- A node without a range has nothing to refuse; with one, the errors are those of its bounds. -/
theorem verdict_rangePart {predicate : TimeRange → Predicate} {r : Option RangeText} :
    Verdict (∀ t, r = some t → t.Valid)
      (fun e => ∃ t, r = some t ∧ TimeRange.parse t.start t.stop = .error e)
      (x.rangePart predicate r) := by
  cases r with
  | none => exact .accept (by simp)
  | some r => exact verdict_readRange.bind_pure.imp (by simp) fun e he => ⟨r, rfl, he⟩

theorem verdict_textTest {t : TextMatch} :
    Verdict t.Supported (fun e => ¬t.Supported ∧ e = .unsupportedCollation t.collation)
      (textTest t) := by
  unfold textTest TextMatch.caseless TextMatch.Supported
  split
  · rename_i hcasemap
    exact .accept (.inl hcasemap)
  · rename_i hcasemap
    split
    · rename_i hoctet
      exact .accept (.inr hoctet)
    · rename_i hoctet
      exact .refuse (by simp [hcasemap, hoctet]) ⟨by simp [hcasemap, hoctet], rfl⟩

theorem verdict_paramCondition {id : PropertyName} {f : ParamFilter} :
    Verdict (f.Valid x.index) (f.Fault x.index) (x.paramCondition id f) := by
  unfold paramCondition
  split
  · rename_i param hparam
    cases htext : f.textMatch with
    | none =>
      exact .accept {
        known := ⟨param, hparam⟩
        undefined := fun _ => htext
        text := by simp [htext] }
    | some text =>
      refine verdict_textTest.map.bind_pure.check.imp ⟨?_, ?_⟩ ?_
      · rintro ⟨hd, hs⟩
        exact {
          known := ⟨param, hparam⟩
          undefined := fun h => (hd h).elim
          text := by simp [htext, hs] }
      · intro hf
        exact ⟨fun hd => by simpa [htext] using hf.undefined hd, hf.text text htext⟩
      · rintro e (⟨hd, rfl⟩ | ⟨hs, rfl⟩)
        · exact .undefined hd htext
        · exact .text htext hs
  · rename_i hparam
    have hnone : x.index.param? f.name = none := Option.eq_none_iff_forall_ne_some.mpr hparam
    exact .refuse (fun hf => by simpa [hnone] using hf.known) (.unknown hnone)

/-- The value of a property is asked for by a range or by a text, never by both. -/
theorem verdict_valueCondition {id : PropertyName} {f : PropFilter}
    (hid : x.index.property? f.name = some id) :
    Verdict ((f.timeRange = none ∨ f.textMatch = none) ∧
        (∀ r, f.timeRange = some r →
          r.Valid ∧ ∀ id, x.index.property? f.name = some id → id.holdsTimes = true) ∧
        ∀ t, f.textMatch = some t → t.Supported)
      (f.Fault x.index) (x.valueCondition id f) := by
  unfold valueCondition
  split
  · rename_i range text hr ht
    exact .refuse (by simp [hr, ht]) (.double hr ht)
  · rename_i range hr ht
    split
    · rename_i htimes
      exact verdict_readRange.bind_pure.imp (by simp [hr, ht, hid, htimes]) fun e he => .range hr he
    · rename_i htimes
      exact .refuse (by simp [hr, hid, htimes]) (.untimed hr hid (by simpa using htimes))
  · rename_i text hr ht
    refine verdict_textTest.bind_pure.imp (by simp [hr, ht]) ?_
    rintro e ⟨hs, rfl⟩
    exact .text ht hs
  · rename_i hr ht
    exact .accept (by simp [hr, ht])

/-- A prop-filter is accepted exactly when it is valid, and each refusal names one of its faults. -/
theorem verdict_propCondition {f : PropFilter} :
    Verdict (f.Valid x.index) (f.Fault x.index) (x.propCondition f) := by
  unfold propCondition
  split
  · rename_i id hid
    have hparams : Verdict (∀ g ∈ f.paramFilters, g.Valid x.index)
        (fun e => ∃ g ∈ f.paramFilters, g.Fault x.index e)
        (f.paramFilters.mapM (x.paramCondition id)) :=
      .mapM fun _ _ => verdict_paramCondition
    refine ((verdict_valueCondition hid).bind fun _ => hparams.bind_pure).check.imp ⟨?_, ?_⟩ ?_
    · rintro ⟨hd, ⟨hsingle, hrange, htext⟩, hps⟩
      exact {
        known := ⟨id, hid⟩
        undefined := by simpa using hd
        single := hsingle
        range := hrange
        text := htext
        params := hps }
    · intro hf
      exact ⟨by simpa using hf.undefined, ⟨hf.single, hf.range, hf.text⟩, hf.params⟩
    · rintro e (⟨hd, rfl⟩ | he | ⟨g, hg, he⟩)
      · obtain ⟨hd, hc⟩ := Bool.and_eq_true_iff.mp hd
        exact .undefined hd hc
      · exact he
      · exact .param hg he
  · rename_i hid
    have hnone : x.index.property? f.name = none := Option.eq_none_iff_forall_ne_some.mpr hid
    exact .refuse (fun hf => by simpa [hnone] using hf.known) (.unknown hnone)

theorem verdict_propConditions {kind : ComponentKind} {test : Junction} {fs : List PropFilter} :
    Verdict (∀ f ∈ fs, f.Valid x.index) (fun e => ∃ f ∈ fs, f.Fault x.index e)
      (x.propConditions kind test fs) := by
  unfold propConditions
  exact (Verdict.mapM fun f _ => verdict_propCondition.bind_pure).bind_pure

/-- The range and the prop-filters of a node are read first, whatever is read after them. -/
theorem verdict_conditions {f : CompFilter} {predicate : TimeRange → Predicate}
    {kind : ComponentKind} {α : Type} {valid : Prop} {fault : FilterError → Prop}
    {k : List Relaxation → Relaxation × List Deferral → Except FilterError α}
    (hk : ∀ range props, Verdict valid fault (k range props)) :
    Verdict (f.ValidConditions x.index ∧ valid) (fun e => f.ConditionFault x.index e ∨ fault e)
      (x.rangePart predicate f.timeRange >>= fun range =>
        x.propConditions kind f.test f.propFilters >>= fun props => k range props) := by
  refine (verdict_rangePart.bind fun range => verdict_propConditions.bind (hk range)).imp
    ⟨?_, ?_⟩ ?_
  · rintro ⟨hrange, hprops, hv⟩
    exact ⟨⟨hrange, hprops⟩, hv⟩
  · rintro ⟨⟨hrange, hprops⟩, hv⟩
    exact ⟨hrange, hprops, hv⟩
  · rintro e (⟨r, hr, he⟩ | ⟨g, hg, he⟩ | he)
    · exact .inl (.range hr he)
    · exact .inl (.prop hg he)
    · exact .inr he

theorem validConditions_of_isUnconditional {f : CompFilter} (h : f.isUnconditional = true) :
    f.ValidConditions x.index := by
  obtain ⟨hr, -, hp⟩ := isUnconditional_iff.mp h
  exact ⟨by simp [hr], by simp [hp]⟩

/-- The checks of an alarm node run in order: its name, its range, its prop-filters, the nodes
below. -/
theorem verdict_alarmNode {f : CompFilter} :
    Verdict (f.ValidAlarm x.index) (f.AlarmFault x.index) (x.alarmNode f) := by
  unfold alarmNode
  -- once the name is right, the shortcut and the full reading give the same verdict on the rest
  refine Verdict.imp (Verdict.check (?_ : Verdict (f.ValidConditions x.index ∧ f.compFilters = [])
    (fun e => f.ConditionFault x.index e ∨ f.compFilters ≠ [] ∧ e = .tooDeep 3) _)) ⟨?_, ?_⟩ ?_
  · split
    · rename_i hu
      exact .accept ⟨validConditions_of_isUnconditional hu, (isUnconditional_iff.mp hu).2.1⟩
    · refine verdict_conditions fun range props => ?_
      cases hc : f.compFilters with
      | nil => exact .accept rfl
      | cons g gs => exact .refuse (by simp) ⟨by simp, rfl⟩
  · rintro ⟨hname, hconditions, hleaf⟩
    exact ⟨not_not.mp hname, hconditions, hleaf⟩
  · intro hf
    exact ⟨not_not.mpr hf.name, hf.conditions, hf.leaf⟩
  · rintro e (⟨hname, rfl⟩ | he | ⟨hc, rfl⟩)
    · exact .name hname
    · exact .conditions he
    · exact .deep hc

/-- A component node also answers for the alarm nodes below it. -/
theorem verdict_componentNode {f : CompFilter} :
    Verdict (f.ValidComponent x.index) (f.ComponentFault x.index) (x.componentNode f) := by
  unfold componentNode
  split
  · rename_i kind hkind
    obtain ⟨hk, hin⟩ := Option.filter_eq_some_iff.mp hkind
    have hname : ∃ kind, ComponentKind.ofComponent? f.name = some kind ∧ kind ≠ .alarm :=
      ⟨kind, hk, ComponentKind.inCalendar_iff.mp hin⟩
    split
    · rename_i hu
      refine .accept ⟨hname, validConditions_of_isUnconditional hu, ?_⟩
      simp [(isUnconditional_iff.mp hu).2.1]
    · have halarms : Verdict (∀ g ∈ f.compFilters, g.ValidAlarm x.index)
          (fun e => ∃ g ∈ f.compFilters, g.AlarmFault x.index e) (f.compFilters.mapM x.alarmNode) :=
        .mapM fun _ _ => verdict_alarmNode
      refine (verdict_conditions fun range props => halarms.bind_pure).imp ⟨?_, ?_⟩ ?_
      · rintro ⟨hconditions, halarms⟩
        exact ⟨hname, hconditions, halarms⟩
      · intro hf
        exact ⟨hf.conditions, hf.alarms⟩
      · rintro e (he | ⟨g, hg, he⟩)
        · exact .conditions he
        · exact .alarm hg he
  · rename_i hkind
    have hname : ∀ kind, ComponentKind.ofComponent? f.name = some kind → kind = .alarm := by
      intro kind hk
      by_contra hin
      exact hkind kind (Option.filter_eq_some_iff.mpr ⟨hk, ComponentKind.inCalendar_iff.mpr hin⟩)
    refine .refuse (fun hf => ?_) (.name hname)
    obtain ⟨kind, hk, hin⟩ := hf.name
    exact hin (hname kind hk)

theorem verdict_calendarNode {f : CompFilter} :
    Verdict (f.Valid x.index) (f.Fault x.index) (x.calendarNode f) := by
  unfold calendarNode
  have hcomponents : Verdict (∀ g ∈ f.compFilters, g.ValidComponent x.index)
      (fun e => ∃ g ∈ f.compFilters, g.ComponentFault x.index e)
      (f.compFilters.mapM x.componentNode) :=
    .mapM fun _ _ => verdict_componentNode
  refine Verdict.imp (Verdict.check (Verdict.check (?_ : Verdict
    ((∀ r, f.timeRange = some r → r.Valid) ∧ ∀ g ∈ f.compFilters, g.ValidComponent x.index)
    (fun e => (∃ r, f.timeRange = some r ∧ TimeRange.parse r.start r.stop = .error e) ∨
      ∃ g ∈ f.compFilters, g.ComponentFault x.index e) _))) ⟨?_, ?_⟩ ?_
  · split
    · rename_i hu
      obtain ⟨hr, hc, -⟩ := isUnconditional_iff.mp hu
      exact .accept (by simp [hr, hc])
    · exact verdict_rangePart.bind fun range => hcomponents.bind_pure
  · rintro ⟨hname, hdefined, hrange, hcomponents⟩
    exact ⟨by simpa using hname, by simpa using hdefined, hrange, hcomponents⟩
  · intro hf
    exact ⟨by simp [hf.name], by simp [hf.defined], hf.range, hf.components⟩
  · rintro e (⟨hname, rfl⟩ | ⟨hundefined, rfl⟩ | ⟨r, hr, he⟩ | ⟨g, hg, he⟩)
    · exact .name (by simpa using hname)
    · exact .undefined hundefined
    · exact .range hr he
    · exact .component hg he

/-- The planner accepts exactly the valid filters, and refuses the others with one of their
faults. -/
theorem verdict_plan {f : CompFilter} :
    Verdict (f.Valid x.index) (f.Fault x.index) (x.plan f) := by
  unfold plan
  exact verdict_calendarNode.bind_pure

end Planner

end CalendarSearch
