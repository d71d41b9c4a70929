import CalendarSearch.Plan.Relaxation
import CalendarSearch.Proofs.Meaning

/-! # What the builders of predicates say

The builders keep conjunctions and disjunctions flat, cancel negations and leave out what says
nothing. None of this shows in an evaluation: each builder says of every component what the plain
connective would. -/

namespace CalendarSearch.Predicate

variable (owner : Option Component) (c : Component)

/-! ### The connectives -/

@[simp] theorem eval_and (ps : List Predicate) :
    (and ps).eval owner c = ps.all (eval owner c) := by
  rw [eval, evalAll_eq_all]

@[simp] theorem eval_or (ps : List Predicate) :
    (or ps).eval owner c = ps.any (eval owner c) := by
  rw [eval, evalAny_eq_any]

@[simp] theorem eval_not (p : Predicate) : (not p).eval owner c = !p.eval owner c := by
  rw [eval]

@[simp] theorem eval_someAlarm (p : Predicate) :
    (someAlarm p).eval owner c = c.alarms.any fun alarm => p.eval (some c) alarm := by
  rw [eval]

@[simp] theorem evalOptional_none : evalOptional owner c none = true := rfl

@[simp] theorem evalOptional_some (p : Predicate) :
    evalOptional owner c (some p) = p.eval owner c := rfl

/-! ### The builders -/

/-- A predicate holds when all its conjuncts do, whether or not it is a conjunction. -/
theorem all_conjuncts (p : Predicate) :
    p.conjuncts.all (eval owner c) = p.eval owner c := by
  cases p <;> simp [conjuncts]

/-- Joining two predicates splices their conjuncts into one list; what holds is still both. -/
theorem eval_both (p q : Predicate) :
    (p.both q).eval owner c = (p.eval owner c && q.eval owner c) := by
  simp [both, List.all_append, all_conjuncts]

theorem any_disjuncts (p : Predicate) :
    p.disjuncts.any (eval owner c) = p.eval owner c := by
  cases p <;> simp [disjuncts]

theorem eval_either (p q : Predicate) :
    (p.either q).eval owner c = (p.eval owner c || q.eval owner c) := by
  simp [either, List.any_append, any_disjuncts]

/-- The opposite drops a negation where there is one, and holds exactly where the predicate
fails. -/
theorem eval_opposite (p : Predicate) : p.opposite.eval owner c = !p.eval owner c := by
  cases p <;> simp [opposite]

/-- A missing predicate asks nothing, so it is the unit of the conjunction. -/
theorem evalOptional_bothOptional (p q : Option Predicate) :
    evalOptional owner c (bothOptional p q) =
      (evalOptional owner c p && evalOptional owner c q) := by
  cases p <;> cases q <;> simp [bothOptional, eval_both]

/-- The default counts only where no predicate is given. -/
theorem eval_getD (p : Option Predicate) (q : Predicate) :
    (p.getD q).eval owner c = (evalOptional owner c p && (p.isSome || q.eval owner c)) := by
  cases p <;> simp

theorem evalOptional_conjoin (ps : List (Option Predicate)) :
    evalOptional owner c (conjoin ps) = ps.all (evalOptional owner c) := by
  -- the conjunction grows from the left, so the statement is about any predicate to begin with
  have grown (p : Option Predicate) : evalOptional owner c (ps.foldl bothOptional p) =
      (evalOptional owner c p && ps.all (evalOptional owner c)) := by
    induction ps generalizing p with
    | nil => simp
    | cons q ps ih => simp [ih, evalOptional_bothOptional, Bool.and_assoc]
  rw [conjoin, grown, evalOptional_none, Bool.true_and]

/-- What a node's parts come to is what its test says of them; the test of an empty list holds. -/
theorem evalOptional_ofParts (test : Junction) (ps : List Predicate) :
    evalOptional owner c (ofParts (test = .all) ps) = test.joins (ps.map (eval owner c)) := by
  match ps with
  | [] => cases test <;> rfl
  | [p] => cases test <;> simp [ofParts, Junction.joins]
  | p :: q :: ps => cases test <;> simp [ofParts, Junction.joins, List.all_map, List.any_map]

theorem map_eval_ofParts (all : Bool) (ps : List Predicate) :
    (ofParts all ps).map (eval owner c) =
      if ps.isEmpty then none
      else some (if all then ps.all (eval owner c) else ps.any (eval owner c)) := by
  match ps with
  | [] => rfl
  | [p] => cases all <;> simp [ofParts]
  | p :: q :: ps => cases all <;> simp [ofParts]

theorem disjoin_map_some (ps : List Predicate) :
    Relaxation.disjoin (ps.map some) = ofParts false ps := by
  have hps : (ps.map some).mapM id = some ps := by
    induction ps with
    | nil => rfl
    | cons p ps ih => simp [ih]
  rw [Relaxation.disjoin, hps, Option.bind_some]

/-- One alternative that asks nothing makes the whole disjunction ask nothing. -/
theorem disjoin_of_none_mem {ps : List (Option Predicate)} (h : none ∈ ps) :
    Relaxation.disjoin ps = none := by
  have hps : ps.mapM id = none := by
    induction ps with
    | nil => simp at h
    | cons p ps ih =>
      cases p with
      | none => rfl
      | some p => simp [ih (by simpa using h)]
  rw [Relaxation.disjoin, hps, Option.bind_none]

theorem exists_map_some {ps : List (Option Predicate)} (h : none ∉ ps) :
    ∃ qs : List Predicate, ps = qs.map some := by
  induction ps with
  | nil => exact ⟨[], rfl⟩
  | cons p ps ih =>
    obtain ⟨qs, rfl⟩ := ih fun hm => h (List.mem_cons_of_mem p hm)
    cases p with
    | none => simp at h
    | some p => exact ⟨p :: qs, rfl⟩

/-- A part that is true of everything makes the disjunction true of everything. -/
theorem evalOptional_disjoin (ps : List (Option Predicate)) :
    evalOptional owner c (Relaxation.disjoin ps) =
      Junction.any.joins (ps.map (evalOptional owner c)) := by
  by_cases h : none ∈ ps
  · have hmem : true ∈ ps.map (evalOptional owner c) := List.mem_map.mpr ⟨none, h, rfl⟩
    have hany : (ps.map (evalOptional owner c)).any id = true :=
      List.any_eq_true.mpr ⟨true, hmem, rfl⟩
    rw [disjoin_of_none_mem h, Junction.joins, hany, Bool.or_true, evalOptional_none]
  · obtain ⟨qs, rfl⟩ := exists_map_some h
    rw [disjoin_map_some, List.map_map]
    exact evalOptional_ofParts owner c .any qs

/-! ### What is there -/

theorem isSome_ofParts (all : Bool) (ps : List Predicate) :
    (ofParts all ps).isSome = !ps.isEmpty := by
  match ps with
  | [] => rfl
  | [p] => rfl
  | p :: q :: ps => rfl

theorem isSome_bothOptional (p q : Option Predicate) :
    (bothOptional p q).isSome = (p.isSome || q.isSome) := by
  cases p <;> cases q <;> rfl

theorem isSome_conjoin (ps : List (Option Predicate)) :
    (conjoin ps).isSome = ps.any Option.isSome := by
  have grown (p : Option Predicate) :
      (ps.foldl bothOptional p).isSome = (p.isSome || ps.any Option.isSome) := by
    induction ps generalizing p with
    | nil => simp
    | cons q ps ih => simp [ih, isSome_bothOptional, Bool.or_assoc]
  rw [conjoin, grown, Option.isSome_none, Bool.false_or]

theorem isSome_disjoin {ps : List (Option Predicate)} (h : none ∉ ps) :
    (Relaxation.disjoin ps).isSome = !ps.isEmpty := by
  obtain ⟨qs, rfl⟩ := exists_map_some h
  rw [disjoin_map_some, isSome_ofParts, List.isEmpty_map]

end CalendarSearch.Predicate
