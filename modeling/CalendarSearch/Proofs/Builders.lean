import CalendarSearch.Proofs.Evaluation

/-! # What the builders keep

A builder that joins two predicates takes over the parts of an operand that the same test joins
already, and the opposite of a negation is what was negated. So a predicate comes out in another
shape than it was asked for, but it says what was asked. The shape is flat: below a conjunction that
a builder makes there is none that it could have taken apart. What stands below an operand's own
conjunctions is not looked at, so flat operands are needed, and they suffice. -/

namespace CalendarSearch.Predicate

/-! ### Flat predicates -/

/-- The conjunction or the disjunction of several predicates. -/
def joined : Junction → List Predicate → Predicate
  | .all => and
  | .any => or

/-- What the builder for a test takes over of an operand. -/
def operands : Junction → Predicate → List Predicate
  | .all => conjuncts
  | .any => disjuncts

/-- The predicate is a conjunction, or for the other test a disjunction. -/
def IsJoined (test : Junction) (p : Predicate) : Prop := ∃ ps, p = joined test ps

/-- If the predicate is a conjunction, no conjunction stands directly under it; so with disjunctions
for the other test. -/
def Flat (test : Junction) (p : Predicate) : Prop :=
  ∀ ps, p = joined test ps → ∀ q ∈ ps, ¬q.IsJoined test

variable {test : Junction} {p q : Predicate}

theorem operands_joined (test : Junction) (ps : List Predicate) :
    (joined test ps).operands test = ps := by
  cases test <;> rfl

theorem operands_of_not_isJoined (h : ¬p.IsJoined test) : p.operands test = [p] := by
  cases test with
  | all =>
    cases p with
    | and ps => exact absurd ⟨ps, rfl⟩ h
    | _ => rfl
  | any =>
    cases p with
    | or ps => exact absurd ⟨ps, rfl⟩ h
    | _ => rfl

theorem flat_joined {ps : List Predicate} :
    (joined test ps).Flat test ↔ ∀ q ∈ ps, ¬q.IsJoined test := by
  constructor
  · intro h
    exact h ps rfl
  · intro h qs hqs
    have hsame : ps = qs := by rw [← operands_joined test ps, hqs, operands_joined]
    rw [← hsame]
    exact h

/-- A predicate that is not joined by the test is its own only operand, and flat. -/
theorem flat_iff_operands : p.Flat test ↔ ∀ q ∈ p.operands test, ¬q.IsJoined test := by
  by_cases hp : p.IsJoined test
  · obtain ⟨ps, rfl⟩ := hp
    rw [flat_joined, operands_joined]
  · rw [operands_of_not_isJoined hp, List.forall_mem_singleton]
    exact ⟨fun _ => hp, fun _ ps hps => absurd ⟨ps, hps⟩ hp⟩

theorem flat_joined_operands :
    (joined test (p.operands test ++ q.operands test)).Flat test ↔ p.Flat test ∧ q.Flat test := by
  rw [flat_joined, List.forall_mem_append, ← flat_iff_operands, ← flat_iff_operands]

/-! ### The builders -/

/-- Every builder says of every component what the connective says that it stands for. Of several
parts there is all or any of them, unless there are none, and a predicate that is missing is true of
everything. What `both` builds is a conjunction, and flat exactly if both operands are, and so is
the disjunction that `either` builds. -/
theorem builders_homomorphism (owner : Option Component) (c : Component) :
    (∀ p q : Predicate, (p.both q).eval owner c = (p.eval owner c && q.eval owner c)) ∧
    (∀ p q : Predicate, (p.either q).eval owner c = (p.eval owner c || q.eval owner c)) ∧
    (∀ p : Predicate, p.opposite.eval owner c = !p.eval owner c ∧
      p.opposite.opposite.eval owner c = p.eval owner c) ∧
    (∀ all ps, (ofParts all ps).map (eval owner c) =
      if ps.isEmpty then none
      else some (if all then ps.all (eval owner c) else ps.any (eval owner c))) ∧
    (∀ p q, evalOptional owner c (bothOptional p q) =
      (evalOptional owner c p && evalOptional owner c q)) ∧
    ∀ p q : Predicate,
      ((p.both q).IsJoined .all ∧ ((p.both q).Flat .all ↔ p.Flat .all ∧ q.Flat .all)) ∧
      ((p.either q).IsJoined .any ∧ ((p.either q).Flat .any ↔ p.Flat .any ∧ q.Flat .any)) := by
  refine ⟨eval_both owner c, eval_either owner c, fun p => ⟨eval_opposite owner c p, ?_⟩,
    map_eval_ofParts owner c, evalOptional_bothOptional owner c, fun p q => ⟨⟨?_, ?_⟩, ⟨?_, ?_⟩⟩⟩
  · rw [eval_opposite, eval_opposite, Bool.not_not]
  · exact ⟨p.conjuncts ++ q.conjuncts, rfl⟩
  · exact flat_joined_operands
  · exact ⟨p.disjuncts ++ q.disjuncts, rfl⟩
  · exact flat_joined_operands

/-- An operand that is not flat keeps the conjunction that stands in it. -/
example : (and [and [], kind .event]).both (kind .todo) = and [and [], kind .event, kind .todo] :=
  rfl

end CalendarSearch.Predicate
