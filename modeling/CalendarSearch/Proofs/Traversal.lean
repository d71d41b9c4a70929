import Mathlib.Data.List.Forall2

/-! # Traversals that may fail

A traversal of a list into `Except` gives an answer exactly when every step does, and the answer is
then made of the steps' answers. Reading a filter is such a traversal at each of its levels. Two
readings can be compared step by step, and so can a reading with what is valid. -/

namespace CalendarSearch.Traversal

variable {ε α β γ : Type}

theorem bind_eq_ok {x : Except ε α} {f : α → Except ε β} {b : β} :
    (x >>= f) = .ok b ↔ ∃ a, x = .ok a ∧ f a = .ok b := by
  cases x with
  | error e => simp [bind, Except.bind]
  | ok a => simp [bind, Except.bind]

theorem bind_eq_error {x : Except ε α} {f : α → Except ε β} {e : ε} :
    (x >>= f) = .error e ↔ x = .error e ∨ ∃ a, x = .ok a ∧ f a = .error e := by
  cases x with
  | error e' => simp [bind, Except.bind]
  | ok a => simp [bind, Except.bind]

theorem pure_eq_ok {a b : α} : (pure a : Except ε α) = .ok b ↔ a = b := by
  simp [pure, Except.pure]

theorem map_eq_ok {x : Except ε α} {f : α → β} {b : β} :
    f <$> x = .ok b ↔ ∃ a, x = .ok a ∧ f a = b := by
  cases x with
  | error e => simp [Functor.map, Except.map]
  | ok a => simp [Functor.map, Except.map]

theorem mapError_eq_ok {δ : Type} {x : Except ε α} {f : ε → δ} {a : α} :
    x.mapError f = .ok a ↔ x = .ok a := by
  cases x with
  | error e => simp [Except.mapError]
  | ok a' => simp [Except.mapError]

theorem mapError_eq_error {δ : Type} {x : Except ε α} {f : ε → δ} {d : δ} :
    x.mapError f = .error d ↔ ∃ e, x = .error e ∧ f e = d := by
  cases x with
  | error e => simp [Except.mapError]
  | ok a => simp [Except.mapError]

/-- What comes after a check is reached only if the check raises nothing. -/
theorem check_eq_ok {p : Prop} [Decidable p] {e : ε} {k : γ → Except ε β} {y : Except ε β} {b : β} :
    (if p then Except.error e >>= k else y) = .ok b ↔ ¬p ∧ y = .ok b := by
  split
  · rename_i hp
    simp [bind, Except.bind, hp]
  · rename_i hp
    simp [hp]

theorem mapM_eq_ok {f : α → Except ε β} {xs : List α} {ys : List β} :
    xs.mapM f = .ok ys ↔ List.Forall₂ (fun a b => f a = .ok b) xs ys := by
  induction xs generalizing ys with
  | nil => rw [List.mapM_nil, pure_eq_ok, List.forall₂_nil_left_iff, eq_comm]
  | cons a xs ih =>
    simp only [List.mapM_cons, bind_eq_ok, pure_eq_ok, List.forall₂_cons_left_iff, ih]
    constructor
    · rintro ⟨b, hb, bs, hbs, rfl⟩
      exact ⟨b, bs, hb, hbs, rfl⟩
    · rintro ⟨b, bs, hb, hbs, rfl⟩
      exact ⟨b, hb, bs, hbs, rfl⟩

/-- A traversal that keeps each element beside its answer. -/
theorem mapM_pair_eq_ok {f : α → Except ε β} {xs : List α} {ys : List (α × β)} :
    (xs.mapM fun a => return (a, ← f a)) = .ok ys ↔
      ys.map Prod.fst = xs ∧ ∀ y ∈ ys, f y.1 = .ok y.2 := by
  have step (a : α) (y : α × β) :
      (do return (a, ← f a) : Except ε (α × β)) = .ok y ↔ y.1 = a ∧ f y.1 = .ok y.2 := by
    simp only [bind_eq_ok, pure_eq_ok]
    constructor
    · rintro ⟨b, hb, rfl⟩
      exact ⟨rfl, hb⟩
    · rintro ⟨rfl, hb⟩
      exact ⟨y.2, hb, rfl⟩
  simp only [mapM_eq_ok, step]
  induction ys generalizing xs with
  | nil => simp [eq_comm]
  | cons y ys ih =>
    simp only [List.forall₂_cons_right_iff, ih, List.map_cons, List.forall_mem_cons]
    constructor
    · rintro ⟨a, as, ⟨rfl, hy⟩, ⟨rfl, hys⟩, rfl⟩
      exact ⟨rfl, hy, hys⟩
    · rintro ⟨rfl, hy, hys⟩
      exact ⟨_, _, ⟨rfl, hy⟩, ⟨rfl, hys⟩, rfl⟩

/-- What two related lists agree on, element by element, they agree on as lists. -/
theorem map_eq_map {R : α → β → Prop} {f : α → γ} {g : β → γ} {xs : List α} {ys : List β}
    (h : List.Forall₂ R xs ys) (hfg : ∀ a ∈ xs, ∀ b, R a b → g b = f a) :
    ys.map g = xs.map f := by
  induction h with
  | nil => rfl
  | cons hab _ ih =>
    simp only [List.forall_mem_cons] at hfg
    rw [List.map_cons, List.map_cons, hfg.1 _ hab, ih hfg.2]

theorem all_eq_all {R : α → β → Prop} {p : α → Bool} {q : β → Bool} {xs : List α} {ys : List β}
    (h : List.Forall₂ R xs ys) (hpq : ∀ a ∈ xs, ∀ b, R a b → q b = p a) :
    ys.all q = xs.all p := by
  have hall : (ys.map q).all id = (xs.map p).all id := by rw [map_eq_map h hpq]
  simpa only [List.all_map, Function.id_comp] using hall

theorem isEmpty_eq_isEmpty {R : α → β → Prop} {xs : List α} {ys : List β}
    (h : List.Forall₂ R xs ys) : ys.isEmpty = xs.isEmpty := by
  cases h <;> rfl

/-- What every answer has, the list of the answers has of all its elements. -/
theorem forall_mem_right {R : α → β → Prop} {P : β → Prop} {xs : List α} {ys : List β}
    (h : List.Forall₂ R xs ys) (hP : ∀ a ∈ xs, ∀ b, R a b → P b) : ∀ b ∈ ys, P b := by
  induction h with
  | nil => simp
  | cons hab _ ih =>
    simp only [List.forall_mem_cons] at hP ⊢
    exact ⟨hP.1 _ hab, ih hP.2⟩

theorem forall₂_trans {R : α → β → Prop} {S : β → γ → Prop} {T : α → γ → Prop} {xs : List α}
    {ys : List β} {zs : List γ} (h : List.Forall₂ R xs ys) (h' : List.Forall₂ S ys zs)
    (hT : ∀ a ∈ xs, ∀ b c, R a b → S b c → T a c) : List.Forall₂ T xs zs := by
  induction h generalizing zs with
  | nil =>
    cases h'
    exact .nil
  | cons hab _ ih =>
    obtain ⟨c, cs, hbc, hcs, rfl⟩ := List.forall₂_cons_left_iff.mp h'
    simp only [List.forall_mem_cons] at hT
    exact .cons (hT.1 _ _ hab hbc) (ih hcs hT.2)

theorem exists_forall₂_of_forall_mem {R : α → β → Prop} {xs : List α}
    (h : ∀ a ∈ xs, ∃ b, R a b) : ∃ ys, List.Forall₂ R xs ys := by
  induction xs with
  | nil => exact ⟨[], .nil⟩
  | cons a xs ih =>
    obtain ⟨⟨b, hb⟩, hxs⟩ := List.forall_mem_cons.mp h
    obtain ⟨ys, hys⟩ := ih hxs
    exact ⟨b :: ys, .cons hb hys⟩

/-- A traversal gives an answer exactly when every step does. -/
theorem exists_mapM_eq_ok {f : α → Except ε β} {xs : List α} :
    (∃ ys, xs.mapM f = .ok ys) ↔ ∀ a ∈ xs, ∃ b, f a = .ok b := by
  simp only [mapM_eq_ok]
  constructor
  · rintro ⟨ys, hys⟩
    induction hys with
    | nil => simp
    | cons hb _ ih => exact List.forall_mem_cons.mpr ⟨⟨_, hb⟩, ih⟩
  · exact exists_forall₂_of_forall_mem

/-- The same for a traversal that may give one answer at most. -/
theorem exists_mapM_eq_ok_toList {f : α → Except ε β} {xs : List α} :
    (∃ o : Option β, xs.mapM f = .ok o.toList) ↔ xs.length ≤ 1 ∧ ∀ a ∈ xs, ∃ b, f a = .ok b := by
  rw [← exists_mapM_eq_ok]
  constructor
  · rintro ⟨o, ho⟩
    have hlength := (mapM_eq_ok.mp ho).length_eq
    exact ⟨hlength ▸ Option.length_toList_le, _, ho⟩
  · rintro ⟨hone, ys, hys⟩
    have hlength := (mapM_eq_ok.mp hys).length_eq
    match ys, hys with
    | [], hys => exact ⟨none, hys⟩
    | [b], hys => exact ⟨some b, hys⟩
    | _ :: _ :: _, _ => simp at hlength; omega

/-- Where every answer can be replaced by two related ones, so can the list of the answers. -/
theorem exists_forall₂ {δ ζ : Type} {R : α → β → Prop} {S : α → δ → Prop} {T : α → ζ → Prop}
    {U : δ → ζ → Prop} {xs : List α} {ys : List β} (h : List.Forall₂ R xs ys)
    (hR : ∀ a b, R a b → ∃ d z, S a d ∧ T a z ∧ U d z) :
    ∃ ds zs, List.Forall₂ S xs ds ∧ List.Forall₂ T xs zs ∧ List.Forall₂ U ds zs := by
  induction h with
  | nil => exact ⟨[], [], .nil, .nil, .nil⟩
  | cons hab _ ih =>
    obtain ⟨d, z, hd, hz, hdz⟩ := hR _ _ hab
    obtain ⟨ds, zs, hds, hzs, hdzs⟩ := ih
    exact ⟨d :: ds, z :: zs, .cons hd hds, .cons hz hzs, .cons hdz hdzs⟩

/-! ### Answers that are mapped -/

/-- A computation on mapped answers that gives mapped answers. -/
theorem bind_mapped {δ : Type} {x : Except ε α} {φ : α → β} {ψ : γ → δ} {f : α → Except ε γ}
    {g : β → Except ε δ} (h : ∀ a, g (φ a) = ψ <$> f a) : φ <$> x >>= g = ψ <$> (x >>= f) := by
  cases x with
  | error e => rfl
  | ok a => exact h a

/-- The same check before both. -/
theorem check_mapped {δ : Type} {p : Prop} [Decidable p] {e : ε} {φ : α → β} {k : γ → Except ε α}
    {k' : δ → Except ε β} {x : Except ε α} {y : Except ε β} (h : y = φ <$> x) :
    (if p then Except.error e >>= k' else y) = φ <$> (if p then Except.error e >>= k else x) := by
  split
  · rfl
  · exact h

theorem mapM_mapped {f : α → Except ε β} {g : α → Except ε γ} {φ : β → γ} {xs : List α}
    (h : ∀ a ∈ xs, g a = φ <$> f a) : xs.mapM g = List.map φ <$> xs.mapM f := by
  induction xs with
  | nil => rfl
  | cons a xs ih =>
    obtain ⟨ha, hxs⟩ := List.forall_mem_cons.mp h
    rw [List.mapM_cons, List.mapM_cons, ha]
    refine bind_mapped fun b => ?_
    rw [ih hxs]
    exact bind_mapped fun bs => rfl

/-! ### Two computations side by side -/

/-- Both computations fail, with the same error, or both give answers, and these are related. -/
inductive Together (R : α → β → Prop) : Except ε α → Except ε β → Prop
  | error (e : ε) : Together R (.error e) (.error e)
  | ok {a : α} {b : β} : R a b → Together R (.ok a) (.ok b)

namespace Together

variable {δ ζ : Type} {R : α → β → Prop} {S : δ → ζ → Prop} {x : Except ε α} {y : Except ε β}

theorem refl (x : Except ε α) : Together Eq x x := by
  cases x with
  | error e => exact .error e
  | ok a => exact .ok rfl

/-- Answers that are mapped to the same. -/
theorem of_map_eq {φ : α → γ} {ψ : β → γ} (h : φ <$> x = ψ <$> y) :
    Together (fun a b => φ a = ψ b) x y := by
  cases x with
  | error e =>
    cases y with
    | error e' =>
      cases h
      exact .error e
    | ok b => cases h
  | ok a =>
    cases y with
    | error e' => cases h
    | ok b => exact .ok (Except.ok.inj h)

theorem bind {f : α → Except ε δ} {g : β → Except ε ζ} (h : Together R x y)
    (hfg : ∀ a b, R a b → Together S (f a) (g b)) : Together S (x >>= f) (y >>= g) := by
  cases h with
  | error e => exact .error e
  | ok hab => exact hfg _ _ hab

/-- The same check before both. -/
theorem check {p : Prop} [Decidable p] {e : ε} {k : γ → Except ε α} {k' : γ → Except ε β}
    (h : Together R x y) :
    Together R (if p then Except.error e >>= k else x)
      (if p then Except.error e >>= k' else y) := by
  split
  · exact .error e
  · exact h

/-- Two lists whose elements are read side by side. -/
theorem mapM_forall₂ {f : α → Except ε δ} {g : β → Except ε ζ} {xs : List α} {ys : List β}
    (h : List.Forall₂ (fun a b => Together S (f a) (g b)) xs ys) :
    Together (List.Forall₂ S) (xs.mapM f) (ys.mapM g) := by
  induction h with
  | nil => exact .ok .nil
  | cons hab _ ih =>
    rw [List.mapM_cons, List.mapM_cons]
    exact hab.bind fun d z hdz => ih.bind fun ds zs hdzs => .ok (.cons hdz hdzs)

theorem mapM {f : α → Except ε δ} {g : α → Except ε ζ} {xs : List α}
    (hfg : ∀ a ∈ xs, Together S (f a) (g a)) :
    Together (List.Forall₂ S) (xs.mapM f) (xs.mapM g) :=
  mapM_forall₂ (List.forall₂_same.mpr hfg)

/-- The answers are not compared any more. -/
theorem erase (h : Together R x y) : Together (fun _ _ => True) x y := by
  cases h with
  | error e => exact .error e
  | ok _ => exact .ok trivial

theorem error_iff (h : Together R x y) (e : ε) : x = .error e ↔ y = .error e := by
  cases h with
  | error e' => simp
  | ok hab => simp

theorem exists_ok_iff (h : Together R x y) : (∃ a, x = .ok a) ↔ ∃ b, y = .ok b := by
  cases h with
  | error e => simp
  | ok hab => simp

end Together

/-! ### Readings that say what is wrong -/

/-- A reading that gives an answer if what it reads is valid, and else an error that tells a
fault. -/
inductive Verdict (valid : Prop) (fault : ε → Prop) : Except ε α → Prop
  | accept {a : α} : valid → Verdict valid fault (.ok a)
  | refuse {e : ε} : ¬valid → fault e → Verdict valid fault (.error e)

namespace Verdict

variable {valid valid' p : Prop} {fault fault' : ε → Prop} {x : Except ε α}

theorem exists_ok_iff (h : Verdict valid fault x) : (∃ a, x = .ok a) ↔ valid := by
  cases h with
  | accept hv => simp [hv]
  | refuse hv _ => simp [hv]

theorem fault_of_error {e : ε} (h : Verdict valid fault (.error e : Except ε α)) : fault e := by
  cases h with
  | refuse _ he => exact he

theorem imp (h : Verdict valid fault x) (hv : valid ↔ valid') (he : ∀ e, fault e → fault' e) :
    Verdict valid' fault' x := by
  cases h with
  | accept ha => exact .accept (hv.mp ha)
  | refuse ha hf => exact .refuse (fun hb => ha (hv.mpr hb)) (he _ hf)

theorem bind {f : α → Except ε β} (h : Verdict valid fault x)
    (hf : ∀ a, Verdict valid' fault' (f a)) :
    Verdict (valid ∧ valid') (fun e => fault e ∨ fault' e) (x >>= f) := by
  cases h with
  | accept ha => exact (hf _).imp (by simp [ha]) fun _ => .inr
  | refuse ha he => exact .refuse (fun hb => ha hb.1) (.inl he)

theorem map {f : α → β} (h : Verdict valid fault x) : Verdict valid fault (f <$> x) := by
  cases h with
  | accept ha => exact .accept ha
  | refuse ha he => exact .refuse ha he

theorem bind_pure {f : α → β} (h : Verdict valid fault x) :
    Verdict valid fault (x >>= fun a => pure (f a)) := by
  cases h with
  | accept ha => exact .accept ha
  | refuse ha he => exact .refuse ha he

theorem check [Decidable p] {e : ε} {k : γ → Except ε α} (h : Verdict valid fault x) :
    Verdict (¬p ∧ valid) (fun e' => p ∧ e' = e ∨ fault e')
      (if p then Except.error e >>= k else x) := by
  split
  · rename_i hp
    exact .refuse (fun hv => hv.1 hp) (.inl ⟨hp, rfl⟩)
  · rename_i hp
    exact h.imp (by simp [hp]) fun _ => .inr

theorem mapM {f : α → Except ε β} {xs : List α} {valid : α → Prop} {fault : α → ε → Prop}
    (h : ∀ a ∈ xs, Verdict (valid a) (fault a) (f a)) :
    Verdict (∀ a ∈ xs, valid a) (fun e => ∃ a ∈ xs, fault a e) (xs.mapM f) := by
  induction xs with
  | nil => exact .accept (by simp)
  | cons a xs ih =>
    obtain ⟨ha, hxs⟩ := List.forall_mem_cons.mp h
    rw [List.mapM_cons]
    refine (ha.bind fun b => (ih hxs).bind_pure).imp (by simp) fun e he => ?_
    obtain he | ⟨a', ha', he⟩ := he
    · exact ⟨a, List.mem_cons_self, he⟩
    · exact ⟨a', List.mem_cons_of_mem a ha', he⟩

end Verdict

end CalendarSearch.Traversal
