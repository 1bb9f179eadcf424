import Mathlib.Data.List.Forall2

/-!
# Results of steps that may fail

How a chain of steps comes to its result, what a step over a list makes of it, which failures a
chain can end in, when another chain has the same successes, and when two chains go the same way.
-/

namespace ODataEngine

section

variable {ε α β : Type}

/-- Two steps succeed when the first does and the second does with its result. -/
theorem bind_eq_ok_iff {x : Except ε α} {f : α → Except ε β} {b : β} :
    x >>= f = .ok b ↔ ∃ a, x = .ok a ∧ f a = .ok b := by
  cases x with
  | error e => simp [bind, Except.bind]
  | ok a => simp [bind, Except.bind]

/-- Two steps succeed when both do, where the first only checks. -/
theorem check_bind_eq_ok_iff {x : Except ε Unit} {f : Unit → Except ε β} {b : β} :
    x >>= f = .ok b ↔ x = .ok () ∧ f () = .ok b := by
  cases x with
  | error e => simp [bind, Except.bind]
  | ok u => simp [bind, Except.bind]

@[simp] theorem ok_bind (a : α) (f : α → Except ε β) : (Except.ok a : Except ε α) >>= f = f a := rfl

theorem eq_ok_of_toOption {x : Except ε α} {a : α} (h : x.toOption = some a) : x = .ok a := by
  cases x with
  | error e => cases h
  | ok b =>
    cases h
    rfl

/-- Steps that agree on the items of a list agree on the list. -/
theorem mapM_congr {m : Type → Type} [Monad m] [LawfulMonad m] {f g : α → m β} {items : List α}
    (h : ∀ a ∈ items, f a = g a) : items.mapM f = items.mapM g := by
  induction items with
  | nil => rfl
  | cons a rest ih =>
    rw [List.mapM_cons, List.mapM_cons, h a List.mem_cons_self,
      ih fun b hb => h b (List.mem_cons_of_mem a hb)]

/-- Where each item is related to something, a list is related to a list. -/
theorem exists_forall₂ {R : α → β → Prop} {items : List α} (h : ∀ a ∈ items, ∃ b, R a b) :
    ∃ bs, List.Forall₂ R items bs := by
  induction items with
  | nil => exact ⟨[], .nil⟩
  | cons a rest ih =>
    obtain ⟨b, hb⟩ := h a List.mem_cons_self
    obtain ⟨bs, hbs⟩ := ih fun a ha => h a (List.mem_cons_of_mem _ ha)
    exact ⟨b :: bs, .cons hb hbs⟩

/-- An item of a related list is related to an item of the other. -/
theorem exists_of_forall₂ {R : α → β → Prop} {items : List α} {results : List β}
    (h : List.Forall₂ R items results) {a : α} (ha : a ∈ items) : ∃ b ∈ results, R a b := by
  induction h with
  | nil => cases ha
  | cons hab _ ih =>
    rcases List.mem_cons.1 ha with rfl | ha
    · exact ⟨_, List.mem_cons_self, hab⟩
    · obtain ⟨b, hb, hR⟩ := ih ha
      exact ⟨b, List.mem_cons_of_mem _ hb, hR⟩

/-- The results of a step over a list stand in the order of the items. -/
theorem forall₂_of_mapM {f : α → Except ε β} {items : List α} {results : List β}
    (h : items.mapM f = .ok results) : List.Forall₂ (fun a b => f a = .ok b) items results := by
  induction items generalizing results with
  | nil =>
    cases h
    exact .nil
  | cons a rest ih =>
    rw [List.mapM_cons] at h
    obtain ⟨b, hb, h⟩ := bind_eq_ok_iff.1 h
    obtain ⟨bs, hbs, h⟩ := bind_eq_ok_iff.1 h
    cases h
    exact .cons hb (ih hbs)

/-- Every failure of the step has the property. -/
def FailsOnly (p : ε → Prop) (x : Except ε α) : Prop := ∀ e, x = .error e → p e

namespace FailsOnly

variable {p : ε → Prop}

theorem ok (a : α) : FailsOnly p (.ok a) := fun _ h => nomatch h

theorem error {e : ε} (h : p e) : FailsOnly p (.error e : Except ε α) := by
  intro e' he'
  cases he'
  exact h

theorem mono {p' : ε → Prop} {x : Except ε α} (h : FailsOnly p x) (hp : ∀ e, p e → p' e) :
    FailsOnly p' x := fun e he => hp e (h e he)

/-- Of two steps the second matters only after the first has succeeded. -/
theorem bind {x : Except ε α} {f : α → Except ε β} (hx : FailsOnly p x)
    (hf : ∀ a, x = .ok a → FailsOnly p (f a)) : FailsOnly p (x >>= f) := by
  cases x with
  | error e => exact error (hx e rfl)
  | ok a => exact hf a rfl

theorem mapM {f : α → Except ε β} {items : List α} (h : ∀ a ∈ items, FailsOnly p (f a)) :
    FailsOnly p (items.mapM f) := by
  induction items with
  | nil => exact ok []
  | cons a rest ih =>
    rw [List.mapM_cons]
    refine bind (h a List.mem_cons_self) fun b _ => ?_
    refine bind (ih fun a' ha' => h a' (List.mem_cons_of_mem a ha')) fun bs _ => ok (b :: bs)

end FailsOnly

/-! ## Steps that keep successes -/

/-- Wherever the first step succeeds the second does, with the same result. -/
def ExtendedBy (x y : Except ε α) : Prop := ∀ a, x = .ok a → y = .ok a

namespace ExtendedBy

theorem refl (x : Except ε α) : ExtendedBy x x := fun _ h => h

theorem error (e : ε) (y : Except ε α) : ExtendedBy (.error e) y := fun _ h => nomatch h

theorem bind {x y : Except ε α} {f g : α → Except ε β} (h : ExtendedBy x y)
    (hnext : ∀ a, ExtendedBy (f a) (g a)) : ExtendedBy (x >>= f) (y >>= g) := by
  intro b hb
  obtain ⟨a, ha, hb⟩ := bind_eq_ok_iff.1 hb
  exact bind_eq_ok_iff.2 ⟨a, h a ha, hnext a b hb⟩

theorem mapM {f g : α → Except ε β} (h : ∀ a, ExtendedBy (f a) (g a)) (items : List α) :
    ExtendedBy (items.mapM f) (items.mapM g) := by
  induction items with
  | nil => exact refl _
  | cons a rest ih =>
    rw [List.mapM_cons, List.mapM_cons]
    exact bind (h a) fun b => bind ih fun bs => refl _

end ExtendedBy

/-! ## Two runs of a step -/

/-- Both steps succeed with related results, or both fail with related failures. -/
inductive Paired (R : ε → ε → Prop) (S : α → β → Prop) : Except ε α → Except ε β → Prop where
  | ok {a : α} {b : β} (h : S a b) : Paired R S (.ok a) (.ok b)
  | error {e e' : ε} (h : R e e') : Paired R S (.error e) (.error e')

namespace Paired

variable {α' β' : Type} {R : ε → ε → Prop}

theorem refl [Std.Refl R] (x : Except ε α) : Paired R Eq x x := by
  cases x with
  | ok a => exact .ok rfl
  | error e => exact .error (Std.Refl.refl e)

theorem bind {S : α → α' → Prop} {T : β → β' → Prop} {x : Except ε α} {y : Except ε α'}
    {f : α → Except ε β} {g : α' → Except ε β'} (h : Paired R S x y)
    (hnext : ∀ a b, S a b → Paired R T (f a) (g b)) : Paired R T (x >>= f) (y >>= g) := by
  cases h with
  | ok hab => exact hnext _ _ hab
  | error he => exact .error he

theorem map {x y : Except ε α} (h : Paired R Eq x y) (f : α → β) :
    Paired R Eq (x.map f) (y.map f) := by
  cases h with
  | ok h => exact .ok (congrArg f h)
  | error h => exact .error h

theorem ite {c : Prop} [Decidable c] {S : α → β → Prop} {x x' : Except ε α} {y y' : Except ε β}
    (hyes : Paired R S x y) (hno : Paired R S x' y') :
    Paired R S (if c then x else x') (if c then y else y') := by
  split
  · exact hyes
  · exact hno

/-- Where both first steps have the same result, the second steps are paired at that. -/
theorem bind_eq {T : β → β' → Prop} {x y : Except ε α} {f : α → Except ε β} {g : α → Except ε β'}
    (h : Paired R Eq x y) (hnext : ∀ a, Paired R T (f a) (g a)) :
    Paired R T (x >>= f) (y >>= g) := by
  refine h.bind fun a b hab => ?_
  subst hab
  exact hnext a

theorem mapM {f g : α → Except ε β} (h : ∀ a, Paired R Eq (f a) (g a)) (items : List α) :
    Paired R Eq (items.mapM f) (items.mapM g) := by
  induction items with
  | nil => exact .ok rfl
  | cons a rest ih =>
    rw [List.mapM_cons, List.mapM_cons]
    exact (h a).bind_eq fun b => ih.bind_eq fun bs => .ok rfl

end Paired

end

end ODataEngine
