import ODataEngine.Proofs.OptionTheorems
import ODataEngine.Proofs.SchemaTheorems

/-!
# The order of options

Options are read in order into one query, and reading stops at the first that is wrong. Still the
order does not matter to what is accepted: an option is read without a look at the query so far and
sets a part of it that no other option sets (`Query.Sets.swap`), and the options that came before
count only as a set. What the options are read as is the same for every permutation of them, and
those that are none of ours may stand anywhere or be left out (`Query.ofOptions_eq_of_perm`). Only
the failure of wrong options depends on which of them comes first.
-/

namespace ODataEngine

namespace Query

variable {limits : QueryLimits} {e : EntityType} {check : String → Except RequestError Unit}

/-! ## Parts of a query -/

/-- The value of one option, for the part of a query that the option sets. -/
inductive Part where
  | select (names : List String)
  | filter (p : Predicate)
  | order (keys : List OrderKey)
  | top (n : Nat)
  | skip (n : Nat)
  | expand (text : String)
  /-- Options that are not known set nothing. -/
  | none

/-- The option that sets the part. -/
def Part.option? : Part → Option String
  | select _ => some "$select"
  | filter _ => some "$filter"
  | order _ => some "$orderby"
  | top _ => some "$top"
  | skip _ => some "$skip"
  | expand _ => some "$expand"
  | none => Option.none

/-- The query with one part replaced. -/
def Part.set (q : Query) : Part → Query
  | select names => { q with select := names }
  | filter p => { q with filter := p }
  | order keys => { q with order := keys }
  | top n => { q with top := some n }
  | skip n => { q with skip := some n }
  | expand text => { q with expand := text }
  | none => q

/-- Parts of different options can be set in either order. -/
theorem Part.set_comm {a b : Part} (h : ∀ option, a.option? = some option → b.option? ≠ some option)
    (q : Query) : b.set (a.set q) = a.set (b.set q) := by
  cases a <;> cases b
  -- the two set one part, which the hypothesis excludes, or leave each other's alone
  all_goals first
    | rfl
    | exact absurd rfl (h _ rfl)

/-- Reading an option finds a part for the option, the same whatever the query is so far. -/
theorem Sets.exists_part {option value : String} {q q' : Query}
    (h : Sets limits e check option value q q') :
    ∃ part : Part, q' = part.set q ∧ (part.option? = some option ∨ part.option? = none) ∧
      ∀ q₀, Sets limits e check option value q₀ (part.set q₀) := by
  cases h with
  | @select names hoption hvalue =>
    exact ⟨.select names, rfl, .inl (congrArg some hoption.symm), fun q₀ => .select hoption hvalue⟩
  | @filter p hoption hvalue =>
    exact ⟨.filter p, rfl, .inl (congrArg some hoption.symm), fun q₀ => .filter hoption hvalue⟩
  | @order keys hoption hvalue =>
    exact ⟨.order keys, rfl, .inl (congrArg some hoption.symm), fun q₀ => .order hoption hvalue⟩
  | @top n hoption hvalue hcap =>
    exact ⟨.top n, rfl, .inl (congrArg some hoption.symm), fun q₀ => .top hoption hvalue hcap⟩
  | @skip n hoption hvalue =>
    exact ⟨.skip n, rfl, .inl (congrArg some hoption.symm), fun q₀ => .skip hoption hvalue⟩
  | expand hoption hcheck =>
    exact ⟨.expand (Text.trimmed value), rfl, .inl (congrArg some hoption.symm),
      fun q₀ => .expand hoption hcheck⟩
  | other hoption => exact ⟨.none, rfl, .inr rfl, fun q₀ => .other hoption⟩

/-- Two different options can be read in either order. -/
theorem Sets.swap {a b v w : String} {q q₁ q₂ : Query} (hne : a ≠ b)
    (ha : Sets limits e check a v q q₁) (hb : Sets limits e check b w q₁ q₂) :
    ∃ q₁', Sets limits e check b w q q₁' ∧ Sets limits e check a v q₁' q₂ := by
  obtain ⟨part, rfl, hpart, hset⟩ := ha.exists_part
  obtain ⟨part', rfl, hpart', hset'⟩ := hb.exists_part
  have hdifferent : ∀ option, part.option? = some option → part'.option? ≠ some option := by
    intro option hoption hoption'
    rw [hoption] at hpart
    rw [hoption'] at hpart'
    have hsame : option = a := by simpa using hpart
    have hsame' : option = b := by simpa using hpart'
    exact hne (hsame.symm.trans hsame')
  refine ⟨part'.set q, hset' q, ?_⟩
  rw [Part.set_comm hdifferent]
  exact hset (part'.set q)

/-! ## Lists of options -/

variable {options options' : List (String × String)}

/-- Of the options before only the names count, in any order. -/
theorem addOptions_congr_seen {seen seen' : List String}
    (h : ∀ name, name ∈ seen ↔ name ∈ seen') (q : Query) :
    addOptions limits e check ⟨seen, q⟩ options = addOptions limits e check ⟨seen', q⟩ options := by
  induction options generalizing seen seen' q with
  | nil => rfl
  | cons o rest ih =>
    have hcontains : ∀ name, seen.contains name = seen'.contains name := by
      intro name
      rw [Bool.eq_iff_iff, List.contains_iff_mem, List.contains_iff_mem]
      exact h name
    have happend : ∀ option name, name ∈ seen ++ [option] ↔ name ∈ seen' ++ [option] := by
      intro option name
      rw [List.mem_append, List.mem_append, h name]
    have hrest := fun option q => ih (happend option) q
    simp only [addOptions, hcontains, hrest, ih h]

/-- Options that are none of ours change nothing, failures included. -/
theorem addOptions_filter_isOwn (sofar : OptionsSoFar) :
    addOptions limits e check sofar (options.filter isOwn) =
      addOptions limits e check sofar options := by
  induction options generalizing sofar with
  | nil => rfl
  | cons o rest ih =>
    cases hown : isOwn o with
    | false =>
      have hhead : ((Text.trimmed o.1).toList.head? != some '$') = true := by
        show (!isOwn o) = true
        rw [hown]
        rfl
      rw [List.filter_cons_of_neg (Bool.eq_false_iff.1 hown), ih]
      show _ = if (Text.trimmed o.1).toList.head? != some '$' then _ else _
      rw [if_pos hhead]
    | true =>
      rw [List.filter_cons_of_pos hown]
      simp only [addOptions, ih]

/-- Two options at the beginning can change places. -/
theorem addOptions_swap {a b : String × String} {sofar : OptionsSoFar} {q : Query}
    (h : addOptions limits e check sofar (a :: b :: options) = .ok q) :
    addOptions limits e check sofar (b :: a :: options) = .ok q := by
  rw [addOptions_cons_eq_ok_iff] at h ⊢
  rcases h with ⟨ha, h⟩ | ⟨ha, hnew, q₁, hsets, h⟩
  · -- the first is none of ours
    rcases addOptions_cons_eq_ok_iff.1 h with ⟨hb, h⟩ | ⟨hb, hnew', q₂, hsets', h⟩
    · exact .inl ⟨hb, addOptions_cons_eq_ok_iff.2 (.inl ⟨ha, h⟩)⟩
    · exact .inr ⟨hb, hnew', q₂, hsets', addOptions_cons_eq_ok_iff.2 (.inl ⟨ha, h⟩)⟩
  · rcases addOptions_cons_eq_ok_iff.1 h with ⟨hb, h⟩ | ⟨hb, hnew', q₂, hsets', h⟩
    · exact .inl ⟨hb, addOptions_cons_eq_ok_iff.2 (.inr ⟨ha, hnew, q₁, hsets, h⟩)⟩
    · simp only [List.mem_append, List.mem_singleton, not_or] at hnew'
      obtain ⟨hnew', hne⟩ := hnew'
      obtain ⟨q₁', hsets', hsets⟩ := hsets.swap (fun hsame => hne hsame.symm) hsets'
      refine .inr ⟨hb, hnew', q₁', hsets', addOptions_cons_eq_ok_iff.2 (.inr ?_)⟩
      refine ⟨ha, ?_, q₂, hsets, ?_⟩
      · simp only [List.mem_append, List.mem_singleton, not_or]
        exact ⟨hnew, fun hsame => hne hsame.symm⟩
      · rw [← h]
        apply addOptions_congr_seen
        intro name
        simp only [List.mem_append, List.mem_singleton]
        rw [or_right_comm]

/-- Options that are read are read in any order, as the same query. -/
theorem addOptions_of_perm (hperm : options.Perm options') {sofar : OptionsSoFar} {q : Query}
    (h : addOptions limits e check sofar options = .ok q) :
    addOptions limits e check sofar options' = .ok q := by
  induction hperm generalizing sofar with
  | nil => exact h
  | cons o _ ih =>
    rw [addOptions_cons_eq_ok_iff] at h ⊢
    rcases h with ⟨hother, h⟩ | ⟨hown, hnew, query, hsets, h⟩
    · exact .inl ⟨hother, ih h⟩
    · exact .inr ⟨hown, hnew, query, hsets, ih h⟩
  | swap => exact addOptions_swap h
  | trans _ _ ih ih' => exact ih' (ih h)

/-- Options are accepted in every order or in none, and are read as the same query. Where they
differ only in options that are none of ours, the outcome is the same even if it is a failure. -/
theorem ofOptions_eq_of_perm (limits : QueryLimits) (schema : Option Schema) (e : EntityType)
    (options options' : List (String × String)) :
    (options.Perm options' → ∀ q,
      ofOptions limits schema e options = .ok q ↔ ofOptions limits schema e options' = .ok q) ∧
    (options.filter isOwn = options'.filter isOwn →
      ofOptions limits schema e options = ofOptions limits schema e options') := by
  constructor
  · intro hperm q
    exact ⟨addOptions_of_perm hperm, addOptions_of_perm hperm.symm⟩
  · intro hsame
    unfold ofOptions
    rw [← addOptions_filter_isOwn, hsame, addOptions_filter_isOwn]

end Query

namespace Library

/-- Two options are read in both orders, and one that is none of ours does not hide a repeated
one. -/
theorem authors_in_either_order :
    ∃ q, Query.ofOptions {} (some schema) authors.entity [("$top", "2"), (" $SELECT ", "name")] =
        .ok q ∧
      Query.ofOptions {} (some schema) authors.entity [(" $SELECT ", "name"), ("$top", "2")] =
        .ok q ∧
      Query.ofOptions {} (some schema) authors.entity
          [("$top", "2"), ("debug", "$top"), ("$Top", "2")] =
        .error (.invalidQuery "$Top" "query option given more than once") := by
  have hread : Query.ofOptions {} (some schema) authors.entity
      [("$top", "2"), (" $SELECT ", "name")] = .ok { select := ["Name"], top := some 2 } := by
    with_unfolding_all rfl
  have horder := Query.ofOptions_eq_of_perm {} (some schema) authors.entity
  refine ⟨_, hread, ?_, ?_⟩
  · exact ((horder _ _).1 (.swap _ _ _) _).1 hread
  · rw [(horder _ [("$top", "2"), ("$Top", "2")]).2 (by decide)]
    with_unfolding_all rfl

end Library

end ODataEngine
