import ODataEngine.Proofs.SortOrderTheorems
import ODataEngine.Store.Basic

/-!
# The rows that are found

A query asks for rows in an order: by its keys, one after the other, and rows that tie on all of them
as they were added. Where the values that are ordered by are exact there is just one such list of the
records that pass the filter (`OrderKey.sorted_iff`), and a store finds the slice of it that the page
cuts out (`Store.find_eq_slice`).
-/

namespace ODataEngine

/-! ## A stable sort by a comparison -/

theorem stableSort_concat {α : Type} (precedes : α → α → Bool) (rows : List α) (x : α) :
    stableSort precedes (rows ++ [x]) =
      (insertReversed precedes x (stableSort precedes rows).reverse).reverse := by
  rw [stableSort, stableSort, List.foldl_concat, List.reverse_reverse]

/-- Where no row precedes another the rows stay as they are. -/
theorem stableSort_eq_self {α : Type} {precedes : α → α → Bool} (h : ∀ a b, precedes a b = false)
    (rows : List α) : stableSort precedes rows = rows := by
  induction rows using List.reverseRecOn with
  | nil => rfl
  | append_singleton rows x ih =>
    rw [stableSort_concat, ih]
    cases hrows : rows.reverse with
    | nil => rw [List.reverse_eq_nil_iff.1 hrows]; rfl
    | cons y rest =>
      rw [insertReversed, h x y, if_neg Bool.false_ne_true, ← hrows, List.reverse_cons,
        List.reverse_reverse]

section StableSort

variable {α : Type} {cmp : α → α → Ordering} [Std.OrientedCmp cmp]

/-- Two arrangements of some rows in one order are the same if rows that tie stand alike in both. -/
theorem eq_of_pairwise_isLE {rows others : List α} (hperm : rows.Perm others)
    (hrows : rows.Pairwise fun a b => (cmp a b).isLE)
    (hothers : others.Pairwise fun a b => (cmp a b).isLE)
    (hties : ∀ a ∈ rows, rows.filter (cmp a · == .eq) = others.filter (cmp a · == .eq)) :
    rows = others := by
  induction rows generalizing others with
  | nil => exact hperm.nil_eq
  | cons x rest ih =>
    cases others with
    | nil => exact hperm.eq_nil
    | cons y others =>
      obtain ⟨hx, hrest⟩ := List.pairwise_cons.1 hrows
      obtain ⟨hy, hothers'⟩ := List.pairwise_cons.1 hothers
      -- neither of the first rows precedes the other, so they are the first row of one tie
      have htie : cmp x y = .eq := by
        rcases List.mem_cons.1 (hperm.mem_iff.1 List.mem_cons_self) with rfl | hxmem
        · exact Std.ReflCmp.compare_self
        rcases List.mem_cons.1 (hperm.mem_iff.2 List.mem_cons_self) with rfl | hymem
        · exact Std.ReflCmp.compare_self
        exact Std.OrientedCmp.isLE_antisymm (hx y hymem) (hy x hxmem)
      have hhead := hties x List.mem_cons_self
      have hself : cmp x x = .eq := Std.ReflCmp.compare_self
      rw [List.filter_cons, List.filter_cons, hself, htie, if_pos (beq_self_eq_true _)] at hhead
      obtain rfl : x = y := (List.cons.inj hhead).1
      refine congrArg (x :: ·) (ih (hperm.cons_inv) hrest hothers' fun a ha => ?_)
      have htail := hties a (List.mem_cons_of_mem x ha)
      rw [List.filter_cons, List.filter_cons] at htail
      split at htail
      · exact (List.cons.inj htail).2
      · exact htail

variable {P : α → Prop}
  (trans : ∀ ⦃a b c⦄, P a → P b → P c → (cmp a b).isLE → (cmp b c).isLE → (cmp a c).isLE)

include trans

theorem cmp_eq_of_eq_of_eq {a b c : α} (ha : P a) (hb : P b) (hc : P c) (hab : cmp a b = .eq)
    (hac : cmp a c = .eq) : cmp b c = .eq := by
  have hba := Std.OrientedCmp.eq_symm hab
  have hca := Std.OrientedCmp.eq_symm hac
  apply Std.OrientedCmp.isLE_antisymm
  · exact trans hb ha hc (Ordering.isLE_of_eq_eq hba) (Ordering.isLE_of_eq_eq hac)
  · exact trans hc ha hb (Ordering.isLE_of_eq_eq hca) (Ordering.isLE_of_eq_eq hab)

/-- Rows in reverse order are so with one more row in its place. -/
theorem pairwise_insertReversed {x : α} {rows : List α} (hx : P x) (hrows : ∀ r ∈ rows, P r)
    (h : rows.Pairwise fun a b => (cmp b a).isLE) :
    (insertReversed (cmp · · == .lt) x rows).Pairwise fun a b => (cmp b a).isLE := by
  induction rows with
  | nil => exact List.pairwise_singleton _ x
  | cons y rest ih =>
    obtain ⟨hy, hrest⟩ := List.forall_mem_cons.1 hrows
    obtain ⟨hbelow, hsorted⟩ := List.pairwise_cons.1 h
    unfold insertReversed
    split
    · next hlt =>
      refine List.pairwise_cons.2 ⟨fun r hr => ?_, ih hrest hsorted⟩
      rcases List.mem_cons.1 ((insertReversed_perm _ x rest).mem_iff.1 hr) with rfl | hr
      · exact Ordering.isLE_of_eq_lt (beq_iff_eq.1 hlt)
      · exact hbelow r hr
    · next hnot =>
      have hyx : (cmp y x).isLE := by
        by_contra hxy
        exact hnot (beq_iff_eq.2 (Std.OrientedCmp.lt_of_not_isLE hxy))
      refine List.pairwise_cons.2 ⟨fun r hr => ?_, h⟩
      rcases List.mem_cons.1 hr with rfl | hr
      · exact hyx
      · exact trans (hrest r hr) hy hx (hbelow r hr) hyx

/-- A row passes none of the rows that it ties with. -/
theorem filter_insertReversed {a x : α} {rows : List α} (ha : P a) (hx : P x)
    (hrows : ∀ r ∈ rows, P r) :
    (insertReversed (cmp · · == .lt) x rows).filter (cmp a · == .eq) =
      (x :: rows).filter (cmp a · == .eq) := by
  induction rows with
  | nil => rfl
  | cons y rest ih =>
    obtain ⟨hy, hrest⟩ := List.forall_mem_cons.1 hrows
    unfold insertReversed
    split
    · next hlt =>
      rw [List.filter_cons, ih hrest]
      by_cases htie : cmp a x = .eq
      · have hy' : cmp a y ≠ .eq := fun hay => by
          rw [cmp_eq_of_eq_of_eq trans ha hx hy htie hay] at hlt
          cases hlt
        simp [htie, hy']
      · simp [List.filter_cons, htie]
    · rfl

theorem pairwise_stableSort {rows : List α} (hrows : ∀ r ∈ rows, P r) :
    (stableSort (cmp · · == .lt) rows).Pairwise fun a b => (cmp a b).isLE := by
  induction rows using List.reverseRecOn with
  | nil => exact List.Pairwise.nil
  | append_singleton rows x ih =>
    obtain ⟨hrows, hx⟩ := List.forall_mem_append.1 hrows
    rw [stableSort_concat, List.pairwise_reverse]
    refine pairwise_insertReversed trans (hx x List.mem_cons_self) (fun r hr => ?_)
      (List.pairwise_reverse.2 (ih hrows))
    exact hrows r ((stableSort_perm _ rows).mem_iff.1 (List.mem_reverse.1 hr))

theorem filter_stableSort {a : α} {rows : List α} (ha : P a) (hrows : ∀ r ∈ rows, P r) :
    (stableSort (cmp · · == .lt) rows).filter (cmp a · == .eq) = rows.filter (cmp a · == .eq) := by
  induction rows using List.reverseRecOn with
  | nil => rfl
  | append_singleton rows x ih =>
    obtain ⟨hrows, hx⟩ := List.forall_mem_append.1 hrows
    rw [stableSort_concat, List.filter_reverse,
      filter_insertReversed trans ha (hx x List.mem_cons_self) fun r hr =>
        hrows r ((stableSort_perm _ rows).mem_iff.1 (List.mem_reverse.1 hr)),
      ← List.filter_reverse, List.reverse_cons, List.reverse_reverse, List.filter_append,
      List.filter_append, ih hrows]

end StableSort

/-! ## Values, one below the other -/

/-- A value stands below another: its kind does, or it is of the same kind and less. Nulls, arrays
and objects are not told apart. -/
inductive Json.Below : Json → Json → Prop
  | kind {a b : Json} (h : a.kindRank < b.kindRank) : Below a b
  | bool : Below (.bool false) (.bool true)
  | number {x y : ℤ} (h : x < y) : Below (.ofInt x) (.ofInt y)
  | string {s t : String} (h : s < t) : Below (.string s) (.string t)

namespace Json

theorem exists_of_isExact {m : JsonNumber} (h : (number m).isExact = true) :
    ∃ x, m = .int x ∧ m.int64? = some x := by
  obtain ⟨x, hx⟩ := Option.isSome_iff_exists.1 h
  exact ⟨x, (JsonNumber.eq_int_of_int64? hx).1, hx⟩

theorem sortOrder_eq_lt_of_below {a b : Json} (ha : a.isExact = true) (hb : b.isExact = true)
    (h : a.Below b) : a.sortOrder b = .lt := by
  cases h with
  | kind h =>
    rw [sortOrder_of_kindRank_ne h.ne]
    exact Nat.compare_eq_lt.2 h
  | bool => rfl
  | number h =>
    obtain ⟨x, ⟨⟩, hx⟩ := exists_of_isExact ha
    obtain ⟨y, ⟨⟩, hy⟩ := exists_of_isExact hb
    rw [ofInt, ofInt, sortOrder_number, JsonNumber.order_of_int64 hx hy]
    exact Std.compare_eq_lt.2 h
  | string h => exact compareOfLessAndEq_eq_lt.2 h

theorem below_of_sortOrder_eq_lt {a b : Json} (ha : a.isExact = true) (hb : b.isExact = true)
    (h : a.sortOrder b = .lt) : a.Below b := by
  have hle := kindRank_le_of_isLE (Ordering.isLE_of_eq_lt h)
  by_cases hkind : a.kindRank = b.kindRank
  · rw [sortOrder_of_kindRank_eq hkind] at h
    cases a with
    | number m =>
      cases b with
      | number n =>
        obtain ⟨x, rfl, hx⟩ := exists_of_isExact ha
        obtain ⟨y, rfl, hy⟩ := exists_of_isExact hb
        exact .number (Std.compare_eq_lt.1 ((JsonNumber.order_of_int64 hx hy).symm.trans h))
      | _ => cases hkind
    | string s =>
      cases b with
      | string t => exact .string (compareOfLessAndEq_eq_lt.1 h)
      | _ => cases hkind
    | bool x =>
      cases b with
      | bool y =>
        cases x <;> cases y <;> first | exact .bool | cases h
      | _ => cases hkind
    | null | array | object => cases b <;> cases h
  · exact .kind (lt_of_le_of_ne hle hkind)

/-- On exact values the order is the one of kinds and then of values. -/
theorem sortOrder_eq_lt_iff {a b : Json} (ha : a.isExact = true) (hb : b.isExact = true) :
    a.sortOrder b = .lt ↔ a.Below b :=
  ⟨below_of_sortOrder_eq_lt ha hb, sortOrder_eq_lt_of_below ha hb⟩

end Json

/-! ## Records, by some keys -/

/-- The values of a record that some keys order by are exact. -/
def Record.IsExactOn (r : Record) (keys : List OrderKey) : Prop :=
  ∀ k ∈ keys, (r.valueOf k.field).isExact = true

instance (r : Record) (keys : List OrderKey) : Decidable (r.IsExactOn keys) :=
  inferInstanceAs (Decidable (∀ k ∈ keys, _))

/-- The records with exact values where some keys order. -/
abbrev ExactRecord (keys : List OrderKey) := { r : Record // r.IsExactOn keys }

namespace OrderKey

/-- By one key a record stands below another: its value does, or if the key is descending the value
of the other does. -/
def Below (k : OrderKey) (a b : Record) : Prop :=
  match k.direction with
  | .asc => (a.valueOf k.field).Below (b.valueOf k.field)
  | .desc => (b.valueOf k.field).Below (a.valueOf k.field)

/-- By one key neither of two records stands below the other. -/
def Ties (k : OrderKey) (a b : Record) : Prop := ¬ k.Below a b ∧ ¬ k.Below b a

/-- A record comes before another by the first key that they do not tie on. -/
inductive Precedes : List OrderKey → Record → Record → Prop
  | first {k : OrderKey} {rest : List OrderKey} {a b : Record} (h : k.Below a b) :
      Precedes (k :: rest) a b
  | later {k : OrderKey} {rest : List OrderKey} {a b : Record} (htie : k.Ties a b)
      (h : Precedes rest a b) : Precedes (k :: rest) a b

/-- Two records tie on every key. -/
def TieOnAll (keys : List OrderKey) (a b : Record) : Prop := ∀ k ∈ keys, k.Ties a b

/-- A list holds some rows in the order of some keys, and those that tie on all keys in the order
in which they stood. -/
structure Sorted (keys : List OrderKey) (rows sorted : List Record) : Prop where
  perm : sorted.Perm rows
  ordered : sorted.Pairwise fun a b => Precedes keys a b ∨ TieOnAll keys a b
  stable : ∀ part : List Record, part.Sublist rows → part.Pairwise (TieOnAll keys) →
    part.Sublist sorted

/-! ## Sorting by some keys -/

theorem order_swap (k : OrderKey) (a b : Record) : k.order a b = (k.order b a).swap := by
  unfold order
  cases k.direction with
  | asc => exact Json.sortOrder_swap _ _
  | desc => exact congrArg Ordering.swap (Json.sortOrder_swap _ _)

theorem orderBy_swap (keys : List OrderKey) (a b : Record) :
    orderBy keys a b = (orderBy keys b a).swap := by
  induction keys with
  | nil => rfl
  | cons k rest ih => rw [orderBy, orderBy, Ordering.swap_then, ← order_swap, ← ih]

instance (keys : List OrderKey) : Std.OrientedCmp (orderBy keys) where
  eq_swap := orderBy_swap keys _ _

variable {k : OrderKey} {keys : List OrderKey} {a b c : Record}

theorem order_eq_lt_iff (ha : a.IsExactOn keys) (hb : b.IsExactOn keys) (hk : k ∈ keys) :
    k.order a b = .lt ↔ k.Below a b := by
  unfold order Below
  cases k.direction with
  | asc => exact Json.sortOrder_eq_lt_iff (ha k hk) (hb k hk)
  | desc =>
    show (Json.sortOrder _ _).swap = .lt ↔ _
    rw [← Json.sortOrder_swap]
    exact Json.sortOrder_eq_lt_iff (hb k hk) (ha k hk)

theorem order_eq_eq_iff (ha : a.IsExactOn keys) (hb : b.IsExactOn keys) (hk : k ∈ keys) :
    k.order a b = .eq ↔ k.Ties a b := by
  rw [Ties, ← order_eq_lt_iff ha hb hk, ← order_eq_lt_iff hb ha hk, order_swap k b a]
  cases k.order a b <;> decide

theorem orderBy_eq_lt_iff (ha : a.IsExactOn keys) (hb : b.IsExactOn keys) :
    orderBy keys a b = .lt ↔ Precedes keys a b := by
  induction keys with
  | nil => exact ⟨nofun, nofun⟩
  | cons k rest ih =>
    have ih := ih (fun k hk => ha k (List.mem_cons_of_mem _ hk))
      fun k hk => hb k (List.mem_cons_of_mem _ hk)
    have hlt := order_eq_lt_iff ha hb List.mem_cons_self
    have heq := order_eq_eq_iff ha hb List.mem_cons_self
    rw [orderBy, Ordering.then_eq_lt, hlt, heq, ih]
    constructor
    · rintro (h | ⟨htie, h⟩)
      · exact .first h
      · exact .later htie h
    · rintro (h | ⟨htie, h⟩)
      · exact .inl h
      · exact .inr ⟨htie, h⟩

theorem orderBy_eq_eq_iff (ha : a.IsExactOn keys) (hb : b.IsExactOn keys) :
    orderBy keys a b = .eq ↔ TieOnAll keys a b := by
  induction keys with
  | nil => exact ⟨nofun, fun _ => rfl⟩
  | cons k rest ih =>
    have ih := ih (fun k hk => ha k (List.mem_cons_of_mem _ hk))
      fun k hk => hb k (List.mem_cons_of_mem _ hk)
    rw [orderBy, Ordering.then_eq_eq, order_eq_eq_iff ha hb List.mem_cons_self, ih, TieOnAll,
      TieOnAll, List.forall_mem_cons]

theorem isLE_orderBy_iff (ha : a.IsExactOn keys) (hb : b.IsExactOn keys) :
    (orderBy keys a b).isLE ↔ Precedes keys a b ∨ TieOnAll keys a b := by
  rw [← orderBy_eq_lt_iff ha hb, ← orderBy_eq_eq_iff ha hb]
  cases orderBy keys a b <;> decide

theorem order_isLE_trans (hk : k ∈ keys) (ha : a.IsExactOn keys) (hb : b.IsExactOn keys)
    (hc : c.IsExactOn keys) (hab : (k.order a b).isLE) (hbc : (k.order b c).isLE) :
    (k.order a c).isLE := by
  unfold order at *
  cases hdirection : k.direction with
  | asc =>
    rw [hdirection] at hab hbc
    exact Json.sortOrder_isLE_trans (ha k hk) (hb k hk) (hc k hk) hab hbc
  | desc =>
    rw [hdirection] at hab hbc
    simp only [← Json.sortOrder_swap] at hab hbc ⊢
    exact Json.sortOrder_isLE_trans (hc k hk) (hb k hk) (ha k hk) hbc hab

/-- Records with exact values are ordered transitively. -/
theorem orderBy_isLE_trans (keys : List OrderKey) ⦃a b c : Record⦄ (ha : a.IsExactOn keys)
    (hb : b.IsExactOn keys) (hc : c.IsExactOn keys) (hab : (orderBy keys a b).isLE)
    (hbc : (orderBy keys b c).isLE) : (orderBy keys a c).isLE := by
  -- transitive comparisons go together one after the other, so the records are taken as a type
  have hall : ∀ sub : List OrderKey, sub ⊆ keys →
      Std.TransCmp fun r t : ExactRecord keys => orderBy sub r.1 t.1 := by
    intro sub
    induction sub with
    | nil => exact fun _ => { eq_swap := rfl, isLE_trans := fun _ _ => rfl }
    | cons k rest ih =>
      intro hsub
      obtain ⟨hk, hrest⟩ := List.cons_subset.1 hsub
      have hfirst : Std.TransCmp fun r t : ExactRecord keys => k.order r.1 t.1 :=
        { eq_swap := order_swap k _ _
          isLE_trans := fun {r s t} => order_isLE_trans hk r.2 s.2 t.2 }
      have hothers := ih hrest
      exact inferInstanceAs
        (Std.TransCmp (compareLex (fun r t : ExactRecord keys => k.order r.1 t.1) _))
  have hkeys := hall keys (List.Subset.refl keys)
  exact hkeys.isLE_trans (a := ⟨a, ha⟩) (b := ⟨b, hb⟩) (c := ⟨c, hc⟩) hab hbc

/-- Where the values that are ordered by are exact, sorting is never given up. -/
theorem transitiveOn_of_isExactOn {rows : List Record} (h : ∀ r ∈ rows, r.IsExactOn keys) :
    TransitiveOn keys rows :=
  fun a ha b hb c hc => orderBy_isLE_trans keys (h a ha) (h b hb) (h c hc)

theorem tieOnAll_of_tieOnAll (ha : a.IsExactOn keys) (hb : b.IsExactOn keys)
    (hc : c.IsExactOn keys) (hab : TieOnAll keys a b) (hac : TieOnAll keys a c) :
    TieOnAll keys b c := by
  rw [← orderBy_eq_eq_iff ha hb] at hab
  rw [← orderBy_eq_eq_iff ha hc] at hac
  rw [← orderBy_eq_eq_iff hb hc]
  exact cmp_eq_of_eq_of_eq (orderBy_isLE_trans keys) ha hb hc hab hac

/-- Sorting by no key leaves the rows as they are, as a stable sort does. -/
theorem sort_eq_stableSort (keys : List OrderKey) (rows : List Record) :
    sort keys rows = stableSort (orderBy keys · · == .lt) rows := by
  unfold sort
  cases keys with
  | nil => exact (stableSort_eq_self (fun _ _ => rfl) rows).symm
  | cons k rest => rfl

variable {rows sorted : List Record}

theorem sorted_sort (h : ∀ r ∈ rows, r.IsExactOn keys) : Sorted keys rows (sort keys rows) := by
  rw [sort_eq_stableSort]
  have hperm := stableSort_perm (orderBy keys · · == .lt) rows
  refine ⟨hperm, ?_, fun part hpart hties => ?_⟩
  · have htransitive := transitiveOn_of_isExactOn h
    have hordered := pairwise_stableSort (P := (· ∈ rows))
      (fun a b c ha hb hc => htransitive a ha b hb c hc) fun _ hr => hr
    refine hordered.imp_of_mem fun {a b} ha hb hle => ?_
    exact (isLE_orderBy_iff (h a (hperm.mem_iff.1 ha)) (h b (hperm.mem_iff.1 hb))).1 hle
  · -- the part lies among the rows that tie with its first one
    cases part with
    | nil => exact List.nil_sublist _
    | cons a rest =>
      have hexact : ∀ r ∈ a :: rest, r.IsExactOn keys := fun r hr => h r (hpart.mem hr)
      have ha := hexact a List.mem_cons_self
      have hself : (a :: rest).filter (orderBy keys a · == .eq) = a :: rest := by
        refine List.filter_eq_self.2 fun r hr => beq_iff_eq.2 ?_
        rcases List.mem_cons.1 hr with rfl | hr
        · exact Std.ReflCmp.compare_self
        · exact (orderBy_eq_eq_iff ha (hexact r (List.mem_cons_of_mem a hr))).2
            ((List.pairwise_cons.1 hties).1 r hr)
      have hfilter := hpart.filter (orderBy keys a · == .eq)
      rw [hself, ← filter_stableSort (orderBy_isLE_trans keys) ha h] at hfilter
      exact hfilter.trans List.filter_sublist

/-- The rows that tie with one stand in a sorted list as they stood before. -/
theorem Sorted.filter_eq (hsorted : Sorted keys rows sorted) (h : ∀ r ∈ rows, r.IsExactOn keys)
    (ha : a.IsExactOn keys) :
    sorted.filter (orderBy keys a · == .eq) = rows.filter (orderBy keys a · == .eq) := by
  have hties : (rows.filter (orderBy keys a · == .eq)).Pairwise (TieOnAll keys) := by
    refine List.pairwise_of_forall_mem_list fun r hr t ht => ?_
    obtain ⟨hr, har⟩ := List.mem_filter.1 hr
    obtain ⟨ht, hat⟩ := List.mem_filter.1 ht
    rw [beq_iff_eq, orderBy_eq_eq_iff ha (h r hr)] at har
    rw [beq_iff_eq, orderBy_eq_eq_iff ha (h t ht)] at hat
    exact tieOnAll_of_tieOnAll ha (h r hr) (h t ht) har hat
  have hsub := (hsorted.stable _ List.filter_sublist hties).filter (orderBy keys a · == .eq)
  simp only [List.filter_filter, Bool.and_self] at hsub
  exact (hsub.eq_of_length (hsorted.perm.filter _).length_eq.symm).symm

/-- Exact rows are sorted in one way only. -/
theorem sorted_iff (h : ∀ r ∈ rows, r.IsExactOn keys) :
    Sorted keys rows sorted ↔ sorted = sort keys rows := by
  refine ⟨fun hsorted => ?_, fun hsort => hsort ▸ sorted_sort h⟩
  have hown := sorted_sort h
  have hordered : ∀ {l : List Record}, Sorted keys rows l →
      l.Pairwise fun a b => (orderBy keys a b).isLE := fun {l} hl =>
    hl.ordered.imp_of_mem fun ha hb =>
      (isLE_orderBy_iff (h _ (hl.perm.mem_iff.1 ha)) (h _ (hl.perm.mem_iff.1 hb))).2
  refine eq_of_pairwise_isLE (hsorted.perm.trans hown.perm.symm)
    (hordered hsorted) (hordered hown) fun a ha => ?_
  have hexact := h a (hsorted.perm.mem_iff.1 ha)
  rw [hsorted.filter_eq h hexact, hown.filter_eq h hexact]

end OrderKey

/-! ## Finding -/

/-- The row at a place of a page is the one as many places after the rows left out. -/
theorem Query.getElem?_page {α : Type} (q : Query) (rows : List α) (i : ℕ) :
    (q.page rows)[i]? =
      if q.top.all (i < ·) then rows[q.skip.getD 0 + i]? else none := by
  unfold page
  cases q.top with
  | none => rw [List.getElem?_drop]; rfl
  | some top =>
    simp only [List.getElem?_take, List.getElem?_drop, Option.all_some, decide_eq_true_eq]

/-- Where the values that a query orders by are exact, a store finds a slice of the one list that
holds the records which pass the filter in the order of the query. -/
theorem Store.find_eq_slice (key : String) (keyType : EdmType) {records : List Record} {q : Query}
    (hexact : ∀ r ∈ records, r.IsExactOn q.order) :
    ∃ sorted, (∀ other, OrderKey.Sorted q.order (records.filter q.filter.holds) other ↔
        other = sorted) ∧
      ∃ rows, ({ key, keyType, records } : Store).find q = .ok rows ∧ ∀ i : ℕ, rows[i]? =
        if q.top.all (i < ·) then (sorted[q.skip.getD 0 + i]?).map (·.project q.select)
        else none := by
  have hrows : ∀ r ∈ records.filter q.filter.holds, r.IsExactOn q.order :=
    fun r hr => hexact r (List.mem_filter.1 hr).1
  refine ⟨_, fun _ => OrderKey.sorted_iff hrows, _, rfl, fun i => ?_⟩
  rw [rows, List.getElem?_map, Query.getElem?_page]
  split
  · rfl
  · rfl

namespace Library

/-- Readers with their ages: two are of one age, and one has none. -/
def readers : List Record :=
  [[("Id", .ofInt 1), ("Name", .string "ann"), ("Age", .ofInt 30)],
    [("Id", .ofInt 2), ("Name", .string "bob")],
    [("Id", .ofInt 3), ("Name", .string "cid"), ("Age", .ofInt 30)],
    [("Id", .ofInt 4), ("Name", .string "dan"), ("Age", .ofInt 41)],
    [("Id", .ofInt 5), ("Name", .string "eve"), ("Age", .ofInt 50)]]

/-- All readers but one by descending age, two of them from the second on. -/
def byAge : Query where
  filter := .field "Name" (.compare .ne (.string "eve"))
  order := [⟨"Age", .desc⟩]
  top := some 2
  skip := some 1

/-- Behind the eldest reader come the two of one age, as they were added. -/
theorem find_byAge :
    (∀ r ∈ readers, r.IsExactOn byAge.order) ∧
      ∃ sorted, OrderKey.Sorted byAge.order (readers.filter byAge.filter.holds) sorted ∧
        (sorted[1]?).map (·.project []) = readers[0]? ∧
        (sorted[2]?).map (·.project []) = readers[2]? := by
  have hexact : ∀ r ∈ readers, r.IsExactOn byAge.order := by decide
  obtain ⟨sorted, hsorted, rows, hfind, hrows⟩ := Store.find_eq_slice "Id" .int32 hexact
  refine ⟨hexact, sorted, (hsorted sorted).2 rfl, ?_⟩
  have hpage : ({ key := "Id", keyType := .int32, records := readers } : Store).find byAge =
      .ok [[("Id", .ofInt 1), ("Name", .string "ann"), ("Age", .ofInt 30)],
        [("Id", .ofInt 3), ("Name", .string "cid"), ("Age", .ofInt 30)]] := by rfl
  obtain rfl := Except.ok.inj (hfind.symm.trans hpage)
  exact ⟨(hrows 0).symm, (hrows 1).symm⟩

end Library

end ODataEngine
