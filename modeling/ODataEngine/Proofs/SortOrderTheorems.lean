import ODataEngine.Proofs.RoundingTheorems
import ODataEngine.Store.Order

/-!
# The order of values

`Json.sortOrder` puts any two values into an order, one way round whichever comes first. It is
transitive on values whose numbers are integers of 64 bits with sign (`sortOrder_isLE_trans`), and on
all others but for one case: two such integers are compared exactly, but each of them with any other
number as doubles, so where rounding makes them one, a number at that double ties with both and tells
the greater one apart from the lesser no more (`sortOrder_isLE_trans_iff`).
-/

namespace ODataEngine

namespace JsonNumber

/-- An integer of 64 bits, with or without sign, or a double. -/
def Fits : JsonNumber → Prop
  | .int n => -2 ^ 63 ≤ n ∧ n < 2 ^ 64
  | .float _ => True

theorem order_swap (m n : JsonNumber) : m.order n = (n.order m).swap := by
  unfold order
  cases m.int64? <;> cases n.int64? <;> first
    | exact (Binary64.order_swap _ _).symm
    | exact Std.OrientedOrd.eq_swap

/-- The order of two integers of 64 bits with sign is exact. -/
theorem order_of_int64 {m n : JsonNumber} {x y : ℤ} (hm : m.int64? = some x)
    (hn : n.int64? = some y) : m.order n = compare x y := by
  rw [order, hm, hn]

/-- Two numbers are compared as integers of 64 bits with sign, or as doubles. -/
theorem order_cases (m n : JsonNumber) :
    (∃ x y, m = .int x ∧ n = .int y ∧ x < 2 ^ 63 ∧ y < 2 ^ 63 ∧ m.order n = compare x y) ∨
      m.order n = m.toBinary64.order n.toBinary64 := by
  cases hm : m.int64? with
  | none => exact .inr (by rw [order, hm])
  | some x =>
    cases hn : n.int64? with
    | none => exact .inr (by rw [order, hm, hn])
    | some y =>
      obtain ⟨hmx, hx⟩ := eq_int_of_int64? hm
      obtain ⟨hny, hy⟩ := eq_int_of_int64? hn
      exact .inl ⟨x, y, hmx, hny, hx, hy, order_of_int64 hm hn⟩

/-- Rounding may make two numbers one, but never turns them round. -/
theorem isLE_toBinary64 {m n : JsonNumber} (hm : m.Fits) (hn : n.Fits) (h : (m.order n).isLE) :
    m.toBinary64.signedRank ≤ n.toBinary64.signedRank := by
  rcases order_cases m n with ⟨x, y, rfl, rfl, hx, hy, horder⟩ | horder
  · rw [horder] at h
    have hlow : -2 ^ 63 ≤ x := hm.1
    exact Binary64.signedRank_ofInt_mono (Std.isLE_compare.1 h) (by omega) (by omega)
  · rw [horder] at h
    exact Std.isLE_compare.1 h

end JsonNumber

namespace Json

/-! ## Both ways round -/

theorem order?_swap (a b : Json) : a.order? b = (b.order? a).map Ordering.swap := by
  cases a with
  | number m =>
    cases b with
    | number n => exact congrArg some (m.order_swap n)
    | _ => rfl
  | string s =>
    cases b with
    | string t => exact congrArg some Std.OrientedOrd.eq_swap
    | _ => rfl
  | bool x =>
    cases b with
    | bool y => exact congrArg some Std.OrientedOrd.eq_swap
    | _ => rfl
  | null | array | object => cases b <;> rfl

theorem sortOrder_swap (a b : Json) : a.sortOrder b = (b.sortOrder a).swap := by
  rw [sortOrder, sortOrder, Ordering.swap_then, order?_swap a b,
    ← Std.OrientedOrd.eq_swap (a := a.kindRank)]
  cases b.order? a <;> rfl

instance : Std.OrientedCmp sortOrder where
  eq_swap := sortOrder_swap _ _

/-! ## Three values -/

/-- Values of different kinds stand in the order of their kinds. -/
theorem sortOrder_of_kindRank_ne {a b : Json} (h : a.kindRank ≠ b.kindRank) :
    a.sortOrder b = compare a.kindRank b.kindRank := by
  rw [sortOrder]
  cases hkind : compare a.kindRank b.kindRank with
  | eq => exact absurd (Std.LawfulEqOrd.eq_of_compare hkind) h
  | lt | gt => rfl

theorem sortOrder_of_kindRank_eq {a b : Json} (h : a.kindRank = b.kindRank) :
    a.sortOrder b = (a.order? b).getD .eq := by
  rw [sortOrder, h, Std.ReflOrd.compare_self, Ordering.eq_then]

theorem sortOrder_number (m n : JsonNumber) :
    (number m).sortOrder (number n) = m.order n :=
  sortOrder_of_kindRank_eq (a := number m) (b := number n) rfl

theorem kindRank_le_of_isLE {a b : Json} (h : (a.sortOrder b).isLE) : a.kindRank ≤ b.kindRank := by
  by_contra hlt
  rw [sortOrder_of_kindRank_ne (by omega)] at h
  exact hlt (Std.isLE_compare.1 h)

/-- Where numbers are ordered transitively so are all values. -/
theorem sortOrder_isLE_trans_of_numbers {a b c : Json} (hab : (a.sortOrder b).isLE)
    (hbc : (b.sortOrder c).isLE)
    (hnumbers : ∀ m n k : JsonNumber, a = .number m → b = .number n → c = .number k →
      (a.sortOrder c).isLE) : (a.sortOrder c).isLE := by
  have hab' := kindRank_le_of_isLE hab
  have hbc' := kindRank_le_of_isLE hbc
  by_cases hkinds : a.kindRank = c.kindRank
  · -- all three are of one kind
    have hkind : a.kindRank = b.kindRank := by omega
    rw [sortOrder_of_kindRank_eq hkind] at hab
    rw [sortOrder_of_kindRank_eq (hkind.symm.trans hkinds)] at hbc
    cases a with
    | number m =>
      cases b with
      | number n =>
        cases c with
        | number k => exact hnumbers m n k rfl rfl rfl
        | _ => cases hkinds
      | _ => cases hkind
    | string s =>
      cases b with
      | string t =>
        cases c with
        | string u => exact Std.TransOrd.isLE_trans hab hbc
        | _ => cases hkinds
      | _ => cases hkind
    | bool x =>
      cases b with
      | bool y =>
        cases c with
        | bool z => exact Std.TransOrd.isLE_trans hab hbc
        | _ => cases hkinds
      | _ => cases hkind
    | null | array | object => cases c <;> first | rfl | cases hkinds
  · rw [sortOrder_of_kindRank_ne hkinds]
    exact Std.isLE_compare.2 (by omega)

/-! ## Exact values -/

/-- The value is no number, or an integer of 64 bits with sign. -/
def isExact : Json → Bool
  | .number n => n.int64?.isSome
  | _ => true

/-- On exact values the order is transitive. -/
theorem sortOrder_isLE_trans {a b c : Json} (ha : a.isExact = true) (hb : b.isExact = true)
    (hc : c.isExact = true) (hab : (a.sortOrder b).isLE) (hbc : (b.sortOrder c).isLE) :
    (a.sortOrder c).isLE := by
  refine sortOrder_isLE_trans_of_numbers hab hbc ?_
  rintro m n k rfl rfl rfl
  obtain ⟨x, hx⟩ := Option.isSome_iff_exists.1 ha
  obtain ⟨y, hy⟩ := Option.isSome_iff_exists.1 hb
  obtain ⟨z, hz⟩ := Option.isSome_iff_exists.1 hc
  rw [sortOrder_number, JsonNumber.order_of_int64 hx hy] at hab
  rw [sortOrder_number, JsonNumber.order_of_int64 hy hz] at hbc
  rw [sortOrder_number, JsonNumber.order_of_int64 hx hz]
  exact Std.TransOrd.isLE_trans hab hbc

/-! ## All values -/

/-- If the value is a number, it is one that can be written. -/
def Fits (v : Json) : Prop := ∀ n, v = .number n → n.Fits

/-- The outer values are integers of 64 bits with sign, the greater one first, and the middle one is
another number that has the double of both. -/
def Blurs (a b c : Json) : Prop :=
  ∃ x z n, a = .ofInt x ∧ b = .number n ∧ c = .ofInt z ∧ z < x ∧ x < 2 ^ 63 ∧ n.int64? = none ∧
    (Binary64.ofInt x).order n.toBinary64 = .eq ∧ n.toBinary64.order (Binary64.ofInt z) = .eq

/-- The middle value ties with both outer ones, which do not tie. -/
theorem Blurs.sortOrder_eq {a b c : Json} (h : Blurs a b c) :
    a.sortOrder b = .eq ∧ b.sortOrder c = .eq ∧ a.sortOrder c = .gt := by
  obtain ⟨x, z, n, rfl, rfl, rfl, hlt, hx, hn, hxn, hnz⟩ := h
  have hx' : (JsonNumber.int x).int64? = some x := if_pos hx
  have hz' : (JsonNumber.int z).int64? = some z := if_pos (hlt.trans hx)
  rw [ofInt, ofInt, sortOrder_number, sortOrder_number, sortOrder_number]
  refine ⟨?_, ?_, ?_⟩
  · rw [JsonNumber.order, hx', hn]
    exact hxn
  · rw [JsonNumber.order, hn]
    exact hnz
  · rw [JsonNumber.order_of_int64 hx' hz']
    exact Std.compare_eq_gt.2 hlt

/-- The order of numbers is transitive where the middle one does not blur the others. -/
theorem isLE_order_of_not_blurs {m n k : JsonNumber} (hm : m.Fits) (hn : n.Fits) (hk : k.Fits)
    (hmn : (m.order n).isLE) (hnk : (n.order k).isLE)
    (h : ¬ Blurs (.number m) (.number n) (.number k)) : (m.order k).isLE := by
  have hmn' := JsonNumber.isLE_toBinary64 hm hn hmn
  have hnk' := JsonNumber.isLE_toBinary64 hn hk hnk
  rcases m.order_cases k with ⟨x, z, rfl, rfl, hx, hz, horder⟩ | horder
  · have hx' : (JsonNumber.int x).int64? = some x := if_pos hx
    have hz' : (JsonNumber.int z).int64? = some z := if_pos hz
    rw [horder, Std.isLE_compare]
    by_contra hlt
    cases hy : n.int64? with
    | some y =>
      rw [JsonNumber.order_of_int64 hx' hy, Std.isLE_compare] at hmn
      rw [JsonNumber.order_of_int64 hy hz', Std.isLE_compare] at hnk
      omega
    | none =>
      -- rounding keeps the outer ones in their order, so all three doubles are one
      have hlow : -2 ^ 63 ≤ z := hk.1
      have hzx := @Binary64.signedRank_ofInt_mono z x (by omega) (by omega) (by omega)
      have hxn : (Binary64.ofInt x).signedRank ≤ n.toBinary64.signedRank := hmn'
      have hnz : n.toBinary64.signedRank ≤ (Binary64.ofInt z).signedRank := hnk'
      refine h ⟨x, z, n, rfl, rfl, rfl, by omega, hx, hy, ?_, ?_⟩
      · rw [Binary64.order_eq_eq_iff]
        omega
      · rw [Binary64.order_eq_eq_iff]
        omega
  · rw [horder]
    exact Std.isLE_compare.2 (hmn'.trans hnk')

/-- Any two values are ordered one way round, and three values transitively just where the middle one
does not blur the others. -/
theorem sortOrder_isLE_trans_iff {a b c : Json} (ha : a.Fits) (hb : b.Fits) (hc : c.Fits) :
    a.sortOrder b = (b.sortOrder a).swap ∧
      (((a.sortOrder b).isLE → (b.sortOrder c).isLE → (a.sortOrder c).isLE) ↔ ¬ Blurs a b c) := by
  refine ⟨sortOrder_swap a b, fun htrans hblurs => ?_, fun h hab hbc => ?_⟩
  · obtain ⟨hab, hbc, hac⟩ := hblurs.sortOrder_eq
    rw [hab, hbc, hac] at htrans
    exact absurd (htrans rfl rfl) (by decide)
  · refine sortOrder_isLE_trans_of_numbers hab hbc ?_
    rintro m n k rfl rfl rfl
    rw [sortOrder_number] at hab hbc ⊢
    exact isLE_order_of_not_blurs (ha m rfl) (hb n rfl) (hc k rfl) hab hbc h

/-! ## The least integer that has no double -/

/-- The least positive integer that is no double. -/
def firstBlurred : Json := .ofInt (2 ^ 53 + 1)

/-- The integer below it. -/
def lastSharp : Json := .ofInt (2 ^ 53)

/-- The double that both have. -/
def blurringDouble : Json := .number (.float ⟨false, 0x4340000000000000, by decide⟩)

theorem fits_firstBlurred : firstBlurred.Fits ∧ lastSharp.Fits ∧ blurringDouble.Fits := by
  refine ⟨?_, ?_, ?_⟩
  · rintro n ⟨⟩
    exact ⟨by decide, by decide⟩
  · rintro n ⟨⟩
    exact ⟨by decide, by decide⟩
  · rintro n ⟨⟩
    trivial

/-- The two integers tie with the double, and not with each other. -/
theorem sortOrder_not_transitive :
    firstBlurred.Fits ∧ blurringDouble.Fits ∧ lastSharp.Fits ∧
      firstBlurred.sortOrder blurringDouble = .eq ∧ blurringDouble.sortOrder lastSharp = .eq ∧
      firstBlurred.sortOrder lastSharp = .gt :=
  ⟨fits_firstBlurred.1, fits_firstBlurred.2.2, fits_firstBlurred.2.1,
    by decide +kernel, by decide +kernel, by decide +kernel⟩

/-- The lesser integer, the double and the greater one stand in this order all the same. -/
theorem sortOrder_isLE_lastSharp :
    lastSharp.Fits ∧ blurringDouble.Fits ∧ firstBlurred.Fits ∧
      (lastSharp.sortOrder blurringDouble).isLE ∧ (blurringDouble.sortOrder firstBlurred).isLE ∧
      (lastSharp.sortOrder firstBlurred).isLE := by
  obtain ⟨hfirst, hlast, hdouble⟩ := fits_firstBlurred
  have hlow : (lastSharp.sortOrder blurringDouble).isLE := by decide +kernel
  have hhigh : (blurringDouble.sortOrder firstBlurred).isLE := by decide +kernel
  refine ⟨hlast, hdouble, hfirst, hlow, hhigh, ?_⟩
  refine (sortOrder_isLE_trans_iff hlast hdouble hfirst).2.2 ?_ hlow hhigh
  rintro ⟨x, z, n, hx, -, hz, hlt, -⟩
  cases hx
  cases hz
  exact absurd hlt (by decide)

end Json

end ODataEngine
