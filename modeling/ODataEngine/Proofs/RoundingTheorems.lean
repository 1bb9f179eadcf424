import Mathlib.Algebra.Order.Archimedean.Basic
import Mathlib.Algebra.Order.Field.Power
import Mathlib.Data.Rat.Floor
import Mathlib.Tactic.FieldSimp
import Mathlib.Tactic.Linarith
import Mathlib.Tactic.NormNum
import Mathlib.Tactic.Positivity
import ODataEngine.Number.Shortest

/-!
# Rounding to the nearest double

A fraction is rounded to a double in the one way that its interval says (`ofRatio_of_contains`): the
numbers of `x.interval` are those that lie nearer to `x` than to any other double, and of the two
ends only those of an even significand round to it. Rounding keeps the order of integers
(`signedRank_ofInt_mono`), though it may make two of them one.
-/

namespace ODataEngine.Binary64

/-! ## Fractions on a scale of two -/

/-- A power is the quotient of the powers of its positive and its negative part. -/
theorem pow_toNat_div_pow_toNat {b : ℚ} (hb : b ≠ 0) (e : ℤ) :
    b ^ e.toNat / b ^ (-e).toNat = b ^ e := by
  rw [← zpow_natCast, ← zpow_natCast, ← zpow_sub₀ hb]
  congr 1
  omega

theorem scaled_pos {num den : ℕ} (hden : 0 < den) (e : ℤ) : 0 < (scaled num den e).2 :=
  Nat.mul_pos hden (Nat.pow_pos (by decide))

theorem scaled_div (num den : ℕ) (e : ℤ) :
    ((scaled num den e).1 : ℚ) / (scaled num den e).2 = num / den / 2 ^ e := by
  have hpow := pow_toNat_div_pow_toNat (two_ne_zero : (2 : ℚ) ≠ 0) e
  simp only [scaled, Nat.pow_eq, Nat.cast_mul, Nat.cast_pow, Nat.cast_ofNat]
  rw [← hpow]
  field_simp

/-! ## The nearest integer -/

/-- The integer within half of a fraction is the one it is rounded to; an end goes to an even
one. -/
theorem roundHalfEven_eq {n d k : ℕ} (hd : 0 < d) (hlow : (k : ℚ) - 1 / 2 ≤ n / d)
    (hhigh : (n : ℚ) / d ≤ k + 1 / 2)
    (hodd : k % 2 = 1 → (k : ℚ) - 1 / 2 < n / d ∧ (n : ℚ) / d < k + 1 / 2) :
    roundHalfEven n d = k := by
  have hd' : (0 : ℚ) < d := by exact_mod_cast hd
  rw [le_div_iff₀ hd'] at hlow
  rw [div_le_iff₀ hd'] at hhigh
  rw [lt_div_iff₀ hd', div_lt_iff₀ hd'] at hodd
  have hdivide : (n : ℚ) = d * (n / d : ℕ) + (n % d : ℕ) := by exact_mod_cast (Nat.div_add_mod n d).symm
  have hrest : n % d < d := Nat.mod_lt n hd
  unfold roundHalfEven
  generalize n / d = q at hdivide ⊢
  generalize n % d = r at hdivide hrest ⊢
  have hrest' : (r : ℚ) < d := by exact_mod_cast hrest
  have hle : k ≤ q + 1 := by
    by_contra hgt
    have hk : (q : ℚ) + 2 ≤ k := by exact_mod_cast (by omega : q + 2 ≤ k)
    nlinarith
  have hge : q ≤ k := by
    by_contra hlt
    have hk : (k : ℚ) + 1 ≤ q := by exact_mod_cast (by omega : k + 1 ≤ q)
    nlinarith
  rcases (by omega : k = q ∨ k = q + 1) with rfl | rfl
  · have hhalf : 2 * r ≤ d := by
      have hhalf : (2 : ℚ) * r ≤ d := by linarith
      exact_mod_cast hhalf
    have hstrict : k % 2 = 1 → 2 * r < d := by
      intro hk
      have hhalf : (2 : ℚ) * r < d := by linarith [(hodd hk).2]
      exact_mod_cast hhalf
    refine if_neg ?_
    simp only [Bool.or_eq_true, decide_eq_true_eq, Bool.and_eq_true, beq_iff_eq]
    omega
  · push_cast at hlow hodd
    have hhalf : d ≤ 2 * r := by
      have hhalf : (d : ℚ) ≤ 2 * r := by linarith
      exact_mod_cast hhalf
    have hstrict : (q + 1) % 2 = 1 → d < 2 * r := by
      intro hk
      have hhalf : (d : ℚ) < 2 * r := by linarith [(hodd hk).1]
      exact_mod_cast hhalf
    refine if_pos ?_
    simp only [Bool.or_eq_true, decide_eq_true_eq, Bool.and_eq_true, beq_iff_eq]
    omega

/-! ## The exponent -/

theorem two_zpow_lt_iff {a b : ℤ} : (2 : ℚ) ^ a < 2 ^ b ↔ a < b :=
  zpow_lt_zpow_iff_right₀ (by norm_num)

/-- A positive integer lies between the powers of two that its logarithm names. -/
theorem two_zpow_log2 {n : ℕ} (hn : 0 < n) :
    (2 : ℚ) ^ (n.log2 : ℤ) ≤ n ∧ (n : ℚ) < 2 ^ (n.log2 + 1 : ℤ) := by
  have hlow := Nat.log2_self_le (Nat.pos_iff_ne_zero.1 hn)
  have hhigh : n < 2 ^ (n.log2 + 1) := Nat.lt_log2_self
  constructor
  · rw [zpow_natCast]
    exact_mod_cast hlow
  · rw [← Nat.cast_succ, zpow_natCast]
    exact_mod_cast hhigh

/-- The power of two at which a fraction has a significand of 53 bits is its exponent, unless that
is below the least. -/
theorem exponentOf_eq {num den : ℕ} (hnum : 0 < num) (hden : 0 < den) {e : ℤ}
    (hlow : 2 ^ 52 * 2 ^ e ≤ (num : ℚ) / den) (hhigh : (num : ℚ) / den < 2 ^ 53 * 2 ^ e) :
    exponentOf num den = max (-1074) e := by
  have hden' : (0 : ℚ) < den := by exact_mod_cast hden
  have htwo : (2 : ℚ) ≠ 0 := two_ne_zero
  -- the logarithms tell the exponent up to one
  obtain ⟨hnumLow, hnumHigh⟩ := two_zpow_log2 hnum
  obtain ⟨hdenLow, hdenHigh⟩ := two_zpow_log2 hden
  have hupper : 52 + e + den.log2 < num.log2 + 1 := by
    rw [← two_zpow_lt_iff, zpow_add₀ htwo, zpow_add₀ htwo]
    calc (2 : ℚ) ^ (52 : ℤ) * 2 ^ e * 2 ^ (den.log2 : ℤ)
        ≤ 2 ^ (52 : ℤ) * 2 ^ e * den := by gcongr
      _ ≤ num := (le_div_iff₀ hden').1 hlow
      _ < _ := hnumHigh
  have hlower : (num.log2 : ℤ) < 53 + e + (den.log2 + 1) := by
    rw [← two_zpow_lt_iff, zpow_add₀ htwo, zpow_add₀ htwo]
    calc (2 : ℚ) ^ (num.log2 : ℤ) ≤ num := hnumLow
      _ < 2 ^ (53 : ℤ) * 2 ^ e * den := (div_lt_iff₀ hden').1 hhigh
      _ ≤ _ := by gcongr
  unfold exponentOf
  extract_lets guess
  have hpos := @scaled_pos num den hden guess
  have hdiv := scaled_div num den guess
  generalize scaled num den guess = nd at hpos hdiv ⊢
  obtain ⟨n, d⟩ := nd
  have hsmall : n / d < Nat.pow 2 52 ↔ (num : ℚ) / den / 2 ^ guess < 2 ^ 52 := by
    have hd : (0 : ℚ) < d := by exact_mod_cast hpos
    rw [← hdiv, div_lt_iff₀ hd, Nat.div_lt_iff_lt_mul hpos]
    exact_mod_cast Iff.rfl
  have hscale : (0 : ℚ) < 2 ^ guess := by positivity
  rw [div_lt_iff₀ hscale] at hsmall
  rcases (by omega : guess = e ∨ guess = e + 1) with hguess | hguess
  · rw [hguess] at hsmall
    simp only [hsmall, not_lt.2 hlow, if_false, hguess]
  · rw [hguess, zpow_add_one₀ htwo] at hsmall
    have hbelow : (num : ℚ) / den < 2 ^ 52 * (2 ^ e * 2) := by linarith
    simp only [hsmall, hbelow, if_true, hguess, add_sub_cancel_right]

/-- Every positive fraction has a significand of 53 bits at some power of two. -/
theorem exists_exponentOf_eq {num den : ℕ} (hnum : 0 < num) (hden : 0 < den) :
    ∃ e : ℤ, 2 ^ 52 * 2 ^ e ≤ (num : ℚ) / den ∧ (num : ℚ) / den < 2 ^ 53 * 2 ^ e ∧
      exponentOf num den = max (-1074) e := by
  have hnum' : (0 : ℚ) < num := by exact_mod_cast hnum
  have hden' : (0 : ℚ) < den := by exact_mod_cast hden
  obtain ⟨k, hlow, hhigh⟩ := exists_mem_Ico_zpow (div_pos hnum' hden') (one_lt_two (α := ℚ))
  have hlow : 2 ^ 52 * 2 ^ (k - 52) ≤ (num : ℚ) / den := by
    calc (2 : ℚ) ^ (52 : ℤ) * 2 ^ (k - 52) = 2 ^ k := by
          rw [← zpow_add₀ two_ne_zero, add_sub_cancel]
      _ ≤ _ := hlow
  have hhigh : (num : ℚ) / den < 2 ^ 53 * 2 ^ (k - 52) := by
    calc (num : ℚ) / den < 2 ^ (k + 1) := hhigh
      _ = 2 ^ (53 : ℤ) * 2 ^ (k - 52) := by
          rw [← zpow_add₀ two_ne_zero]
          congr 1
          ring
  exact ⟨k - 52, hlow, hhigh, exponentOf_eq hnum hden hlow hhigh⟩

/-- Below the normal doubles the exponent is the least. -/
theorem exponentOf_eq_least {num den : ℕ} (hnum : 0 < num) (hden : 0 < den)
    (hhigh : (num : ℚ) / den < 2 ^ 53 * 2 ^ (-1074 : ℤ)) : exponentOf num den = -1074 := by
  obtain ⟨e, hlow, -, he⟩ := exists_exponentOf_eq hnum hden
  have hsmall : 52 + e < 53 + -1074 := by
    rw [← two_zpow_lt_iff, zpow_add₀ two_ne_zero, zpow_add₀ two_ne_zero]
    exact hlow.trans_lt hhigh
  omega

/-! ## Ranks -/

section

variable (x : Binary64)

theorem significand_lt : x.significand < 2 ^ 53 := by
  unfold significand
  simp only [Nat.pow_eq]
  split <;> omega

theorem exponent_bounds : -1074 ≤ x.exponent ∧ x.exponent ≤ 971 := by
  have hrank := x.rank_lt
  unfold exponent
  simp only [Nat.pow_eq]
  split <;> omega

/-- The significand has 53 bits, or the exponent is the least. -/
theorem normal_or_least : 2 ^ 52 ≤ x.significand ∨ x.exponent = -1074 := by
  unfold significand exponent
  simp only [Nat.pow_eq]
  split <;> omega

theorem significand_pos (h : x.rank ≠ 0) : 0 < x.significand := by
  unfold significand
  simp only [Nat.pow_eq]
  split <;> omega

theorem rank_eq : x.rank = (x.exponent + 1074).toNat * 2 ^ 52 + x.significand := by
  unfold significand exponent
  simp only [Nat.pow_eq]
  split <;> omega

end

/-! ## The interval of a double -/

/-- The number is in the interval. -/
def Interval.Contains (i : Interval) (v : ℚ) : Prop :=
  if i.closed then i.low * 2 ^ i.exponent ≤ v ∧ v ≤ i.high * 2 ^ i.exponent
  else i.low * 2 ^ i.exponent < v ∧ v < i.high * 2 ^ i.exponent

theorem Interval.Contains.bounds {i : Interval} {v : ℚ} (h : i.Contains v) :
    i.low * 2 ^ i.exponent ≤ v ∧ v ≤ i.high * 2 ^ i.exponent := by
  unfold Contains at h
  split at h
  · exact h
  · exact ⟨h.1.le, h.2.le⟩

/-- In the unit of the last place the interval reaches half a unit to either side, and a quarter
below a power of two. -/
theorem Interval.Contains.div_bounds {x : Binary64} (hx : x.rank ≠ 0) {v : ℚ}
    (h : x.interval.Contains v) {u : ℚ} (hu : u = v / 2 ^ x.exponent) :
    ((x.significand : ℚ) - 1 / 2 ≤ u ∧ u ≤ x.significand + 1 / 2) ∧
      (x.significand % 2 = 1 → (x.significand : ℚ) - 1 / 2 < u ∧ u < x.significand + 1 / 2) ∧
      (x.significand = 2 ^ 52 → -1074 < x.exponent → (x.significand : ℚ) - 1 / 4 ≤ u) := by
  have hpos := significand_pos x hx
  have hscale : (0 : ℚ) < 2 ^ (x.exponent - 2) := by positivity
  have hv : v = 4 * u * 2 ^ (x.exponent - 2) := by
    rw [hu, zpow_sub₀ two_ne_zero]
    field_simp
    norm_num
  have hlow : (4 * x.significand - 2 : ℕ) = (4 * x.significand - 2 : ℚ) := by
    rw [Nat.cast_sub (by omega)]
    norm_num
  have hlow' : (4 * x.significand - 1 : ℕ) = (4 * x.significand - 1 : ℚ) := by
    rw [Nat.cast_sub (by omega)]
    norm_num
  unfold Interval.Contains interval at h
  rw [hv] at h
  simp only [mul_le_mul_iff_left₀ hscale, mul_lt_mul_iff_left₀ hscale, Nat.pow_eq] at h
  generalize hend : (if x.significand == 2 ^ 52 && decide (x.exponent > -1074)
    then 4 * x.significand - 1 else 4 * x.significand - 2) = low at h
  have hhalf : (4 * x.significand - 2 : ℚ) ≤ low := by
    rw [← hlow]
    exact_mod_cast (by split at hend <;> omega : 4 * x.significand - 2 ≤ low)
  have hquarter : x.significand = 2 ^ 52 → -1074 < x.exponent →
      (4 * x.significand - 1 : ℚ) = low := by
    intro hm he
    rw [← hlow', ← hend, if_pos (by simp [hm, he])]
  push_cast at h
  refine ⟨?_, fun hm => ?_, fun hm he => ?_⟩
  · split at h <;> constructor <;> linarith
  · rw [if_neg (by simp [hm])] at h
    constructor <;> linarith
  · have hsame := hquarter hm he
    split at h <;> linarith

/-- A fraction with a known exponent is rounded to the double of the integer nearest to its
significand. -/
theorem ofRatio_eq {num den : ℕ} (hnum : 0 < num) (hden : 0 < den) {e : ℤ} {k : ℕ}
    (he : exponentOf num den = e) (hlow : (k : ℚ) - 1 / 2 ≤ num / den / 2 ^ e)
    (hhigh : (num : ℚ) / den / 2 ^ e ≤ k + 1 / 2)
    (hodd : k % 2 = 1 →
      (k : ℚ) - 1 / 2 < num / den / 2 ^ e ∧ (num : ℚ) / den / 2 ^ e < k + 1 / 2)
    {x : Binary64} (hrank : x.rank = (e + 1074).toNat * 2 ^ 52 + k) (negative : Bool) :
    ofRatio negative num den = some ⟨negative, x.rank, x.rank_lt⟩ := by
  have hround : roundHalfEven (scaled num den e).1 (scaled num den e).2 = k := by
    rw [← scaled_div] at hlow hhigh hodd
    exact roundHalfEven_eq (scaled_pos hden e) hlow hhigh hodd
  have hne : (num == 0) = false := by simpa using hnum.ne'
  unfold ofRatio
  rw [hne, if_neg Bool.false_ne_true]
  simp only [he, hround, Nat.pow_eq]
  rw [dif_pos (hrank ▸ x.rank_lt)]
  simp only [hrank]

/-- A fraction just below a power of two has the exponent below and is rounded up to the power. -/
theorem ofRatio_eq_of_below {num den : ℕ} (hnum : 0 < num) (hden : 0 < den) {e : ℤ}
    (hleast : -1074 < e) (hlow : (2 : ℚ) ^ 52 - 1 / 4 ≤ num / den / 2 ^ e)
    (hhigh : (num : ℚ) / den / 2 ^ e < 2 ^ 52) {x : Binary64}
    (hrank : x.rank = (e + 1074).toNat * 2 ^ 52 + 2 ^ 52) (negative : Bool) :
    ofRatio negative num den = some ⟨negative, x.rank, x.rank_lt⟩ := by
  have hscale : (0 : ℚ) < 2 ^ (e - 1) := by positivity
  have hdouble : (num : ℚ) / den / 2 ^ (e - 1) = 2 * (num / den / 2 ^ e) := by
    rw [zpow_sub_one₀ two_ne_zero]
    field_simp
  have hnext : x.rank = (e - 1 + 1074).toNat * 2 ^ 52 + 2 ^ 53 := by
    have hexponent : (e + 1074).toNat = (e - 1 + 1074).toNat + 1 := by omega
    rw [hrank, hexponent]
    ring
  have he : exponentOf num den = e - 1 := by
    rw [exponentOf_eq hnum hden (e := e - 1), max_eq_right (by omega)]
    · rw [← le_div_iff₀ hscale, hdouble]
      linarith
    · rw [← div_lt_iff₀ hscale, hdouble]
      linarith
  apply ofRatio_eq hnum hden he _ _ _ hnext negative
  · rw [hdouble]
    push_cast
    linarith
  · rw [hdouble]
    push_cast
    linarith
  · exact fun hodd => absurd hodd (by norm_num)

/-- The fractions in the interval of a double are rounded to that double. -/
theorem ofRatio_of_contains {x : Binary64} (hx : x.rank ≠ 0) {num den : ℕ} (hden : 0 < den)
    (h : x.interval.Contains (num / den)) (negative : Bool) :
    ofRatio negative num den = some ⟨negative, x.rank, x.rank_lt⟩ := by
  obtain ⟨hbounds, hodd, hquarter⟩ := h.div_bounds hx rfl
  have hpos := significand_pos x hx
  have hsmall := significand_lt x
  have hleast := (exponent_bounds x).1
  have hnormal := normal_or_least x
  have hrank := rank_eq x
  generalize x.significand = m at *
  generalize x.exponent = e at *
  have hscale : (0 : ℚ) < 2 ^ e := by positivity
  have hpos' : (1 : ℚ) ≤ m := by exact_mod_cast hpos
  have hsmall' : (m : ℚ) + 1 ≤ 2 ^ 53 := by exact_mod_cast hsmall
  have hnum : 0 < num := by
    have hv : (0 : ℚ) < num / den := (div_pos_iff_of_pos_right hscale).1 (by linarith)
    have hden' : (0 : ℚ) < den := by exact_mod_cast hden
    exact_mod_cast (div_pos_iff_of_pos_right hden').1 hv
  by_cases hfull : e = -1074 ∨ (2 : ℚ) ^ 52 ≤ num / den / 2 ^ e
  · -- the fraction has the exponent of the double
    have hbelow : (num : ℚ) / den < 2 ^ 53 * 2 ^ e := (div_lt_iff₀ hscale).1 (by linarith)
    have he : exponentOf num den = e := by
      rcases hfull with rfl | hfull
      · exact exponentOf_eq_least hnum hden hbelow
      · rw [exponentOf_eq hnum hden ((le_div_iff₀ hscale).1 hfull) hbelow, max_eq_right hleast]
    exact ofRatio_eq hnum hden he hbounds.1 hbounds.2 hodd hrank negative
  · -- the double is a power of two, and the fraction is in the quarter below it
    rw [not_or, not_le] at hfull
    obtain ⟨hne, hlow⟩ := hfull
    have hm : m = 2 ^ 52 := by
      have hle : (m : ℚ) < 2 ^ 52 + 1 := by linarith
      have hle : m < 2 ^ 52 + 1 := by exact_mod_cast hle
      omega
    have hlarge : -1074 < e := by omega
    have hclose := hquarter hm hlarge
    rw [hm] at hclose hrank
    push_cast at hclose
    exact ofRatio_eq_of_below hnum hden hlarge hclose hlow hrank negative

/-! ## Overflow -/

theorem roundHalfEven_le (num den : ℕ) : roundHalfEven num den ≤ num / den + 1 := by
  unfold roundHalfEven
  extract_lets q r
  split <;> omega

/-- A fraction that is well below the greatest double is rounded to some double. -/
theorem exists_ofRatio_eq {num den : ℕ} (hden : 0 < den)
    (h : (num : ℚ) / den < 2 ^ (1023 : ℤ)) (negative : Bool) :
    ∃ x, ofRatio negative num den = some x := by
  rcases Nat.eq_zero_or_pos num with rfl | hnum
  · exact ⟨_, rfl⟩
  obtain ⟨g, hlow, hhigh, he⟩ := exists_exponentOf_eq hnum hden
  have hg : 52 + g < 1023 := by
    rw [← two_zpow_lt_iff, zpow_add₀ two_ne_zero]
    exact hlow.trans_lt h
  have hfits : (num : ℚ) / den / 2 ^ exponentOf num den < 2 ^ 53 := by
    rw [div_lt_iff₀ (by positivity)]
    refine hhigh.trans_le ?_
    gcongr
    · norm_num
    · omega
  have hpos := @scaled_pos num den hden (exponentOf num den)
  rw [← scaled_div, div_lt_iff₀ (by exact_mod_cast hpos)] at hfits
  have hquotient : (scaled num den (exponentOf num den)).1
      / (scaled num den (exponentOf num den)).2 < 2 ^ 53 := by
    rw [Nat.div_lt_iff_lt_mul hpos]
    exact_mod_cast hfits
  have hround := roundHalfEven_le (scaled num den (exponentOf num den)).1
    (scaled num den (exponentOf num den)).2
  have hne : (num == 0) = false := by simpa using hnum.ne'
  unfold ofRatio
  rw [hne, if_neg Bool.false_ne_true]
  simp only [Nat.pow_eq]
  exact ⟨_, dif_pos (by omega)⟩

/-! ## Rounding keeps the order -/

/-- Of two fractions with one denominator the greater is rounded to no smaller integer. -/
theorem roundHalfEven_mono {m n : ℕ} (h : m ≤ n) (d : ℕ) :
    roundHalfEven m d ≤ roundHalfEven n d := by
  have hdiv : m / d ≤ n / d := Nat.div_le_div_right h
  have hm := Nat.div_add_mod m d
  have hn := Nat.div_add_mod n d
  unfold roundHalfEven
  extract_lets q r q' r'
  rcases hdiv.lt_or_eq with hlt | heq
  · -- a quotient that is rounded up comes to the next one at most
    split <;> split <;> omega
  · have hrest : r ≤ r' := by
      rw [← heq] at hn
      omega
    have hq : q = q' := heq
    simp only [Bool.or_eq_true, Bool.and_eq_true, decide_eq_true_eq, beq_iff_eq, hq]
    split <;> split <;> omega

/-- The significand that a fraction is rounded to has at most 53 bits, or is the power above; it has
53 bits unless the exponent is the least. -/
theorem roundHalfEven_scaled_bounds {num den : ℕ} (hnum : 0 < num) (hden : 0 < den) :
    let nd := scaled num den (exponentOf num den)
    roundHalfEven nd.1 nd.2 ≤ 2 ^ 53 ∧
      (-1074 < exponentOf num den → 2 ^ 52 ≤ roundHalfEven nd.1 nd.2) := by
  obtain ⟨e, hlow, hhigh, he⟩ := exists_exponentOf_eq hnum hden
  have hd := @scaled_pos num den hden (exponentOf num den)
  have hdiv := scaled_div num den (exponentOf num den)
  generalize scaled num den (exponentOf num den) = nd at hd hdiv ⊢
  obtain ⟨n, d⟩ := nd
  dsimp only at hd hdiv ⊢
  have hd' : (0 : ℚ) < d := by exact_mod_cast hd
  have hscale : (0 : ℚ) < 2 ^ exponentOf num den := by positivity
  constructor
  · have hfits : (num : ℚ) / den / 2 ^ exponentOf num den < 2 ^ 53 := by
      rw [div_lt_iff₀ hscale]
      refine hhigh.trans_le ?_
      gcongr
      · norm_num
      · omega
    rw [← hdiv, div_lt_iff₀ hd'] at hfits
    have hquotient : n / d < 2 ^ 53 := by
      rw [Nat.div_lt_iff_lt_mul hd]
      exact_mod_cast hfits
    have hround := roundHalfEven_le n d
    omega
  · intro hleast
    have hexponent : exponentOf num den = e := by omega
    rw [hexponent] at hdiv hscale
    have hfull : (2 : ℚ) ^ 52 ≤ n / d := by
      rw [hdiv, le_div_iff₀ hscale]
      exact hlow
    rw [le_div_iff₀ hd'] at hfull
    have hquotient : 2 ^ 52 ≤ n / d := by
      rw [Nat.le_div_iff_mul_le hd]
      exact_mod_cast hfull
    have hround : n / d ≤ roundHalfEven n d := by
      unfold roundHalfEven
      extract_lets q r
      split <;> omega
    omega

theorem exponentOf_mono {m n den : ℕ} (hm : 0 < m) (h : m ≤ n) (hden : 0 < den) :
    exponentOf m den ≤ exponentOf n den := by
  obtain ⟨e, hlow, -, he⟩ := exists_exponentOf_eq hm hden
  obtain ⟨e', -, hhigh, he'⟩ := exists_exponentOf_eq (hm.trans_le h) hden
  have hlt : 52 + e < 53 + e' := by
    rw [← two_zpow_lt_iff, zpow_add₀ two_ne_zero, zpow_add₀ two_ne_zero]
    refine hlow.trans_lt (lt_of_le_of_lt ?_ hhigh)
    gcongr
  omega

theorem rank_of_ofRatio {num den : ℕ} (hnum : 0 < num) {negative : Bool} {x : Binary64}
    (h : ofRatio negative num den = some x) :
    x.negative = negative ∧ x.rank = (exponentOf num den + 1074).toNat * 2 ^ 52 +
      roundHalfEven (scaled num den (exponentOf num den)).1
        (scaled num den (exponentOf num den)).2 := by
  have hne : (num == 0) = false := by simpa using hnum.ne'
  unfold ofRatio at h
  rw [hne, if_neg Bool.false_ne_true] at h
  simp only [Nat.pow_eq] at h
  split at h
  · cases h
    exact ⟨rfl, rfl⟩
  · cases h

/-- Of two fractions with one denominator the greater is rounded to no smaller double. -/
theorem rank_mono {m n den : ℕ} (hmn : m ≤ n) (hden : 0 < den) {negative : Bool} {x y : Binary64}
    (hx : ofRatio negative m den = some x) (hy : ofRatio negative n den = some y) :
    x.rank ≤ y.rank := by
  rcases Nat.eq_zero_or_pos m with rfl | hm
  · have hzero : some ⟨negative, 0, by decide⟩ = some x := hx
    cases hzero
    exact Nat.zero_le _
  obtain ⟨-, hx⟩ := rank_of_ofRatio hm hx
  obtain ⟨-, hy⟩ := rank_of_ofRatio (hm.trans_le hmn) hy
  have hexponents := exponentOf_mono hm hmn hden
  have hsmall := (roundHalfEven_scaled_bounds hm hden).1
  have hfull := (roundHalfEven_scaled_bounds (hm.trans_le hmn) hden).2
  have hleast : -1074 ≤ exponentOf m den := le_max_left _ _
  rw [hx, hy]
  rcases hexponents.lt_or_eq with hlt | heq
  · -- a significand that is rounded up to the next power is the least one of that
    have hfull := hfull (by omega)
    have hstep : (exponentOf m den + 1074).toNat + 1 ≤ (exponentOf n den + 1074).toNat := by omega
    omega
  · rw [heq]
    have hscaled : (scaled m den (exponentOf n den)).1 ≤ (scaled n den (exponentOf n den)).1 :=
      Nat.mul_le_mul_right _ hmn
    have hround := roundHalfEven_mono hscaled (scaled n den (exponentOf n den)).2
    exact Nat.add_le_add_left hround _

/-- Of two integers the greater has no smaller double. -/
theorem signedRank_ofInt_mono {m n : ℤ} (hmn : m ≤ n) (hm : -2 ^ 64 ≤ m) (hn : n ≤ 2 ^ 64) :
    (ofInt m).signedRank ≤ (ofInt n).signedRank := by
  have hfits (k : ℤ) (hlow : -2 ^ 64 ≤ k) (hhigh : k ≤ 2 ^ 64) :
      ∃ x, ofRatio (decide (k < 0)) k.natAbs 1 = some x ∧ ofInt k = x := by
    have hsmall : ((k.natAbs : ℕ) : ℚ) / (1 : ℕ) < 2 ^ (1023 : ℤ) := by
      have hle : k.natAbs ≤ 2 ^ 64 := by omega
      have hle : (k.natAbs : ℚ) ≤ 2 ^ (64 : ℤ) := by exact_mod_cast hle
      rw [Nat.cast_one, div_one]
      exact hle.trans_lt (two_zpow_lt_iff.2 (by decide))
    obtain ⟨x, hx⟩ := exists_ofRatio_eq Nat.one_pos hsmall (decide (k < 0))
    exact ⟨x, hx, by rw [ofInt, hx, Option.getD_some]⟩
  obtain ⟨x, hx, hmx⟩ := hfits m hm (hmn.trans hn)
  obtain ⟨y, hy, hny⟩ := hfits n (hm.trans hmn) hn
  rw [hmx, hny]
  have hsign {k : ℤ} {z : Binary64} (h : ofRatio (decide (k < 0)) k.natAbs 1 = some z) :
      z.signedRank = if k < 0 then -(z.rank : ℤ) else z.rank := by
    rcases Nat.eq_zero_or_pos k.natAbs with hzero | hpos
    · obtain rfl := Int.natAbs_eq_zero.1 hzero
      cases h
      rfl
    · rw [signedRank, (rank_of_ofRatio hpos h).1]
      simp only [decide_eq_true_eq]
  rw [hsign hx, hsign hy]
  by_cases hm' : m < 0
  · by_cases hn' : n < 0
    · -- the magnitudes of negative numbers stand the other way round
      rw [if_pos hm', if_pos hn']
      simp only [hm', hn'] at hx hy
      have hrank := rank_mono (by omega) Nat.one_pos hy hx
      omega
    · rw [if_pos hm', if_neg hn']
      omega
  · rw [if_neg hm', if_neg (by omega)]
    have hn' : ¬ n < 0 := by omega
    simp only [hm', hn'] at hx hy
    have hrank := rank_mono (by omega) Nat.one_pos hx hy
    omega

end ODataEngine.Binary64
