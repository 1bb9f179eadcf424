import ODataEngine.Proofs.RoundingTheorems

/-!
# The shortest decimal reads back

`Binary64.shortest` tries the grids of decreasing powers of ten until one of the two neighbours of
the double on a grid is in its interval. The last grid is finer than the interval
(`topPower_sub_le`), so the decimal that is found is always in it (`contains_shortest`), and any way
to write that decimal is read as the double (`ofDecimal_of_eq_shortest`).
-/

namespace ODataEngine.Binary64

/-- The number that a decimal writes. -/
def Decimal.toRat (d : Decimal) : ℚ := d.digits * 10 ^ d.power

/-! ## Grids -/

theorem onScale_pos (d : ℕ) (power exponent : ℤ) : 0 < (onScale d power exponent).2 :=
  Nat.mul_pos (Nat.pow_pos (by decide)) (Nat.pow_pos (by decide))

theorem onScale_div (d : ℕ) (power exponent : ℤ) :
    ((onScale d power exponent).1 : ℚ) / (onScale d power exponent).2
      = d * 10 ^ power / 2 ^ exponent := by
  have hten := pow_toNat_div_pow_toNat (by norm_num : (10 : ℚ) ≠ 0) power
  have htwo := pow_toNat_div_pow_toNat (by norm_num : (2 : ℚ) ≠ 0) exponent
  simp only [onScale, Nat.pow_eq, Nat.cast_mul, Nat.cast_pow, Nat.cast_ofNat]
  rw [← hten, ← htwo]
  field_simp

namespace Interval

variable (i : Interval)

theorem holds_iff (d : ℕ) (power : ℤ) : i.holds d power = true ↔ i.Contains (d * 10 ^ power) := by
  have hpos := onScale_pos d power i.exponent
  have hdiv := onScale_div d power i.exponent
  have hscale : (0 : ℚ) < 2 ^ i.exponent := by positivity
  unfold holds Contains
  generalize onScale d power i.exponent = nd at hpos hdiv ⊢
  obtain ⟨n, den⟩ := nd
  have hden : (0 : ℚ) < den := by exact_mod_cast hpos
  rw [eq_div_iff hscale.ne'] at hdiv
  simp only [← hdiv, mul_le_mul_iff_left₀ hscale, mul_lt_mul_iff_left₀ hscale, le_div_iff₀ hden,
    div_le_iff₀ hden, lt_div_iff₀ hden, div_lt_iff₀ hden, ← Nat.cast_mul, Nat.cast_le, Nat.cast_lt]
  cases i.closed <;> simp

/-- The value lies between a grid point and the next one. -/
theorem floorOn_bounds (power : ℤ) :
    (i.floorOn power : ℚ) * 10 ^ power ≤ i.value * 2 ^ i.exponent ∧
      (i.value : ℚ) * 2 ^ i.exponent < (i.floorOn power + 1) * 10 ^ power := by
  have hpos := onScale_pos 1 power i.exponent
  have hdiv := onScale_div 1 power i.exponent
  have hscale : (0 : ℚ) < 2 ^ i.exponent := by positivity
  unfold floorOn
  generalize onScale 1 power i.exponent = nd at hpos hdiv ⊢
  obtain ⟨n, den⟩ := nd
  have hden : (0 : ℚ) < den := by exact_mod_cast hpos
  rw [Nat.cast_one, one_mul, eq_div_iff hscale.ne', div_mul_eq_mul_div, div_eq_iff hden.ne'] at hdiv
  have hn : 0 < n := by
    have hten : (0 : ℚ) < 10 ^ power := by positivity
    have hn : (0 : ℚ) < n * 2 ^ i.exponent := by rw [hdiv]; positivity
    exact_mod_cast (pos_iff_pos_of_mul_pos hn).2 hscale
  have hle : ((i.value * den / n : ℕ) : ℚ) * n ≤ i.value * den := by
    exact_mod_cast Nat.div_mul_le_self (i.value * den) n
  have hlt : (i.value : ℚ) * den < ((i.value * den / n : ℕ) + 1) * n := by
    exact_mod_cast Nat.lt_mul_of_div_lt (Nat.lt_succ_self _) hn
  generalize ((i.value * den / n : ℕ) : ℚ) = q at hle hlt ⊢
  constructor
  · refine le_of_mul_le_mul_right ?_ hden
    calc q * 10 ^ power * den = q * n * 2 ^ i.exponent := by rw [mul_assoc, ← hdiv, mul_assoc]
      _ ≤ i.value * den * 2 ^ i.exponent := by gcongr
      _ = i.value * 2 ^ i.exponent * den := by ring
  · refine lt_of_mul_lt_mul_right ?_ hden.le
    calc (i.value : ℚ) * 2 ^ i.exponent * den = i.value * den * 2 ^ i.exponent := by ring
      _ < (q + 1) * n * 2 ^ i.exponent := by gcongr
      _ = (q + 1) * 10 ^ power * den := by rw [mul_assoc, hdiv, mul_assoc]

variable {i}

/-- On a grid as fine as the quarters of the interval, the greatest point not above the value is in
the interval. -/
theorem contains_floorOn (hlow : i.low + 1 ≤ i.value) (hhigh : i.value < i.high) {power : ℤ}
    (hfine : (10 : ℚ) ^ power ≤ 2 ^ i.exponent) :
    i.Contains (i.floorOn power * 10 ^ power) := by
  obtain ⟨hle, hlt⟩ := i.floorOn_bounds power
  have hscale : (0 : ℚ) < 2 ^ i.exponent := by positivity
  have hlow' : (i.low : ℚ) + 1 ≤ i.value := by exact_mod_cast hlow
  have hhigh' : (i.value : ℚ) < i.high := by exact_mod_cast hhigh
  have habove : i.low * 2 ^ i.exponent < i.floorOn power * (10 : ℚ) ^ power := by nlinarith
  have hbelow : i.floorOn power * (10 : ℚ) ^ power < i.high * 2 ^ i.exponent :=
    hle.trans_lt (by gcongr)
  unfold Contains
  split
  · exact ⟨habove.le, hbelow.le⟩
  · exact ⟨habove, hbelow⟩

/-- The first hit is in the interval, if the last of the grids is fine enough. -/
theorem contains_firstHit (hlow : i.low + 1 ≤ i.value) (hhigh : i.value < i.high) {count : ℕ}
    {power : ℤ} (hfine : (10 : ℚ) ^ (power - count) ≤ 2 ^ i.exponent) :
    i.Contains (i.firstHit power count).toRat := by
  induction count generalizing power with
  | zero =>
    rw [Nat.cast_zero, sub_zero] at hfine
    exact contains_floorOn hlow hhigh hfine
  | succ count ih =>
    unfold firstHit
    extract_lets d
    split
    · next hbelow habove =>
      split
      · exact (i.holds_iff _ _).1 habove
      · exact (i.holds_iff _ _).1 hbelow
    · next hbelow _ => exact (i.holds_iff _ _).1 hbelow
    · next _ habove => exact (i.holds_iff _ _).1 habove
    · refine ih ?_
      rw [sub_sub, add_comm 1]
      exact_mod_cast hfine

end Interval

/-! ## The finest grid -/

/-- A power of ten is at most a power of two if the logarithms say so, with 0.30103 for that of 2
and room for the error in the range of the exponents of doubles. -/
theorem ten_zpow_le_two_zpow {p e : ℤ} (hleast : -1076 ≤ e) (hgreatest : e ≤ 969)
    (h : 100000 * p ≤ 30103 * e - 344000) : (10 : ℚ) ^ p ≤ 2 ^ e := by
  have hbase : ∀ k m : ℕ, k ≠ 0 → k * p ≤ m * e → ((10 : ℚ) ^ m) ^ e ≤ (2 ^ k) ^ e →
      (10 : ℚ) ^ p ≤ 2 ^ e := by
    intro k m hk hexponent hbase
    refine le_of_pow_le_pow_left₀ hk (by positivity) ?_
    calc ((10 : ℚ) ^ p) ^ k = 10 ^ (k * p) := by rw [← zpow_natCast, ← zpow_mul, mul_comm]
      _ ≤ 10 ^ (m * e) := zpow_le_zpow_right₀ (by norm_num) hexponent
      _ = (10 ^ m) ^ e := by rw [zpow_mul, zpow_natCast]
      _ ≤ (2 ^ k) ^ e := hbase
      _ = (2 ^ e) ^ k := by rw [← zpow_natCast, ← zpow_natCast, ← zpow_mul, ← zpow_mul, mul_comm]
  -- a quotient below the logarithm of 2 for positive exponents, one above it for negative ones
  rcases le_or_gt 0 e with he | he
  · refine hbase 10 3 (by decide) (by push_cast; omega) ?_
    exact zpow_le_zpow_left₀ he (by norm_num) (by norm_num)
  · refine hbase 33 10 (by decide) (by push_cast; omega) ?_
    rw [← inv_le_inv₀ (by positivity) (by positivity), ← zpow_neg, ← zpow_neg]
    exact zpow_le_zpow_left₀ (by omega) (by norm_num) (by norm_num)

/-- Twenty-one powers below the first grid the points lie as close as the quarters of the
interval. -/
theorem topPower_sub_le (x : Binary64) :
    (10 : ℚ) ^ (x.interval.topPower - 21) ≤ 2 ^ x.interval.exponent := by
  obtain ⟨hleast, hgreatest⟩ := exponent_bounds x
  have hvalue : x.interval.value = 4 * x.significand := rfl
  have hexponent : x.interval.exponent = x.exponent - 2 := rfl
  have hlog : x.interval.value.log2 ≤ 54 := by
    rcases Nat.eq_zero_or_pos x.significand with hzero | hpos
    · rw [hvalue, hzero]
      decide
    · have hsmall := significand_lt x
      have hlt : x.interval.value.log2 < 55 := (Nat.log2_lt (by omega)).2 (by omega)
      omega
  refine ten_zpow_le_two_zpow (by omega) (by omega) ?_
  simp only [Interval.topPower]
  omega

/-! ## The shortest decimal -/

/-- Taking off zeros at the end keeps the number. -/
theorem Decimal.toRat_strip (d : Decimal) (count : ℕ) : (d.strip count).toRat = d.toRat := by
  induction count generalizing d with
  | zero => rfl
  | succ count ih =>
    unfold strip
    split
    · next hzero =>
      rw [Bool.and_eq_true, beq_iff_eq] at hzero
      rw [ih]
      have hdigits : (d.digits : ℚ) = (d.digits / 10 : ℕ) * 10 := by
        exact_mod_cast (Nat.div_mul_cancel (Nat.dvd_of_mod_eq_zero hzero.2)).symm
      rw [toRat, toRat, hdigits, zpow_add_one₀ (by norm_num)]
      ring
    · rfl

/-- The shortest decimal of a double is in its interval. -/
theorem contains_shortest {x : Binary64} (hx : x.rank ≠ 0) :
    x.interval.Contains x.shortest.toRat := by
  have hpos := significand_pos x hx
  have hrank : (x.rank == 0) = false := by simpa using hx
  have hlow : x.interval.low + 1 ≤ x.interval.value := by
    simp only [interval]
    split <;> omega
  have hhigh : x.interval.value < x.interval.high := by
    show 4 * x.significand < 4 * x.significand + 2
    omega
  rw [shortest, hrank, if_neg Bool.false_ne_true, Decimal.toRat_strip]
  exact Interval.contains_firstHit hlow hhigh (topPower_sub_le x)

/-! ## Reading decimals -/

/-- A positive number has as many digits as its power of ten says. -/
theorem ten_pow_length_toDigits {n : ℕ} (hn : 0 < n) :
    10 ^ ((Nat.toDigits 10 n).length - 1) ≤ n ∧ n < 10 ^ (Nat.toDigits 10 n).length := by
  have hpos : 0 < (Nat.toDigits 10 n).length := Nat.length_toDigits_pos
  refine ⟨?_, (Nat.length_toDigits_le_iff (by decide) hpos).1 le_rfl⟩
  rcases Nat.eq_zero_or_pos ((Nat.toDigits 10 n).length - 1) with hone | hmore
  · rw [hone]
    exact hn
  · refine not_lt.1 fun hlt => ?_
    have hle := (Nat.length_toDigits_le_iff (by decide) hmore).2 hlt
    omega

/-- The numbers in the interval of a double other than zero are far from the powers of ten at which
a decimal is known to be too small or too large. -/
theorem Interval.Contains.ten_bounds {x : Binary64} (hx : x.rank ≠ 0) {v : ℚ}
    (h : x.interval.Contains v) : (10 : ℚ) ^ (-401 : ℤ) ≤ v ∧ v < 10 ^ (400 : ℤ) := by
  obtain ⟨hlow, hhigh⟩ := h.bounds
  obtain ⟨hleast, hgreatest⟩ := exponent_bounds x
  have hpos := significand_pos x hx
  have hsmall := significand_lt x
  constructor
  · have htwo : (2 : ℚ) ≤ x.interval.low := by
      have htwo : 2 ≤ x.interval.low := by
        simp only [interval]
        split <;> omega
      exact_mod_cast htwo
    calc (10 : ℚ) ^ (-401 : ℤ) ≤ 2 ^ (-1075 : ℤ) :=
          ten_zpow_le_two_zpow (by norm_num) (by norm_num) (by norm_num)
      _ = 2 * 2 ^ (-1076 : ℤ) := zpow_one_add₀ two_ne_zero (-1076)
      _ ≤ 2 * 2 ^ (x.exponent - 2) := by
          gcongr
          · norm_num
          · omega
      _ ≤ x.interval.low * 2 ^ (x.exponent - 2) := by gcongr
      _ ≤ v := hlow
  · have hle : (x.interval.high : ℚ) ≤ 2 ^ (55 : ℤ) := by
      have hle : x.interval.high ≤ 2 ^ 55 := by
        simp only [interval]
        omega
      exact_mod_cast hle
    have hpowers : 2 ^ 1024 < 10 ^ 400 := by decide +kernel
    calc v ≤ x.interval.high * 2 ^ (x.exponent - 2) := hhigh
      _ ≤ 2 ^ (55 : ℤ) * 2 ^ (969 : ℤ) := by
          gcongr
          · norm_num
          · omega
      _ = 2 ^ (1024 : ℤ) := (zpow_add₀ two_ne_zero _ _).symm
      _ < 10 ^ (400 : ℤ) := by exact_mod_cast hpowers

/-- A decimal in the interval of a double is read as that double. -/
theorem ofDecimal_of_contains {x : Binary64} (hx : x.rank ≠ 0) {digits : ℕ} {power : ℤ}
    (h : x.interval.Contains (digits * 10 ^ power)) (negative : Bool) :
    ofDecimal negative digits power = some ⟨negative, x.rank, x.rank_lt⟩ := by
  obtain ⟨hleast, hgreatest⟩ := h.ten_bounds hx
  have hten : (0 : ℚ) < 10 ^ power := by positivity
  have hdigits : 0 < digits := by
    have hpos : (0 : ℚ) < digits * 10 ^ power := lt_of_lt_of_le (by positivity) hleast
    exact_mod_cast (pos_iff_pos_of_mul_pos hpos).2 hten
  -- the number is not so small or large that its size alone decides
  obtain ⟨hlow, hhigh⟩ := ten_pow_length_toDigits hdigits
  have hlength : 0 < (Nat.toDigits 10 digits).length := Nat.length_toDigits_pos
  unfold ofDecimal
  generalize (Nat.toDigits 10 digits).length = length at *
  have hsmall : -400 ≤ (length : ℤ) + power := by
    have hlt : (-401 : ℤ) < length + power := by
      rw [← zpow_lt_zpow_iff_right₀ (by norm_num : (1 : ℚ) < 10), zpow_add₀ (by norm_num)]
      refine hleast.trans_lt (mul_lt_mul_of_pos_right ?_ hten)
      exact_mod_cast hhigh
    omega
  have hlarge : (length : ℤ) + power ≤ 400 := by
    have hlt : ((length - 1 : ℕ) : ℤ) + power < 400 := by
      rw [← zpow_lt_zpow_iff_right₀ (by norm_num : (1 : ℚ) < 10), zpow_add₀ (by norm_num)]
      refine lt_of_le_of_lt (mul_le_mul_of_nonneg_right ?_ hten.le) hgreatest
      exact_mod_cast hlow
    omega
  have hfraction : ((digits * Nat.pow 10 power.toNat : ℕ) : ℚ) / (Nat.pow 10 (-power).toNat : ℕ)
      = digits * 10 ^ power := by
    rw [← pow_toNat_div_pow_toNat (by norm_num : (10 : ℚ) ≠ 0) power]
    simp only [Nat.pow_eq, Nat.cast_mul, Nat.cast_pow, Nat.cast_ofNat, mul_div_assoc]
  extract_lets size
  rw [if_neg (by simp [size]; omega), if_neg (by omega)]
  exact ofRatio_of_contains hx (Nat.pow_pos (by decide)) (hfraction ▸ h) negative

/-- An integer of at most twenty digits is read as a fraction over one. -/
theorem ofDecimal_integer {n : ℕ} (hn : n < 10 ^ 20) (negative : Bool) :
    ofDecimal negative n 0 = ofRatio negative n 1 := by
  have hsize : (Nat.toDigits 10 n).length ≤ 20 :=
    (Nat.length_toDigits_le_iff (by decide) (by decide)).2 hn
  unfold ofDecimal
  extract_lets size
  by_cases hzero : n = 0
  · simp [hzero, ofRatio]
  · rw [if_neg (by simp [size]; omega), if_neg (by omega)]
    simp

/-- Every way to write the shortest decimal of a double is read as the double. -/
theorem ofDecimal_of_eq_shortest {x : Binary64} {digits : ℕ} {power : ℤ}
    (h : digits * 10 ^ power = x.shortest.toRat) : ofDecimal x.negative digits power = some x := by
  by_cases hx : x.rank = 0
  · have hshortest : x.shortest = ⟨0, 0⟩ := by
      rw [shortest, hx]
      rfl
    have hdigits : digits = 0 := by
      rw [hshortest, Decimal.toRat, Nat.cast_zero, zero_mul] at h
      have hten : (10 : ℚ) ^ power ≠ 0 := by positivity
      exact_mod_cast (mul_eq_zero.1 h).resolve_right hten
    rw [hdigits]
    obtain ⟨negative, rank, hrank⟩ := x
    cases hx
    rfl
  · exact ofDecimal_of_contains hx (h ▸ contains_shortest hx) x.negative

end ODataEngine.Binary64
