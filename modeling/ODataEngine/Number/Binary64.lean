/-!
# Finite binary64 numbers

A finite double is its sign and its rank: how many doubles lie between it and zero. Rank 0 is zero,
rank `2 ^ 52` the smallest normal number, and the order of magnitudes is the order of ranks, so
comparing doubles is comparing integers. Every operation rounds an exact quotient to the nearest
double, an exact half to the neighbour with an even significand.
-/

namespace ODataEngine

/-- A finite double. Zero has both signs. -/
structure Binary64 where
  negative : Bool
  rank : Nat
  rank_lt : rank < 0x7FF0000000000000
deriving DecidableEq

namespace Binary64

/-- Positive zero. -/
def zero : Binary64 := ⟨false, 0, by decide⟩

/-- The same magnitude with the other sign. -/
def neg (x : Binary64) : Binary64 := { x with negative := !x.negative }

/-! ## Magnitudes -/

/-- The integer of the magnitude `significand * 2 ^ exponent`; below `2 ^ 53`. -/
def significand (x : Binary64) : Nat :=
  if x.rank < Nat.pow 2 52 then x.rank else Nat.pow 2 52 + x.rank % Nat.pow 2 52

/-- The power of two of the magnitude `significand * 2 ^ exponent`; at least -1074. -/
def exponent (x : Binary64) : Int :=
  if x.rank < Nat.pow 2 52 then -1074 else (x.rank / Nat.pow 2 52 : Nat) - 1075

/-- The magnitude as a numerator over a denominator. -/
def ratio (x : Binary64) : Nat × Nat :=
  (x.significand * Nat.pow 2 x.exponent.toNat, Nat.pow 2 (-x.exponent).toNat)

/-! ## Order -/

/-- The rank with its sign. Both zeros have 0. -/
def signedRank (x : Binary64) : Int := if x.negative then -(x.rank : Int) else x.rank

/-- The numeric order; the two zeros are equal in it. -/
def order (x y : Binary64) : Ordering := compare x.signedRank y.signedRank

/-! ## Rounding -/

/-- The integer nearest to `num / den`, of two the even one. -/
def roundHalfEven (num den : Nat) : Nat :=
  let q := num / den
  let r := num % den
  if 2 * r > den || (2 * r == den && q % 2 == 1) then q + 1 else q

/-- `num / den` over `2 ^ e`, as a fraction. -/
def scaled (num den : Nat) (e : Int) : Nat × Nat :=
  (num * Nat.pow 2 (-e).toNat, den * Nat.pow 2 e.toNat)

/-- The power of two at which `num / den` has a significand of 53 bits, or fewer at the least
power -1074. -/
def exponentOf (num den : Nat) : Int :=
  -- the quotient lies between 2 ^ 51 and 2 ^ 53 there, so the guess is at most one too high
  let guess : Int := (num.log2 : Int) - den.log2 - 52
  let (n, d) := scaled num den guess
  max (-1074) (if n / d < Nat.pow 2 52 then guess - 1 else guess)

/-- The double nearest to `num / den`, none if it is beyond the greatest. -/
def ofRatio (negative : Bool) (num den : Nat) : Option Binary64 :=
  if num == 0 then some ⟨negative, 0, by decide⟩
  else
    let e := exponentOf num den
    let (n, d) := scaled num den e
    -- a significand rounded up to 2 ^ 53 is the next power: ranks count on across it
    let rank := (e + 1074).toNat * Nat.pow 2 52 + roundHalfEven n d
    if h : rank < 0x7FF0000000000000 then some ⟨negative, rank, h⟩ else none

/-- The double nearest to `digits * 10 ^ power`, none if it is beyond the greatest. Far outside the
range of doubles the answer is known without the power. -/
def ofDecimal (negative : Bool) (digits : Nat) (power : Int) : Option Binary64 :=
  let size := (Nat.toDigits 10 digits).length + power
  if digits == 0 || size < -400 then some ⟨negative, 0, by decide⟩
  else if size > 400 then none
  else ofRatio negative (digits * Nat.pow 10 power.toNat) (Nat.pow 10 (-power).toNat)

/-- The double nearest to an integer; `n` is taken to be of at most 1023 bits. -/
def ofInt (n : Int) : Binary64 := (ofRatio (n < 0) n.natAbs 1).getD zero

/-- The product rounded to a double, none if it is beyond the greatest. -/
def mul? (x y : Binary64) : Option Binary64 :=
  ofRatio (x.negative != y.negative) (x.ratio.1 * y.ratio.1) (x.ratio.2 * y.ratio.2)

/-- The quotient by a number other than zero, rounded to a double. -/
def div? (x y : Binary64) : Option Binary64 :=
  ofRatio (x.negative != y.negative) (x.ratio.1 * y.ratio.2) (x.ratio.2 * y.ratio.1)

/-! ## Laws of the order -/

theorem order_swap (x y : Binary64) : (x.order y).swap = y.order x := by
  simp only [order]
  exact (Std.OrientedOrd.eq_swap (a := y.signedRank) (b := x.signedRank)).symm

theorem order_eq_eq_iff (x y : Binary64) : x.order y = .eq ↔ x.signedRank = y.signedRank := by
  simp [order]

end Binary64

end ODataEngine
