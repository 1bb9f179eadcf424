import ODataEngine.Number.Binary64

/-!
# The fewest digits that read back

A double is written with the fewest decimal digits among the numbers that round to it. For each
count of digits only the two neighbours of the exact value on the decimal grid have to be tried:
if any point of the grid rounds to the double, one of these does.
-/

namespace ODataEngine.Binary64

/-- A decimal number `digits * 10 ^ power`. -/
structure Decimal where
  digits : Nat
  power : Int
deriving DecidableEq

/-- The number of decimal digits of a positive integer. -/
def digitCount (n : Nat) : Nat := (Nat.toDigits 10 n).length

/-- The reals that round to a magnitude, in quarters of its last place: from `low` to `high`, both
times `2 ^ exponent`, ends included for an even significand. Below a power of two the doubles are
twice as dense, so the lower end is nearer there. -/
structure Interval where
  low : Nat
  value : Nat
  high : Nat
  exponent : Int
  closed : Bool

/-- The interval of reals that round to `x`. -/
def interval (x : Binary64) : Interval :=
  let m := x.significand
  { low := if m == Nat.pow 2 52 && x.exponent > -1074 then 4 * m - 1 else 4 * m - 2
    value := 4 * m
    high := 4 * m + 2
    exponent := x.exponent - 2
    closed := m % 2 == 0 }

/-- `d * 10 ^ power` over `2 ^ exponent` as numerator and denominator. -/
def onScale (d : Nat) (power exponent : Int) : Nat × Nat :=
  (d * Nat.pow 10 power.toNat * Nat.pow 2 (-exponent).toNat,
    Nat.pow 10 (-power).toNat * Nat.pow 2 exponent.toNat)

/-- The decimal number rounds to the double whose interval is given. -/
def Interval.holds (i : Interval) (d : Nat) (power : Int) : Bool :=
  let (n, den) := onScale d power i.exponent
  if i.closed then i.low * den ≤ n && n ≤ i.high * den else i.low * den < n && n < i.high * den

/-- Twice the distance of the value from `d`, compared with one step of the grid of `10 ^ power`:
tells whether the upper neighbour `d + 1` is the nearer one. An exact half goes to the even one. -/
def Interval.upperIsNearer (i : Interval) (d : Nat) (power : Int) : Bool :=
  let (n, den) := onScale (2 * d + 1) power i.exponent
  let twice := 2 * i.value * den
  n < twice || (n == twice && d % 2 == 1)

/-- The greatest grid point not above the value. -/
def Interval.floorOn (i : Interval) (power : Int) : Nat :=
  let (n, den) := onScale 1 power i.exponent
  i.value * den / n

/-- The first hit on the grids of the powers from `power` down; at most `count` grids are tried. -/
def Interval.firstHit (i : Interval) (power : Int) : Nat → Decimal
  | 0 => ⟨i.floorOn power, power⟩
  | count + 1 =>
    let d := i.floorOn power
    match i.holds d power, i.holds (d + 1) power with
    | true, true => if i.upperIsNearer d power then ⟨d + 1, power⟩ else ⟨d, power⟩
    | true, false => ⟨d, power⟩
    | false, true => ⟨d + 1, power⟩
    | false, false => i.firstHit (power - 1) count

/-- An upper bound of the decimal exponent of the value, at most three too high. -/
def Interval.topPower (i : Interval) : Int :=
  let bits : Int := (i.value.log2 : Int) + i.exponent + 1
  -- 0.30103 is just above the logarithm of 2 to the base 10
  bits * 30103 / 100000 + 1

/-- The digits without the zeros at their end; the power grows with each zero taken off. -/
def Decimal.strip (d : Decimal) : Nat → Decimal
  | 0 => d
  | count + 1 =>
    if d.digits != 0 && d.digits % 10 == 0 then Decimal.strip ⟨d.digits / 10, d.power + 1⟩ count
    else d

/-- The shortest decimal number that rounds to the magnitude of `x`, nearest of those. Twenty-one
grids reach from above the first digit to beyond the seventeenth. -/
def shortest (x : Binary64) : Decimal :=
  if x.rank == 0 then ⟨0, 0⟩
  else
    let i := x.interval
    (i.firstHit i.topPower 21).strip 20

end ODataEngine.Binary64
