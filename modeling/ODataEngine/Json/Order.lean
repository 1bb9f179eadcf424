import ODataEngine.Json.Basic

/-!
# Comparing values

Scalars of one kind are ordered, values of different kinds are not. Two numbers that fit 64 bits
with sign compare exactly, any other two as doubles. Equality of arrays and objects is structural:
it tells `1` from `1.0`, and it ignores the order of members.
-/

namespace ODataEngine

namespace JsonNumber

/-- The numeric order: exact between integers of 64 bits with sign, else between the nearest
doubles. -/
def order (a b : JsonNumber) : Ordering :=
  match a.int64?, b.int64? with
  | some x, some y => compare x y
  | _, _ => a.toBinary64.order b.toBinary64

/-- The same number written the same way: an integer is no double, the two zeros are one. -/
def same : JsonNumber → JsonNumber → Bool
  | .int x, .int y => x == y
  | .float x, .float y => x.signedRank == y.signedRank
  | _, _ => false

end JsonNumber

namespace Json

/-- The order of two scalars of one kind; none between values that have no order. Texts are ordered
by code point, false comes before true. -/
def order? : Json → Json → Option Ordering
  | .number x, .number y => some (x.order y)
  | .string x, .string y => some (compare x y)
  | .bool x, .bool y => some (compare x y)
  | .null, .null => some .eq
  | _, _ => none

mutual

/-- Structural equality; the order of members does not count. -/
def same : Json → Json → Bool
  | .null, .null => true
  | .bool x, .bool y => x == y
  | .number x, .number y => x.same y
  | .string x, .string y => x == y
  | .array xs, .array ys => sameItems xs ys
  | .object xs, .object ys => xs.length == ys.length && sameMembers xs ys
  | _, _ => false

/-- The items agree one by one. -/
def sameItems : List Json → List Json → Bool
  | [], [] => true
  | x :: xs, y :: ys => x.same y && sameItems xs ys
  | _, _ => false

/-- Every member on the left has an equal one on the right. -/
def sameMembers : List (String × Json) → Record → Bool
  | [], _ => true
  | (name, x) :: rest, ys =>
    (match ys.get? name with
      | some y => x.same y
      | none => false) && sameMembers rest ys

end

/-- Equality as a filter tests it: between numbers the numeric one, else the structural one. -/
def equals (a b : Json) : Bool :=
  match a, b with
  | .number x, .number y => x.order y == .eq
  | a, b => a.same b

/-- The two values are ordered as equal; this is what makes two keys the same key. -/
def sameKey (a b : Json) : Bool := a.order? b == some .eq

end Json

end ODataEngine
