import ODataEngine.Pattern.FoldTable
import ODataEngine.Pattern.WordTable

/-!
# Sets of characters

What one position of a pattern may match, as ranges of code points, and the operations that
bracketed classes build sets with.
-/

namespace ODataEngine.Pattern

/-! ## Lists of ranges -/

/-- The greatest code point. -/
def lastCode : Nat := 0x10FFFF

/-- Adds a range to ranges in ascending order, joined with those that it overlaps or touches. -/
def addRange (r : Nat × Nat) : List (Nat × Nat) → List (Nat × Nat)
  | [] => [r]
  | s :: rest =>
    if r.2 + 1 < s.1 then r :: s :: rest
    else if s.2 + 1 < r.1 then s :: addRange r rest
    else addRange (min r.1 s.1, max r.2 s.2) rest

/-- The gaps between ranges in ascending order, from a code point on. -/
def gapsFrom (start : Nat) : List (Nat × Nat) → List (Nat × Nat)
  | [] => if start ≤ lastCode then [(start, lastCode)] else []
  | (low, high) :: rest =>
    if start < low then (start, low - 1) :: gapsFrom (high + 1) rest else gapsFrom (high + 1) rest

/-- A surrogate, which is no character. -/
def isSurrogate (n : Nat) : Bool := 0xD800 ≤ n && n ≤ 0xDFFF

/-- A range without the surrogates at its ends, if there is anything else in it. -/
def clip? (r : Nat × Nat) : Option (Nat × Nat) :=
  let low := if isSurrogate r.1 then 0xE000 else r.1
  let high := if isSurrogate r.2 then 0xD7FF else r.2
  if low ≤ high then some (low, high) else none

/-- A set of characters: ranges of code points in ascending order with gaps between them. -/
structure CharSet where
  ranges : List (Nat × Nat)
deriving DecidableEq

namespace CharSet

/-! ## Membership -/

/-- The code point is in the set. -/
def holds (s : CharSet) (n : Nat) : Bool := s.ranges.any fun (low, high) => low ≤ n && n ≤ high

/-- The set without members. -/
def empty : CharSet := ⟨[]⟩

/-- The set of one character. -/
def single (c : Char) : CharSet := ⟨[(c.toNat, c.toNat)]⟩

/-- Every character. -/
def any : CharSet := ⟨[(0, lastCode)]⟩

/-- The only member of a set. -/
def only? (s : CharSet) : Option Char :=
  match s.ranges with
  | [(low, high)] => if low = high then some (Char.ofNat low) else none
  | _ => none

/-- All members are ASCII. -/
def isAscii (s : CharSet) : Bool := s.ranges.all fun r => r.2 < 0x80

/-! ## Operations -/

/-- The members of either set. -/
def union (s t : CharSet) : CharSet := ⟨t.ranges.foldr addRange s.ranges⟩

/-- Every other character. A gap of surrogates alone counts as its two neighbours. -/
def complement (s : CharSet) : CharSet :=
  ⟨(gapsFrom 0 s.ranges).map fun r => (clip? r).getD (0xD7FF, 0xE000)⟩

/-- The members of the first set that are in the second as well. -/
def inter (s t : CharSet) : CharSet :=
  ⟨gapsFrom 0 ((gapsFrom 0 t.ranges).foldr addRange (gapsFrom 0 s.ranges))⟩

/-- The members of the first set that are not in the second. -/
def diff (s t : CharSet) : CharSet :=
  ⟨(gapsFrom 0 (t.ranges.foldr addRange (gapsFrom 0 s.ranges))).filterMap clip?⟩

/-- The members of one of the sets but not of both. -/
def symmDiff (s t : CharSet) : CharSet := (s.union t).diff (s.inter t)

/-- The set with every case variant of its members. -/
def caseless (s : CharSet) : CharSet :=
  let targets := foldPairs.filterMap fun (n, target) =>
    if s.holds n || s.holds target then some target else none
  let variants := foldPairs.filter fun pair => targets.contains pair.2
  ⟨variants.foldr (fun (n, target) rs => addRange (n, n) (addRange (target, target) rs)) s.ranges⟩

/-! ## Sets with names -/

/-- Decimal digits. -/
def digit : CharSet := ⟨digitRanges⟩

/-- Word characters. -/
def word : CharSet := ⟨wordRanges⟩

/-- Word characters that are neither letters nor numbers. -/
def mark : CharSet := ⟨markRanges⟩

/-- Numbers that are no word characters. -/
def numeral : CharSet := ⟨numeralRanges⟩

/-- Blanks. -/
def blank : CharSet :=
  ⟨[(0x9, 0xD), (0x20, 0x20), (0x85, 0x85), (0xA0, 0xA0), (0x1680, 0x1680), (0x2000, 0x200A),
    (0x2028, 0x2029), (0x202F, 0x202F), (0x205F, 0x205F), (0x3000, 0x3000)]⟩

/-- The ASCII class of a name such as `alpha`. -/
def named? : String → Option CharSet
  | "alnum" => some ⟨[(0x30, 0x39), (0x41, 0x5A), (0x61, 0x7A)]⟩
  | "alpha" => some ⟨[(0x41, 0x5A), (0x61, 0x7A)]⟩
  | "ascii" => some ⟨[(0x0, 0x7F)]⟩
  | "blank" => some ⟨[(0x9, 0x9), (0x20, 0x20)]⟩
  | "cntrl" => some ⟨[(0x0, 0x1F), (0x7F, 0x7F)]⟩
  | "digit" => some ⟨[(0x30, 0x39)]⟩
  | "graph" => some ⟨[(0x21, 0x7E)]⟩
  | "lower" => some ⟨[(0x61, 0x7A)]⟩
  | "print" => some ⟨[(0x20, 0x7E)]⟩
  | "punct" => some ⟨[(0x21, 0x2F), (0x3A, 0x40), (0x5B, 0x60), (0x7B, 0x7E)]⟩
  | "space" => some ⟨[(0x9, 0xD), (0x20, 0x20)]⟩
  | "upper" => some ⟨[(0x41, 0x5A)]⟩
  | "word" => some ⟨[(0x30, 0x39), (0x41, 0x5A), (0x5F, 0x5F), (0x61, 0x7A)]⟩
  | "xdigit" => some ⟨[(0x30, 0x39), (0x41, 0x46), (0x61, 0x66)]⟩
  | _ => none

end CharSet

end ODataEngine.Pattern
