import ODataEngine.Pattern.CharSet

/-!
# Characters as octets

A set of characters as UTF-8: sequences of ranges of octets, such that an octet taken from each range
of a sequence spells a character of the set, and every character of the set is spelled that way.
-/

namespace ODataEngine.Pattern

/-- The ranges of code points that take the same number of octets; the surrogates are no
characters. -/
def widthRanges : List (Nat × Nat) :=
  [(0, 0x7F), (0x80, 0x7FF), (0x800, 0xD7FF), (0xE000, 0xFFFF), (0x10000, lastCode)]

/-- What two ranges have in common. -/
def overlap? (r s : Nat × Nat) : Option (Nat × Nat) :=
  let low := max r.1 s.1
  let high := min r.2 s.2
  if low ≤ high then some (low, high) else none

/-- Cuts a range so that each piece lies in one block of the given size or is made of whole
blocks. -/
def cutAtBlocks (size : Nat) (r : Nat × Nat) : List (Nat × Nat) :=
  let first := r.1 / size
  let last := r.2 / size
  if first = last then [r]
  else
    let start := if r.1 % size = 0 then first else first + 1
    let stop := if r.2 % size = size - 1 then last + 1 else last
    (if start = first then [] else [(r.1, start * size - 1)])
      ++ (if start < stop then [(start * size, stop * size - 1)] else [])
      ++ (if stop = last then [(stop * size, r.2)] else [])

/-- The ranges of the octets of a range in which every octet varies on its own. -/
def octetRanges (r : Nat × Nat) : List (Nat × Nat) :=
  let octets := fun n => (String.utf8EncodeChar (Char.ofNat n)).map UInt8.toNat
  (octets r.1).zip (octets r.2)

/-- The sequences of ranges of octets that spell the characters of a range. -/
def spellings (r : Nat × Nat) : List (List (Nat × Nat)) :=
  (widthRanges.filterMap (overlap? r)).flatMap fun r =>
    if r.2 < 0x80 then [octetRanges r]
    else
      -- an octet carries six bits of a code point
      (((cutAtBlocks 0x40 r).flatMap (cutAtBlocks 0x1000)).flatMap (cutAtBlocks 0x40000)).map
        octetRanges

/-- The sequences of ranges of octets that spell the characters of a set, in ascending order. -/
def CharSet.spellings (s : CharSet) : List (List (Nat × Nat)) :=
  s.ranges.flatMap Pattern.spellings

/-- How many octets a text takes. -/
def textSize (s : List Char) : Nat := s.foldl (fun n c => n + c.utf8Size) 0

/-- The octets of a literal text. -/
def literalOctets (s : List Char) : List Nat :=
  s.flatMap fun c => (String.utf8EncodeChar c).map UInt8.toNat

end ODataEngine.Pattern
