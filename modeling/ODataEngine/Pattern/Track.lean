import ODataEngine.Pattern.Basic

/-!
# Where a pattern matches in a text

A pattern is laid along a text: each condition on a character or a place becomes the set of places
where it holds. Following the track from a set of places gives the set of places where a match can
end. Sets of places are numbers whose bits are the places, which keeps long texts cheap, and only
whether there is a match counts, so laziness and groups play no part.
-/

namespace ODataEngine.Pattern

/-! ## Places -/

/-- A place in a text: the character before it, if any, and what follows. -/
structure Cursor where
  previous : Option Char
  rest : List Char

namespace Cursor

/-- All places of a text from a given one on. -/
def allFrom (previous : Option Char) : List Char → List Cursor
  | [] => [⟨previous, []⟩]
  | x :: rest => ⟨previous, x :: rest⟩ :: allFrom (some x) rest

/-- A word character stands before the place. -/
def wordBefore (c : Cursor) : Bool := c.previous.any fun x => CharSet.word.holds x.toNat

/-- A word character stands after the place. -/
def wordAfter (c : Cursor) : Bool := c.rest.head?.any fun x => CharSet.word.holds x.toNat

/-- A character of the set stands after the place. -/
def sees (set : CharSet) (c : Cursor) : Bool := c.rest.head?.any fun x => set.holds x.toNat

/-- The condition holds at the place. -/
def satisfies (a : Assertion) (c : Cursor) : Bool :=
  match a with
  | .textStart => c.previous.isNone
  | .textEnd => c.rest.isEmpty
  | .lineStart => c.previous.isNone || c.previous == some '\n'
  | .lineEnd => c.rest.isEmpty || c.rest.head? == some '\n'
  | .lineStartCrlf =>
    c.previous.isNone || c.previous == some '\n'
      || (c.previous == some '\r' && c.rest.head? != some '\n')
  | .lineEndCrlf =>
    c.rest.isEmpty || c.rest.head? == some '\r'
      || (c.rest.head? == some '\n' && c.previous != some '\r')
  | .wordBoundary => c.wordBefore != c.wordAfter
  | .noWordBoundary => c.wordBefore == c.wordAfter
  | .wordStart => !c.wordBefore && c.wordAfter
  | .wordEnd => c.wordBefore && !c.wordAfter
  | .wordStartHalf => !c.wordBefore
  | .wordEndHalf => !c.wordAfter

end Cursor

/-- The places where a condition holds, as bits. -/
def placesWhere (condition : Cursor → Bool) (places : List Cursor) : Nat :=
  places.foldr (fun c bits => 2 * bits + (condition c).toNat) 0

/-! ## Tracks -/

/-- A pattern laid along a text. `cross` goes past the character after a place of the set, `check`
goes on only at places of the set. -/
inductive Track where
  | cross (places : Nat)
  | check (places : Nat)
  | stay
  | nowhere
  | both (p q : Track)
  | either (p q : Track)
  | times (p : Track) (least : Nat) (most : Option Nat)

/-- The track of a literal text. -/
def literalTrack (places : List Cursor) : List Char → Track
  | [] => .stay
  | x :: rest =>
    .both (.cross (placesWhere (·.rest.head? == some x) places)) (literalTrack places rest)

mutual

/-- The track of a pattern along the text with the given places. -/
def along (places : List Cursor) : Pattern → Track
  | empty => .stay
  | literal text => literalTrack places text
  | one set => .cross (placesWhere (·.sees set) places)
  | assertion a => .check (placesWhere (·.satisfies a) places)
  | times p least most _ => .times (along places p) least most
  | group _ p => along places p
  | sequence ps => inTurnAlong places ps
  | choice ps => oneOfAlong places ps

/-- The track of patterns that are matched in turn. -/
def inTurnAlong (places : List Cursor) : List Pattern → Track
  | [] => .stay
  | p :: ps => .both (along places p) (inTurnAlong places ps)

/-- The track of patterns of which one is matched. -/
def oneOfAlong (places : List Cursor) : List Pattern → Track
  | [] => .nowhere
  | p :: ps => .either (along places p) (oneOfAlong places ps)

end

/-! ## Following a track -/

/-- The places reached by `n` further steps. -/
def iterate (step : Nat → Nat) : Nat → Nat → Nat
  | 0, places => places
  | n + 1, places => if places = 0 then 0 else iterate step n (step places)

/-- The places reached by at most `n` further steps; `frontier` holds those of `seen` from which no
step was taken yet. -/
def closure (step : Nat → Nat) : Nat → (frontier seen : Nat) → Nat
  | 0, _, seen => seen
  | n + 1, frontier, seen =>
    let next := step frontier
    let fresh := next - (next &&& seen)
    if fresh = 0 then seen else closure step n fresh (seen ||| fresh)

/-- The places where the track can end when it starts at one of the given places of a text of the
given length. Repeating more often than there are places reaches no new one. -/
def Track.ends (length : Nat) : Track → Nat → Nat
  | cross m, places => 2 * (places &&& m)
  | check m, places => places &&& m
  | stay, places => places
  | nowhere, _ => 0
  | both p q, places => q.ends length (p.ends length places)
  | either p q, places => p.ends length places ||| q.ends length places
  | times p least most, places =>
    -- the rounds that must be, then those that may be
    let start := iterate (p.ends length) least places
    let rounds :=
      match most with
      | some most => min (most - least) (length + 1)
      | none => length + 1
    closure (p.ends length) rounds start start

/-- The pattern matches somewhere in the text. -/
def matchesIn (p : Pattern) (text : List Char) : Bool :=
  let places := Cursor.allFrom none text
  (along places p).ends text.length (placesWhere (fun _ => true) places) != 0

end ODataEngine.Pattern
