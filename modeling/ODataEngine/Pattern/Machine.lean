import ODataEngine.Pattern.Basic
import ODataEngine.Pattern.Memo
import ODataEngine.Pattern.Octets

/-!
# The size of a pattern

A pattern can be followed by a machine that reads a text octet by octet, forwards to find the end of
a match and backwards to find its start. Counted repetitions are spelled out in a machine, so that
short patterns can have large ones. Here the states of both machines and the links between them are
counted as they would be built, up to the budget that a pattern may use.
-/

namespace ODataEngine.Pattern

/-! ## Counting -/

/-- What is built so far: how many states, and how many octets of links between them. -/
structure Tally where
  states : Nat := 0
  links : Nat := 0

/-- The octets that states and links take. -/
def Tally.octets (t : Tally) : Nat := 32 * t.states + t.links

/-- How many octets a machine may take. -/
def budget : Nat := 10 * 1024 * 1024

/-- A step of building, which fails when the budget is spent. -/
abbrev Build := StateT Tally Option

/-- Adds states and octets of links. -/
def spend (states links : Nat) : Build Unit := do
  let t ← get
  let t : Tally := ⟨t.states + states, t.links + links⟩
  if t.octets ≤ budget then set t else failure

/-- Adds a state with octets of links of its own; its number. -/
def newState (links : Nat) : Build Nat := do
  let number := (← get).states
  spend 1 links
  return number

/-- The octets of a link from a state that branches. -/
def branchLink : Nat := 4

/-- The octets of a link from a state that tells octets apart. -/
def octetLink : Nat := 8

/-- Links the end of one piece to the start of another; only an end that branches has to grow. -/
def leave (branching : Bool) : Build Unit := if branching then spend 0 branchLink else pure ()

/-- Which way a machine reads a text. -/
inductive Direction where
  | forward
  | backward
deriving DecidableEq

/-! ## Sets -/

/-- Groups the sequences that begin with the same range, which follow each other: the range and what
comes after it. -/
def groupByFirst : List (List (Nat × Nat)) → List ((Nat × Nat) × List (List (Nat × Nat)))
  | [] => []
  | [] :: rest => groupByFirst rest
  | (r :: tail) :: rest =>
    match groupByFirst rest with
    | (s, tails) :: more =>
      if r = s then (r, tail :: tails) :: more else (r, [tail]) :: (s, tails) :: more
    | [] => [(r, [tail])]

/-- Builds the states that read sequences of at most `length` ranges forwards and then go on at the
state `target`: the number of the first one. A state like a former one is shared if the memo knows
it. -/
def forwardStates (target : Nat) :
    (length : Nat) → List (List (Nat × Nat)) → StateT Memo Build Nat
  | 0, _ => return target
  | length + 1, sequences => do
    let groups := groupByFirst sequences
    if groups.isEmpty then return target
    let links ← groups.mapM fun (r, tails) =>
      return [r.1, r.2, ← forwardStates target length tails]
    let key := links.flatten
    match (← get).find? key with
    | some number => return number
    | none =>
      let number ← newState (octetLink * links.length)
      modify (·.insert key number)
      return number

/-- Builds the states that read a sequence backwards and then go on at a state, from its first
range on: the number of the state for the last range. -/
def backwardStates (next : Nat) : List (Nat × Nat) → StateT Memo Build Nat
  | [] => return next
  | r :: rest => do
    let key := [next, r.1, r.2]
    match (← get).find? key with
    | some number => backwardStates number rest
    | none =>
      let number ← newState 0
      modify (·.insert key number)
      backwardStates number rest

/-- Builds the states that read a character as one of its spellings says. -/
def buildSpellings (d : Direction) (sequences : List (List (Nat × Nat))) : Build Unit := do
  match d with
  | .forward =>
    let target ← newState 0
    let _ ← (forwardStates target 4 sequences).run { capacity := 10000 }
  | .backward =>
    let _ ← newState 0
    let target ← newState 0
    let all : StateT Memo Build Unit := sequences.forM fun sequence => do
      let _ ← backwardStates target sequence
      spend 0 branchLink
    let _ ← all.run { capacity := 1000 }

/-! ## Choices between literals -/

/-- Cuts a list of texts at the empty ones: the texts before the first one and between them. An empty
text that comes first counts once. -/
def cutAtEmpty (any : Bool) : List (List Nat) → List (List (List Nat))
  | [] => [[]]
  | [] :: rest => if any then cutAtEmpty true rest else [] :: cutAtEmpty true rest
  | w :: rest =>
    match cutAfter rest with
    | first :: more => (w :: first) :: more
    | [] => [[w]]
where
  /-- Cuts a list of texts at every empty one. -/
  cutAfter : List (List Nat) → List (List (List Nat))
    | [] => [[]]
    | [] :: rest => [] :: cutAfter rest
    | w :: rest =>
      match cutAfter rest with
      | first :: more => (w :: first) :: more
      | [] => [[w]]

/-- The texts that go on after an octet, without it. -/
def tailsAfter (octet : Nat) (words : List (List Nat)) : List (List Nat) :=
  words.filterMap fun w =>
    match w with
    | o :: rest => if o = octet then some rest else none
    | [] => none

/-- Builds the states that tell texts of at most `length` octets apart; texts that begin alike share
states. Where a text ends, those before and after it are told apart by states of their own. -/
def buildWords : (length : Nat) → List (List Nat) → Build Unit
  | 0, _ => return
  | length + 1, words => do
    let chunks := cutAtEmpty false words
    for chunk in chunks do
      let octets := (chunk.filterMap List.head?).eraseDups
      for octet in octets do
        let tails := tailsAfter octet chunk
        unless tails.all List.isEmpty do
          buildWords length tails
      match octets.length with
      | 0 => pure ()
      | 1 => spend 1 0
      | n => spend 1 (octetLink * n)
    let filled := (chunks.filter fun chunk => !chunk.isEmpty).length
    spend 1 (branchLink * (filled + chunks.length - 1))

/-- The literal text of a pattern. -/
def text? : Pattern → Option (List Char)
  | literal s => some s
  | _ => none

/-! ## Pieces -/

/-- A piece of a machine: the fewest octets that it takes, none if it fits nothing at all, and how its
states are built, which tells whether the last one branches. -/
structure Piece where
  shortest? : Option Nat
  states : Build Bool

/-- Builds a piece a number of times after another. -/
def buildAgain (piece : Build Bool) : Nat → (branching : Bool) → Build Bool
  | 0, branching => return branching
  | n + 1, branching => do
    leave branching
    buildAgain piece n (← piece)

/-- Builds a piece a number of times. -/
def buildTimes (piece : Build Bool) : Nat → Build Bool
  | 0 => do
    spend 1 0
    return false
  | n + 1 => do buildAgain piece n (← piece)

/-- Builds a piece after another a number of times, each of which may be left out. -/
def buildOptional (piece : Build Bool) : Nat → (branching : Bool) → Build Bool
  | 0, branching => return branching
  | n + 1, branching => do
    spend 1 (2 * branchLink)
    leave branching
    buildOptional piece n (← piece)

/-- Builds a repeated piece; `consuming` tells that the piece always takes a character. -/
def buildRepeated (piece : Build Bool) (consuming : Bool) (least : Nat) (most : Option Nat) :
    Build Bool := do
  match least, most with
  | 0, some 1 =>
    spend 1 (2 * branchLink)
    leave (← piece)
    spend 1 0
    return false
  | 0, none =>
    if consuming then
      spend 1 branchLink
      leave (← piece)
      return true
    else
      leave (← piece)
      spend 3 (4 * branchLink)
      return false
  | least + 1, none =>
    if least ≠ 0 then
      leave (← buildTimes piece least)
    leave (← piece)
    spend 1 branchLink
    return true
  | least, some most =>
    if least = most then buildTimes piece least
    else
      let branching ← buildTimes piece least
      spend 1 0
      leave (← buildOptional piece (most - least) branching)
      return false

namespace Piece

/-- A piece of a number of states one after another, for a match of a number of octets. -/
def plain (states octets : Nat) : Piece where
  shortest? := some octets
  states := do
    spend states 0
    return false

/-- The piece for a character of a set. A set of ASCII characters takes two states. -/
def ofSet (d : Direction) (s : CharSet) : Piece :=
  let shortest? := s.ranges.head?.map fun r => (Char.ofNat r.1).utf8Size
  if s.isAscii then
    { shortest?
      states := do
        spend 2 (octetLink * s.ranges.length)
        return false }
  else
    let sequences := s.spellings
    { shortest?
      states := do
        buildSpellings d sequences
        return false }

/-- A piece repeated. -/
def times (piece : Piece) (least : Nat) (most : Option Nat) : Piece where
  shortest? := piece.shortest?.map (· * least)
  states := buildRepeated piece.states (piece.shortest?.any (0 < ·)) least most

/-- A piece in a group. Only machines that read forwards keep where groups begin and end. -/
def inGroup (d : Direction) (piece : Piece) : Piece :=
  match d with
  | .forward =>
    { piece with
      states := do
        spend 1 0
        leave (← piece.states)
        spend 1 0
        return false }
  | .backward => piece

/-- A piece and another one behind it in the text. -/
def followedBy (d : Direction) (first second : Piece) : Piece where
  shortest? := first.shortest?.bind fun n => second.shortest?.map (n + ·)
  states := do
    let (earlier, later) := if d = .forward then (first, second) else (second, first)
    leave (← earlier.states)
    later.states

/-- The piece for texts of which one is matched. -/
def ofWords (d : Direction) (words : List (List Nat)) : Piece where
  shortest? := (words.map List.length).min?
  states := do
    spend 1 0
    let length := words.foldl (fun n w => max n w.length) 0
    buildWords length (if d = .forward then words else words.map List.reverse)
    return false

/-- Builds pieces of which one is matched; what joins them is built after the second one, and `done`
of them are built. -/
def buildBranches (done : Nat) : List Piece → Build Unit
  | [] => return
  | piece :: rest => do
    let branching ← piece.states
    if done = 1 then
      spend 2 0
    spend 0 branchLink
    leave branching
    buildBranches (done + 1) rest

/-- The piece for pieces of which one is matched. -/
def ofBranches (pieces : List Piece) : Piece where
  shortest? := (pieces.mapM Piece.shortest?).bind List.min?
  states := do
    buildBranches 0 pieces
    return false

end Piece

mutual

/-- The piece for a pattern in a machine that reads one way. -/
def piece (d : Direction) : Pattern → Piece
  | empty => .plain 1 0
  | literal s => .plain (textSize s) (textSize s)
  | one s => .ofSet d s
  | assertion _ => .plain 1 0
  | times p least most _ => (piece d p).times least most
  | group _ p => (piece d p).inGroup d
  | sequence ps => pieceInTurn d ps
  | choice ps =>
    match ps.mapM text? with
    | some texts => .ofWords d (texts.map literalOctets)
    | none => .ofBranches (pieces d ps)

/-- The piece for patterns that are matched in turn. -/
def pieceInTurn (d : Direction) : List Pattern → Piece
  | [] => .plain 1 0
  | [p] => piece d p
  | p :: ps => (piece d p).followedBy d (pieceInTurn d ps)

/-- The pieces for patterns. -/
def pieces (d : Direction) : List Pattern → List Piece
  | [] => []
  | p :: ps => piece d p :: pieces d ps

end

/-! ## Machines -/

/-- Builds a machine that finds a pattern anywhere, or only at an end of the text if every match
stands there. -/
def buildMachine (d : Direction) (p : Pattern) : Build Unit := do
  match d with
  | .forward =>
    if beginsWith .textStart p then spend 1 0 else spend 3 (octetLink + 2 * branchLink)
    spend 1 0
    leave (← (piece d p).states)
    spend 2 0
  | .backward =>
    if endsWith .textEnd p then spend 1 0 else spend 3 (octetLink + 2 * branchLink)
    leave (← (piece d p).states)
    spend 1 0

/-- Both machines of the pattern fit the budget. -/
def fits (p : Pattern) : Bool :=
  ((buildMachine .forward p).run {}).isSome && ((buildMachine .backward p).run {}).isSome

end ODataEngine.Pattern
