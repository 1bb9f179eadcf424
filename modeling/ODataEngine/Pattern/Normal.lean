import ODataEngine.Pattern.Basic

/-!
# Patterns in normal form

The constructors that keep patterns in normal form: a set of one character is a literal, literals
that follow each other are one, no sequence stands in a sequence and no choice in a choice, a choice
between characters is a set, and what all branches of a choice begin with stands before it.
-/

namespace ODataEngine.Pattern

/-- The pattern that matches one character of a set. -/
def ofSet (s : CharSet) : Pattern :=
  match s.only? with
  | some c => .literal [c]
  | none => .one s

/-- The number of parts of a pattern at all depths. -/
def weight : Pattern → Nat
  | times p _ _ _ => weight p + 1
  | group _ p => weight p + 1
  | sequence ps => weightAll ps + 1
  | choice ps => weightAll ps + 1
  | _ => 1
where
  /-- The number of parts of patterns. -/
  weightAll : List Pattern → Nat
    | [] => 0
    | p :: ps => weight p + weightAll ps

/-! ## Sequences -/

/-- The parts that a pattern adds to a sequence. -/
def parts : Pattern → List Pattern
  | empty => []
  | sequence ps => ps
  | p => [p]

/-- Joins literals that follow each other. -/
def joinLiterals : List Pattern → List Pattern
  | [] => []
  | literal s :: rest =>
    match joinLiterals rest with
    | literal t :: more => literal (s ++ t) :: more
    | more => literal s :: more
  | p :: rest => p :: joinLiterals rest

/-- The pattern that matches what the given ones match in turn. -/
def inTurn (ps : List Pattern) : Pattern :=
  match joinLiterals (ps.flatMap parts) with
  | [] => empty
  | [p] => p
  | ps => sequence ps

/-! ## Choices -/

/-- The branches that a pattern adds to a choice. -/
def branches : Pattern → List Pattern
  | choice ps => ps
  | p => [p]

/-- The set of the characters that a pattern of one character matches. -/
def set? : Pattern → Option CharSet
  | literal [c] => some (.single c)
  | one s => some s
  | _ => none

/-- The set of the characters that the patterns match, if they are patterns of one character. -/
def unionOf? (ps : List Pattern) : Option CharSet :=
  ps.foldlM (fun s p => p.set?.map s.union) .empty

/-- How many parts two sequences have in common at their beginnings. -/
def commonLength : List Pattern → List Pattern → Nat
  | p :: ps, q :: qs => if same p q then commonLength ps qs + 1 else 0
  | _, _ => 0

/-- How many parts all patterns have in common at their beginnings; only sequences have any. -/
def commonStart : List Pattern → Nat
  | sequence ps :: rest =>
    rest.foldl
      (fun n p =>
        match p with
        | sequence qs => min n (commonLength ps qs)
        | _ => 0)
      ps.length
  | _ => 0

/-- The pattern that matches what one of the given ones matches. Each step of `fuel` takes a common
beginning out of the choice. -/
def choiceWithin : (fuel : Nat) → List Pattern → Pattern
  | 0, ps => choice ps
  | fuel + 1, ps =>
    match ps.flatMap branches with
    | [] => one .empty
    | [p] => p
    | p :: rest =>
      match unionOf? (p :: rest) with
      | some s => ofSet s
      | none =>
        match commonStart (p :: rest) with
        | 0 => choice (p :: rest)
        | n =>
          let remains := (p :: rest).map fun q => inTurn ((parts q).drop n)
          inTurn ((parts p).take n ++ [choiceWithin fuel remains])

/-- The pattern that matches what one of the given ones matches. -/
def oneOf (ps : List Pattern) : Pattern := choiceWithin (weight.weightAll ps + 1) ps

/-! ## Repetitions -/

/-- The pattern repeated. What takes no character need not be repeated more than once. -/
def repeated (p : Pattern) (least : Nat) (most : Option Nat) (lazy : Bool) : Pattern :=
  let (least, most) :=
    if takesNothing p then (min least 1, some (min (most.getD 1) 1)) else (least, most)
  if most = some 0 then empty
  else if least = 1 && most = some 1 then p
  else times p least most lazy

end ODataEngine.Pattern
