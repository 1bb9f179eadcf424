import ODataEngine.Pattern.Escape

/-!
# Bracketed classes

Sets of characters as patterns write them: characters, ranges, escapes and nested classes, joined,
and intersection, difference and symmetric difference between such unions. A class also has a
depth, since classes may nest only so deep.
-/

namespace ODataEngine.Pattern

/-! ## Items -/

/-- Reads one item of a class. -/
def readClassItem (verbose : Bool) : List Char → Option (Atom × List Char)
  | '\\' :: rest => readEscape verbose rest
  | c :: rest => some (.literal c, rest)
  | [] => none

/-- Reads one item of a class or a range of characters. A minus before the closing bracket or
before another minus makes no range. -/
def readClassRange (verbose : Bool) (s : List Char) : Option (CharSet × List Char) :=
  match readClassItem verbose s with
  | none => none
  | some (item, rest) =>
    match skipGap verbose rest with
    | [] => none
    | '-' :: after =>
      match skipGap verbose after with
      | ']' :: _ => item.set?.map fun set => (set, '-' :: after)
      | '-' :: _ => item.set?.map fun set => (set, '-' :: after)
      | after =>
        match item, readClassItem verbose after with
        | .literal low, some (.literal high, rest) =>
          if low.toNat ≤ high.toNat then some (⟨[(low.toNat, high.toNat)]⟩, rest) else none
        | _, _ => none
    | rest => item.set?.map fun set => (set, rest)

/-- Reads an ASCII class such as `[:alpha:]` after its bracket. Anything else is a nested class. -/
def readNamedClass (f : Flags) (s : List Char) : Option (CharSet × List Char) :=
  match s with
  | ':' :: rest =>
    let (negated, rest) :=
      match rest with
      | '^' :: rest => (true, rest)
      | rest => (false, rest)
    match rest.dropWhile (· != ':'), CharSet.named? (String.ofList (rest.takeWhile (· != ':'))) with
    | ':' :: ']' :: rest, some set =>
      some (if negated then (f.folded set).complement else set, rest)
    | _, _ => none
  | _ => none

/-! ## Unions and operations -/

/-- A union of items: their set, how many they are, and how deep the deepest of them is. -/
structure ClassUnion where
  set : CharSet := .empty
  count : Nat := 0
  deepest : Nat := 0

namespace ClassUnion

/-- The union with one more item. -/
def add (u : ClassUnion) (set : CharSet) (depth : Nat) : ClassUnion :=
  ⟨u.set.union set, u.count + 1, max u.deepest depth⟩

/-- How deep the union is; a single item stands for itself. -/
def depth (u : ClassUnion) : Nat := if u.count ≤ 1 then u.deepest else u.deepest + 1

end ClassUnion

/-- The operations between the unions of a class. -/
inductive SetOperation where
  | inter
  | diff
  | symmDiff

/-- The set that an operation makes of its two sides. -/
def SetOperation.apply : SetOperation → CharSet → CharSet → CharSet
  | inter, s, t => s.inter t
  | diff, s, t => s.diff t
  | symmDiff, s, t => s.symmDiff t

/-- The left side of an operation whose right side is still to be read. -/
structure Pending where
  operation : SetOperation
  left : CharSet
  depth : Nat

/-- The set of what was read of a class, and its depth. -/
def joinParts (f : Flags) (pending : Option Pending) (u : ClassUnion) : CharSet × Nat :=
  match pending with
  | none => (u.set, u.depth)
  | some p => (p.operation.apply (f.folded p.left) (f.folded u.set), max p.depth u.depth + 1)

/-- The operation that two characters stand for. -/
def operation? : Char → Char → Option SetOperation
  | '&', '&' => some .inter
  | '-', '-' => some .diff
  | '~', '~' => some .symmDiff
  | _, _ => none

/-! ## Classes -/

/-- Reads the minus signs that may open a class, and a closing bracket that stands first. -/
def readClassStart (verbose : Bool) (u : ClassUnion) : Nat → List Char →
    Option (ClassUnion × List Char)
  | 0, _ => none
  | fuel + 1, s =>
    match s with
    | [] => none
    | '-' :: rest => readClassStart verbose (u.add (.single '-') 0) fuel (skipGap verbose rest)
    | ']' :: rest =>
      if u.count ≠ 0 then some (u, s)
      else
        match skipGap verbose rest with
        | [] => none
        | rest => some (u.add (.single ']') 0, rest)
    | _ => some (u, s)

mutual

/-- Reads a class after its opening bracket: its set and its depth. -/
def readClass (f : Flags) : Nat → List Char → Option ((CharSet × Nat) × List Char)
  | 0, _ => none
  | fuel + 1, s =>
    let s := skipGap f.verbose s
    let (negated, s) :=
      match s with
      | '^' :: rest => (true, skipGap f.verbose rest)
      | s => (false, s)
    match readClassStart f.verbose {} (fuel + 1) s with
    | none => none
    | some (u, s) =>
      (readClassBody f fuel none u s).map fun ((set, depth), rest) =>
        let set := f.folded set
        ((if negated then set.complement else set, depth + 1), rest)

/-- Reads the items of a class onto a union, and its closing bracket. -/
def readClassBody (f : Flags) : Nat → Option Pending → ClassUnion → List Char →
    Option ((CharSet × Nat) × List Char)
  | 0, _, _, _ => none
  | fuel + 1, pending, u, s =>
    match skipGap f.verbose s with
    | [] => none
    | ']' :: rest => some (joinParts f pending u, rest)
    | '[' :: rest =>
      match readNamedClass f rest with
      | some (set, rest) => readClassBody f fuel pending (u.add set 0) rest
      | none =>
        match readClass f fuel rest with
        | some ((set, depth), rest) => readClassBody f fuel pending (u.add set depth) rest
        | none => none
    | c :: rest =>
      match rest.head?.bind (operation? c) with
      | some operation =>
        let (left, depth) := joinParts f pending u
        readClassBody f fuel (some ⟨operation, left, depth⟩) {} (rest.drop 1)
      | none =>
        match readClassRange f.verbose (c :: rest) with
        | some (set, rest) => readClassBody f fuel pending (u.add set 0) rest
        | none => none

end

end ODataEngine.Pattern
