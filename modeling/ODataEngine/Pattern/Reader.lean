import ODataEngine.Pattern.Class
import ODataEngine.Pattern.Machine
import ODataEngine.Pattern.Normal
import ODataEngine.Pattern.Track

/-!
# Reading patterns

The text form of patterns: literals and escapes, bracketed classes, anchors and word boundaries,
groups with flags, alternatives and repetitions. Look-around, back references and classes of Unicode
properties are refused, and so is a pattern that nests too deep or is too large.
-/

namespace ODataEngine.Pattern

/-! ## Repetitions -/

/-- Reads a decimal count below `2 ^ 32` with blanks around it. -/
def readCount (verbose : Bool) (s : List Char) : Option (Nat × List Char) :=
  let s := s.dropWhile Text.isBlank
  let digits := s.takeWhile Char.isDigit
  let n := digits.foldl (fun n c => n * 10 + (c.toNat - '0'.toNat)) 0
  if digits.isEmpty || Nat.pow 2 32 ≤ n then none
  else some (n, skipGap verbose ((s.dropWhile Char.isDigit).dropWhile Text.isBlank))

/-- Reads the bounds of a counted repetition after its opening brace, and its closing brace. -/
def readBounds (verbose : Bool) (s : List Char) : Option (Nat × Option Nat × List Char) :=
  match readCount verbose (skipGap verbose s) with
  | none => none
  | some (least, '\x7d' :: rest) => some (least, some least, skipGap verbose rest)
  | some (least, ',' :: rest) =>
    match skipGap verbose rest with
    | '\x7d' :: rest => some (least, none, skipGap verbose rest)
    | rest =>
      match readCount verbose rest with
      | some (most, '\x7d' :: rest) =>
        if least ≤ most then some (least, some most, skipGap verbose rest) else none
      | _ => none
  | some _ => none

/-- Reads how often something is repeated: at least, at most, and the rest. -/
def readRounds (verbose : Bool) : List Char → Option (Nat × Option Nat × List Char)
  | '?' :: rest => some (0, some 1, rest)
  | '*' :: rest => some (0, none, rest)
  | '+' :: rest => some (1, none, rest)
  | '\x7b' :: rest => readBounds verbose rest
  | _ => none

/-- Reads the mark of a repetition that prefers fewer rounds: whether there is one, and the rest. -/
def readLazyMark : List Char → Bool × List Char
  | '?' :: rest => (true, rest)
  | s => (false, s)

/-! ## Groups -/

/-- May begin the name of a group: a letter or an underscore. -/
def isNameStart (c : Char) : Bool :=
  let n := c.toNat
  c == '_'
    || (CharSet.word.holds n && !CharSet.mark.holds n && !CharSet.digit.holds n)

/-- May stand inside the name of a group. -/
def isNameRest (c : Char) : Bool :=
  let n := c.toNat
  isNameStart c || c == '.' || c == '[' || c == ']'
    || CharSet.digit.holds n || CharSet.numeral.holds n

/-- The numbered groups so far: how many, and the names that some of them have. -/
structure Groups where
  count : Nat := 0
  names : List (List Char) := []

/-- What an opening parenthesis begins: a group, with its number if it has one, or flags. -/
inductive Opening where
  | group (flags : Flags) (number : Option Nat)
  | flags (flags : Flags)

/-- Reads the name of a group up to its angle bracket; names must differ. -/
def readGroupName (groups : Groups) (s : List Char) : Option (Groups × List Char) :=
  let name := s.takeWhile (· != '>')
  match s.dropWhile (· != '>'), name with
  | '>' :: rest, c :: more =>
    if isNameStart c && more.all isNameRest && !groups.names.contains name then
      some (⟨groups.count + 1, name :: groups.names⟩, rest)
    else none
  | _, _ => none

/-- Reads what follows an opening parenthesis up to the body of the group. -/
def readOpening (f : Flags) (groups : Groups) (s : List Char) :
    Option (Opening × Groups × List Char) :=
  let named := fun s =>
    (readGroupName groups s).map fun (groups, rest) =>
      (Opening.group f (some groups.count), groups, rest)
  match s with
  | '?' :: '=' :: _ => none
  | '?' :: '!' :: _ => none
  | '?' :: '<' :: '=' :: _ => none
  | '?' :: '<' :: '!' :: _ => none
  | '?' :: 'P' :: '<' :: rest => named rest
  | '?' :: '<' :: rest => named rest
  | '?' :: rest =>
    match readFlags f true [] rest with
    | some (flags, true, rest) => some (.group flags none, groups, rest)
    | some (flags, false, rest) => some (.flags flags, groups, rest)
    | none => none
  | rest =>
    let number := groups.count + 1
    some (.group f (some number), { groups with count := number }, rest)

/-! ## Bodies -/

/-- A part of a sequence and how deep it nests. A change of flags has no body and cannot be
repeated. -/
structure Item where
  body : Option Pattern
  depth : Nat

/-- What is read of a group: the flags in force, the items of the current branch and the finished
branches, latest first. -/
structure Progress where
  flags : Flags
  items : List Item := []
  branches : List (Pattern × Nat) := []

namespace Progress

/-- The progress with one more item. -/
def push (p : Progress) (body : Pattern) (depth : Nat) : Progress :=
  { p with items := ⟨some body, depth⟩ :: p.items }

/-- The branch that the items make, and its depth. -/
def branch (p : Progress) : Pattern × Nat :=
  let bodies := p.items.reverse.filterMap (·.body)
  let depth := p.items.foldl (fun d i => max d i.depth) 0
  (inTurn bodies, if p.items.length ≤ 1 then depth else depth + 1)

/-- The progress after a bar. -/
def nextBranch (p : Progress) : Progress :=
  { p with items := [], branches := p.branch :: p.branches }

/-- The pattern of the group and its depth. -/
def finish (p : Progress) : Pattern × Nat :=
  match p.branches with
  | [] => p.branch
  | branches =>
    let all := (p.branch :: branches).reverse
    (oneOf (all.map (·.1)), all.foldl (fun d b => max d b.2) 0 + 1)

/-- Repeats the last item; there must be one, and it must not be a change of flags. -/
def repeatLast? (p : Progress) (least : Nat) (most : Option Nat) (lazy : Bool) :
    Option Progress :=
  match p.items with
  | ⟨some body, depth⟩ :: items =>
    let body := repeated body least most (lazy != p.flags.swapGreed)
    some { p with items := ⟨some body, depth + 1⟩ :: items }
  | _ => none

/-- Adds what an escape or a character stands for. -/
def pushAtom (p : Progress) : Atom → Progress
  | .literal c => p.push (ofSet (p.flags.folded (.single c))) 0
  | .set s => p.push (ofSet s) 0
  | .assertion a => p.push (.assertion a) 0

end Progress

namespace Flags

/-- What the dot matches. -/
def dot (f : Flags) : CharSet :=
  if f.dotAll then .any
  else if f.crlf then ((CharSet.single '\n').union (.single '\r')).complement
  else (CharSet.single '\n').complement

/-- What the circumflex asserts. -/
def startAnchor (f : Flags) : Assertion :=
  if !f.multiLine then .textStart else if f.crlf then .lineStartCrlf else .lineStart

/-- What the dollar sign asserts. -/
def endAnchor (f : Flags) : Assertion :=
  if !f.multiLine then .textEnd else if f.crlf then .lineEndCrlf else .lineEnd

end Flags

/-- Reads the body of a group, up to its closing parenthesis or the end of the text. Each step takes
at least one character, so one unit of fuel for each is enough. -/
def readBody : Nat → Groups → Progress → List Char →
    Option ((Pattern × Nat) × Groups × List Char)
  | 0, _, _, _ => none
  | fuel + 1, groups, p, s =>
    match skipGap p.flags.verbose s with
    | [] => some (p.finish, groups, [])
    | c :: rest =>
      match c with
      | ')' => some (p.finish, groups, c :: rest)
      | '(' =>
        match readOpening p.flags groups (skipGap p.flags.verbose rest) with
        | none => none
        | some (.flags flags, groups, rest) =>
          readBody fuel groups { p with flags := flags, items := ⟨none, 0⟩ :: p.items } rest
        | some (.group flags number, groups, rest) =>
          match readBody fuel groups { flags := flags } rest with
          | some ((inner, depth), groups, ')' :: rest) =>
            let body := number.elim inner (.group · inner)
            readBody fuel groups (p.push body (depth + 1)) rest
          | _ => none
      | '|' => readBody fuel groups p.nextBranch rest
      | '[' =>
        match readClass p.flags (rest.length + 1) rest with
        | some ((set, depth), rest) => readBody fuel groups (p.push (ofSet set) depth) rest
        | none => none
      | '\\' =>
        match readEscape p.flags.verbose rest with
        | some (atom, rest) => readBody fuel groups (p.pushAtom atom) rest
        | none => none
      | '.' => readBody fuel groups (p.push (ofSet p.flags.dot) 0) rest
      | '^' => readBody fuel groups (p.pushAtom (.assertion p.flags.startAnchor)) rest
      | '$' => readBody fuel groups (p.pushAtom (.assertion p.flags.endAnchor)) rest
      | c =>
        if "?*+\x7b".toList.contains c then
          match readRounds p.flags.verbose (c :: rest) with
          | some (least, most, rest) =>
            let (lazy, rest) := readLazyMark rest
            match p.repeatLast? least most lazy with
            | some p => readBody fuel groups p rest
            | none => none
          | none => none
        else readBody fuel groups (p.pushAtom (.literal c)) rest

/-- How deep groups, classes and repetitions may nest. -/
def depthLimit : Nat := 250

/-- The pattern of a text, none if it is malformed or too large. -/
def read? (s : List Char) : Option Pattern :=
  match readBody (s.length + 1) {} { flags := {} } s with
  | some ((p, depth), _, []) => if depth ≤ depthLimit && p.fits then some p else none
  | _ => none

/-! ## Writing literal text -/

/-- The text with a backslash before every character that means something in a pattern. -/
def escapeText (s : List Char) : List Char :=
  s.flatMap fun c => if isMeta c then ['\\', c] else [c]

end ODataEngine.Pattern

namespace ODataEngine

/-- A pattern with the text it was read from. -/
structure Regex where
  source : String
  body : Pattern
  read_source : Pattern.read? source.toList = some body

namespace Regex

/-- The pattern of a text. -/
def ofSource? (source : String) : Option Regex :=
  match h : Pattern.read? source.toList with
  | some body => some ⟨source, body, h⟩
  | none => none

/-- The pattern matches somewhere in the text. -/
def matchesIn (r : Regex) (text : List Char) : Bool := r.body.matchesIn text

theorem ofSource?_source (r : Regex) : ofSource? r.source = some r := by
  obtain ⟨source, body, h⟩ := r
  simp only [ofSource?]
  split
  · rename_i b hb
    rw [h] at hb
    cases hb
    rfl
  · rename_i hn
    rw [h] at hn
    cases hn

end Regex

end ODataEngine
