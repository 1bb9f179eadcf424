import ODataEngine.Yaml.Property
import ODataEngine.Yaml.ScalarText

/-!
# Tokens of YAML

Cuts a text into tokens. Besides what is written there are tokens for the start and end of blocks,
which follow from columns, and one before each key. A key shows only at the colon behind it; until
then the place where one may have begun is kept, and its tokens are put there afterwards. Such a key
stands on one line and is not too long.
-/

namespace ODataEngine.Yaml

/-- What a token is. -/
inductive Token where
  | directive (d : Directive)
  | documentStart
  | documentEnd
  | listStart
  | mapStart
  | blockEnd
  | openList
  | closeList
  | openMap
  | closeMap
  | comma
  | dash
  | key
  | colon
  | alias (name : List Char)
  | anchor (name : List Char)
  | tag (t : TagText)
  | scalar (text : List Char) (plain : Bool)
deriving DecidableEq

/-- A place where a key may have begun: the number of tokens before it, and whether a colon has to
follow. -/
structure PendingKey where
  start : Placed
  number : Nat
  required : Bool

/-- The state between two tokens. `level` is one more than the column of the innermost block, and
zero outside of any; `pending` belongs to the innermost brackets, `outer` to those around them, or
to no brackets at all. A key may begin next if `fresh`. The tokens stand latest first. -/
structure Scan where
  level : Nat := 0
  levels : List Nat := []
  pending : Option PendingKey := none
  outer : List (Option PendingKey) := []
  fresh : Bool := true
  count : Nat := 0
  tokens : List Token := []

/-- How far apart a key and its colon may be, in octets. -/
def keyLimit : Nat := 1024

namespace Scan

/-- The place is between brackets. -/
def inFlow (s : Scan) : Bool := !s.outer.isEmpty

/-- The state after one more token. -/
def push (s : Scan) (t : Token) : Scan := { s with count := s.count + 1, tokens := t :: s.tokens }

/-- The state with a token put before all but the first `number` ones. -/
def insertAt (s : Scan) (number : Nat) (t : Token) : Scan :=
  let later := s.count - number
  { s with count := s.count + 1, tokens := s.tokens.take later ++ t :: s.tokens.drop later }

/-! ## Blocks -/

/-- Ends the blocks of all levels above the given one. -/
def endBlocks (s : Scan) (level : Nat) : Nat → Scan
  | 0 => s
  | fuel + 1 =>
    if level < s.level then
      ({ s.push .blockEnd with level := s.levels.headD 0, levels := s.levels.drop 1 }).endBlocks
        level fuel
    else s

/-- Ends the blocks that do not reach a level; between brackets there are none. -/
def leaveBlocks (s : Scan) (level : Nat) : Scan :=
  if s.inFlow then s else s.endBlocks level (s.levels.length + 1)

/-- Begins a block in a column, if that is further right than the innermost one, with its token
after the first `number` ones. -/
def enterBlock (s : Scan) (column number : Nat) (t : Token) : Scan :=
  if s.inFlow || column < s.level then s
  else { s.insertAt number t with level := column + 1, levels := s.level :: s.levels }

/-! ## Keys -/

/-- Gives up the pending key; fails if it needs a colon. -/
def dropKey (s : Scan) : Option Scan :=
  if s.pending.any (·.required) then none else some { s with pending := none }

/-- Keeps a place where a key may begin. -/
def saveKey (s : Scan) (p : Placed) : Option Scan :=
  if s.fresh then
    s.dropKey.map fun s =>
      { s with pending := some ⟨p, s.count, !s.inFlow && s.level == p.column + 1⟩ }
  else some s

/-- A pending key that the place has left behind, by its line or too many octets. -/
def isStale (p : Placed) (k : PendingKey) : Bool :=
  k.start.line < p.line || k.start.offset + keyLimit < p.offset

/-- A pending key as it is at a place; fails if it is left behind and needs a colon. -/
def refresh (p : Placed) : Option PendingKey → Option (Option PendingKey)
  | some k => if isStale p k then (if k.required then none else some none) else some (some k)
  | none => some none

/-- The state at a place: no key is kept that was left behind. -/
def arrive (s : Scan) (p : Placed) : Option Scan := do
  let pending ← refresh p s.pending
  let outer ← s.outer.mapM (refresh p)
  return ({ s with pending, outer }).leaveBlocks (p.column + 1)

/-! ## Tokens -/

/-- The state after a token that may begin a key. -/
def content (s : Scan) (p : Placed) (t : Token) : Option Scan :=
  (s.saveKey p).map fun s => { s.push t with fresh := false }

/-- The state after a token outside of all blocks. -/
def outside (s : Scan) (t : Token) : Option Scan :=
  (s.leaveBlocks 0).dropKey.map fun s => { s.push t with fresh := false }

/-- The state after an opening bracket. -/
def opening (s : Scan) (p : Placed) (t : Token) : Option Scan :=
  (s.saveKey p).map fun s =>
    { s.push t with fresh := true, pending := none, outer := s.pending :: s.outer }

/-- The state after a closing bracket. -/
def closing (s : Scan) (t : Token) : Option Scan :=
  s.dropKey.map fun s =>
    { s.push t with fresh := false, pending := s.outer.headD none, outer := s.outer.drop 1 }

/-- The state after a comma. -/
def afterComma (s : Scan) : Option Scan :=
  s.dropKey.map fun s => { s.push .comma with fresh := true }

/-- The state after a mark that begins an entry of a block. -/
def entry (s : Scan) (p : Placed) (block mark : Token) (fresh : Bool) : Option Scan :=
  if !s.inFlow && !s.fresh then none
  else (s.enterBlock p.column s.count block).dropKey.map fun s => { s.push mark with fresh }

/-- The state after a colon. A pending key before it is a key now. -/
def afterColon (s : Scan) (p : Placed) : Option Scan :=
  match s.pending with
  | some k =>
    let s := (s.insertAt k.number .key).enterBlock k.start.column k.number .mapStart
    some { s.push .colon with pending := none, fresh := false }
  | none =>
    if s.inFlow then some { s.push .colon with fresh := false }
    else if s.fresh then
      some { (s.enterBlock p.column s.count .mapStart).push .colon with fresh := true }
    else none

/-- The token of a bracket or comma that begins with a character, or a quoted scalar, if any. -/
def flowToken? (s : Scan) (p : Placed) (rest : List Placed) : Option (Option (Scan × List Placed)) :=
  match p.char with
  | '[' => some ((s.opening p .openList).map (·, rest))
  | '\x7b' => some ((s.opening p .openMap).map (·, rest))
  | ']' => some ((s.closing .closeList).map (·, rest))
  | '\x7d' => some ((s.closing .closeMap).map (·, rest))
  | ',' => some (s.afterComma.map (·, rest))
  | '\'' => some do
    let (text, after) ← takeSingle {} rest
    return (← s.content p (.scalar text false), after)
  | '"' => some do
    let (text, after) ← takeDouble {} .outside rest
    return (← s.content p (.scalar text false), after)
  | _ => none

/-- The token of a property that begins with a character, if any. -/
def property? (s : Scan) (p : Placed) (rest : List Placed) : Option (Option (Scan × List Placed)) :=
  match p.char with
  | '*' => some do
    let (name, after) ← takeAnchor rest
    return (← s.content p (.alias name), after)
  | '&' => some do
    let (name, after) ← takeAnchor rest
    return (← s.content p (.anchor name), after)
  | '!' => some do
    let (tag, after) ← takeTag s.inFlow (p :: rest)
    return (← s.content p (.tag tag), after)
  | _ => none

/-- The token of a block that begins with a character, if any. -/
def block? (s : Scan) (p : Placed) (rest : List Placed) : Option (Option (Scan × List Placed)) :=
  let atGap := isGap (charAt rest 0)
  match p.char with
  | '-' => if atGap then some ((s.entry p .listStart .dash true).map (·, rest)) else none
  | '?' =>
    if s.inFlow || atGap then some ((s.entry p .mapStart .key (!s.inFlow)).map (·, rest)) else none
  | ':' => if s.inFlow || atGap then some ((s.afterColon p).map (·, rest)) else none
  | '|' | '>' =>
    if s.inFlow then none
    else some do
      let (text, after) ← takeBlock (p.char == '|') s.level rest
      let s ← s.dropKey
      return ({ s.push (.scalar text false) with fresh := true }, after)
  | _ => none

/-- The token of a plain scalar. -/
def plain (s : Scan) (p : Placed) (rest : List Placed) : Option (Scan × List Placed) := do
  if isIndicator p.char || isGap p.char then none
  let (text, crossed, after) ← takePlain s.inFlow s.level {} (p :: rest)
  let s ← s.content p (.scalar text true)
  return ({ s with fresh := crossed }, after)

/-- The token that begins with a character, and what follows it. -/
def token (s : Scan) (p : Placed) (rest : List Placed) : Option (Scan × List Placed) :=
  if p.column == 0 && p.char == '%' then do
    let (d, after) ← takeDirective rest
    return (← s.outside (.directive d), after)
  else if atDocumentMark (p :: rest) then
    (s.outside (if p.char = '-' then .documentStart else .documentEnd)).map (·, rest.drop 2)
  else
    match s.flowToken? p rest with
    | some found => found
    | none =>
      match s.property? p rest with
      | some found => found
      | none => (s.block? p rest).getD (s.plain p rest)

/-- The end of the text: all blocks end. -/
def finish (s : Scan) : Option (List Token) := (s.leaveBlocks 0).dropKey.map (·.tokens.reverse)

/-- Reads over blanks, comments and line ends; outside of brackets a key may begin after a line end,
and no tab may stand where one may begin. -/
def skipGap (inFlow comment fresh : Bool) : List Placed → Bool × List Placed
  | [] => (fresh, [])
  | p :: rest =>
    if isBreak p.char then skipGap inFlow false (fresh || !inFlow) rest
    else if comment then skipGap inFlow true fresh rest
    else if p.char == ' ' || (p.char == '\t' && (inFlow || !fresh)) then
      skipGap inFlow false fresh rest
    else if p.char == '#' then skipGap inFlow true fresh rest
    else (fresh, p :: rest)

/-- All tokens from a state on. Each takes at least one character. -/
def run : Nat → Scan → List Placed → Option (List Token)
  | 0, _, _ => none
  | fuel + 1, s, text =>
    match skipGap s.inFlow false s.fresh text with
    | (_, []) => s.finish
    | (fresh, p :: rest) => do
      let s ← ({ s with fresh }).arrive p
      let (s, after) ← s.token p rest
      run fuel s after

end Scan

/-- The mark of an encoding, which may come before a text. -/
def encodingMark : Char := '\ufeff'

/-- The tokens of a text. -/
def tokens? (s : List Char) : Option (List Token) :=
  if !s.all isAllowed then none
  else
    let s := if s.head? == some encodingMark then s.drop 1 else s
    let placed := place 0 0 0 s
    let placed := if charAt placed 0 = encodingMark then placed.drop 1 else placed
    Scan.run (placed.length + 1) {} placed

end ODataEngine.Yaml
