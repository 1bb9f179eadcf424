import ODataEngine.Text.Percent
import ODataEngine.Yaml.Character

/-!
# Texts of scalars

The four ways to write a scalar, plain, in single quotes, in double quotes and as a block of lines,
each read from where it begins to its text and what follows it.
-/

namespace ODataEngine.Yaml

/-! ## Plain scalars -/

/-- The rest of a plain scalar after a gap, whether line breaks come before what follows it, and
what follows it. Its lines begin in the column `floor` or further right, but not between brackets. -/
def takePlain (inFlow : Bool) (floor : Nat) :
    Gap → List Placed → Option (List Char × Bool × List Placed)
  | gap, [] => some ([], gap.crossed, [])
  | gap, p :: rest =>
    let c := p.char
    let next := charAt rest 0
    if isBlank c then
      if gap.crossed && p.column < floor && c == '\t' then none
      else takePlain inFlow floor (gap.addBlank c) rest
    else if isBreak c then takePlain inFlow floor (gap.addBreak c) rest
    else if gap.crossed && ((!inFlow && p.column < floor) || atDocumentMark (p :: rest)) then
      some ([], true, p :: rest)
    else if !gap.isNone && c == '#' then some ([], gap.crossed, p :: rest)
    -- a colon before another mark is neither part of a scalar nor the end of a key
    else if inFlow && c == ':' && (isFlowMark next || next == '?') then none
    else if (c == ':' && isGap next) || (inFlow && isFlowMark c) then
      some ([], gap.crossed, p :: rest)
    else
      (takePlain inFlow floor {} rest).map fun (text, after) => (gap.text ++ c :: text, after)

/-! ## Quoted scalars -/

/-- The rest of a scalar in single quotes, where two quotes stand for one. -/
def takeSingle : Gap → List Placed → Option (List Char × List Placed)
  | _, [] => none
  | gap, p :: rest =>
    let c := p.char
    if isBlank c then takeSingle (gap.addBlank c) rest
    else if isBreak c then takeSingle (gap.addBreak c) rest
    else if atDocumentMark (p :: rest) then none
    else if c == '\'' then
      match rest with
      | q :: more =>
        if q.char == '\'' then
          (takeSingle {} more).map fun (text, after) => (gap.text ++ '\'' :: text, after)
        else some (gap.text, q :: more)
      | [] => some (gap.text, [])
    else (takeSingle {} rest).map fun (text, after) => (gap.text ++ c :: text, after)

/-- The characters that stand for themselves or another after a backslash. -/
def escapes : List (Char × Char) :=
  [('0', '\x00'), ('a', '\x07'), ('b', '\x08'), ('t', '\t'), ('\t', '\t'), ('n', '\n'),
    ('v', '\x0b'), ('f', '\x0c'), ('r', '\r'), ('e', '\x1b'), (' ', ' '), ('"', '"'), ('/', '/'),
    ('\\', '\\'), ('N', '\u0085'), ('_', '\u00a0'), ('L', '\u2028'), ('P', '\u2029')]

/-- How many digits follow the letter of a numeric escape. -/
def escapeDigits : Char → Option Nat
  | 'x' => some 2
  | 'u' => some 4
  | 'U' => some 8
  | _ => none

/-- What of an escape was read: nothing, its backslash, or some of its digits. -/
inductive Escape where
  | outside
  | begun
  | digits (missing value : Nat)

/-- The rest of a scalar in double quotes. -/
def takeDouble : Gap → Escape → List Placed → Option (List Char × List Placed)
  | _, _, [] => none
  | gap, .digits missing value, p :: rest =>
    match Text.hexDigit? p.char with
    | none => none
    | some d =>
      let value := value * 16 + d
      if 1 < missing then takeDouble gap (.digits (missing - 1) value) rest
      else if value.isValidChar then
        (takeDouble gap .outside rest).map fun (text, after) => (Char.ofNat value :: text, after)
      else none
  | gap, .begun, p :: rest =>
    if isBreak p.char then takeDouble { escaped := true } .outside rest
    else
      match escapeDigits p.char, escapes.lookup p.char with
      | some n, _ => takeDouble gap (.digits n 0) rest
      | none, some c =>
        (takeDouble gap .outside rest).map fun (text, after) => (c :: text, after)
      | none, none => none
  | gap, .outside, p :: rest =>
    let c := p.char
    if isBlank c then takeDouble (gap.addBlank c) .outside rest
    else if isBreak c then takeDouble (gap.addBreak c) .outside rest
    else if atDocumentMark (p :: rest) then none
    else if c == '"' then some (gap.text, rest)
    else if c == '\\' then
      (takeDouble {} .begun rest).map fun (text, after) => (gap.text ++ text, after)
    else (takeDouble {} .outside rest).map fun (text, after) => (gap.text ++ c :: text, after)

/-! ## Blocks of lines -/

/-- What becomes of the line breaks at the end of a block. -/
inductive Chomping where
  | strip
  | clip
  | keep
deriving DecidableEq

/-- The head of a block of lines. Without `indent` its first line tells how far it is indented. -/
structure BlockHead where
  literal : Bool
  chomping : Chomping := .clip
  indent : Option Nat := none

/-- Reads what becomes of the last line breaks. -/
def takeChomping (h : BlockHead) : List Placed → BlockHead × List Placed
  | [] => (h, [])
  | p :: rest =>
    if p.char = '+' then ({ h with chomping := .keep }, rest)
    else if p.char = '-' then ({ h with chomping := .strip }, rest)
    else (h, p :: rest)

/-- Reads how far a block is indented, if it says so; never by zero. -/
def takeIndent (h : BlockHead) : List Placed → Option (BlockHead × List Placed)
  | [] => some (h, [])
  | p :: rest =>
    if p.char = '0' then none
    else if p.char.isDigit then some ({ h with indent := some (p.char.toNat - '0'.toNat) }, rest)
    else some (h, p :: rest)

/-- Reads the head of a block after its first mark, up to the end of its line. -/
def takeBlockHead (literal : Bool) (s : List Placed) : Option (BlockHead × List Placed) := do
  let start : BlockHead := { literal }
  let (h, s) ←
    match takeChomping start s with
    | ({ chomping := .clip, .. }, s) => do
      let (h, s) ← takeIndent start s
      pure (if h.indent.isSome then takeChomping h s else (h, s))
    | (h, s) => takeIndent h s
  let s := s.dropWhile fun p => isBlank p.char
  let s := if charAt s 0 = '#' then restOfLine s else s
  match s with
  | [] => some (h, [])
  | p :: rest => if isBreak p.char then some (h, rest) else none

/-- Reads over indentation and empty lines: the breaks of these, the greatest column reached, and
what follows. Without `indent` all blanks at the start of a line belong to the indentation. -/
def takeEmptyLines (indent : Option Nat) (widest : Nat) :
    List Placed → Option (List Char × Nat × List Placed)
  | [] => some ([], widest, [])
  | p :: rest =>
    let inside := indent.all (p.column < ·)
    if inside && p.char == ' ' then takeEmptyLines indent widest rest
    else if inside && p.char == '\t' then none
    else if isBreak p.char then
      (takeEmptyLines indent (max widest p.column) rest).map fun (breaks, after) =>
        (p.char :: breaks, after)
    else some ([], max widest p.column, p :: rest)

/-- The lines of a block: their text, the break after the last of them, the breaks of the empty
lines after that, and what follows. `lead` and `empty` are the breaks before the next line;
`indented` tells that the line before it began with a blank. -/
def takeLines (literal : Bool) (indent : Nat) :
    Nat → List Char → List Char → Bool → List Placed →
      Option (List Char × List Char × List Char × List Placed)
  | 0, _, _, _, _ => none
  | _ + 1, lead, empty, _, [] => some ([], lead, empty, [])
  | fuel + 1, lead, empty, indented, p :: rest =>
    if p.column ≠ indent then some ([], lead, empty, p :: rest)
    else
      let blank := isBlank p.char
      -- lines are joined where neither of them begins with a blank
      let joined := !literal && lead == ['\n'] && !indented && !blank
      let between := (if !joined then lead else if empty.isEmpty then [' '] else []) ++ empty
      let line := (p :: rest).takeWhile fun q => !isBreak q.char
      let (lead, rest) :=
        match (p :: rest).drop line.length with
        | q :: rest => ([q.char], rest)
        | [] => ([], [])
      match takeEmptyLines (some indent) 0 rest with
      | none => none
      | some (empty, _, rest) =>
        (takeLines literal indent fuel lead empty blank rest).map fun (text, after) =>
          (between ++ line.map (·.char) ++ text, after)

/-- A block of lines after its first mark, inside a block whose lines begin in the column `floor` or
further right. -/
def takeBlock (literal : Bool) (floor : Nat) (s : List Placed) :
    Option (List Char × List Placed) := do
  let (head, s) ← takeBlockHead literal s
  let given := head.indent.map (floor - 1 + ·)
  let (empty, widest, s) ← takeEmptyLines given 0 s
  let indent := given.getD (max widest (max floor 1))
  let (text, lead, empty, s) ← takeLines literal indent (s.length + 1) [] empty false s
  let tail :=
    match head.chomping with
    | .strip => []
    | .clip => lead
    | .keep => lead ++ empty
  return (text ++ tail, s)

end ODataEngine.Yaml
