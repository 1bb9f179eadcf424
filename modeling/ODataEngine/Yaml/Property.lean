import ODataEngine.Text.Percent
import ODataEngine.Yaml.Character

/-!
# Names, tags and directives

What stands beside the values of a document: names of anchors and aliases, tags, and the directives
in front of it.
-/

namespace ODataEngine.Yaml

/-- A tag as it is written: the handle that stands for its start, and the rest of it. -/
structure TagText where
  handle : List Char
  suffix : List Char
deriving DecidableEq

/-- What a line in front of a document declares: a version, or what a tag handle stands for. -/
inductive Directive where
  | version (major minor : Nat)
  | handle (name start : List Char)
deriving DecidableEq

/-! ## Names -/

/-- May stand in a name. -/
def isNameChar (c : Char) : Bool := c.isAlphanum || c == '_' || c == '-'

/-- The name that a text begins with, and what follows it. -/
def takeName (s : List Placed) : List Char × List Placed :=
  let name := s.takeWhile fun p => isNameChar p.char
  (name.map (·.char), s.drop name.length)

/-- The name of an anchor or alias, and what follows it. -/
def takeAnchor (s : List Placed) : Option (List Char × List Placed) :=
  let (name, rest) := takeName s
  let next := charAt rest 0
  if !name.isEmpty && (isGap next || "?:,]\x7d%@`".toList.contains next) then some (name, rest)
  else none

/-! ## Tags -/

/-- May stand in a tag; some marks only in one between angle brackets. -/
def isTagChar (bracketed : Bool) (c : Char) : Bool :=
  isNameChar c || ";/?:@&=+$.!~*'()".toList.contains c ||
    (bracketed && ",[]".toList.contains c)

/-- How many octets follow the first one of an encoded character. -/
def octetsAfter? (octet : Nat) : Option Nat :=
  if octet < 0x80 then some 0
  else if octet / 32 = 6 then some 1
  else if octet / 16 = 14 then some 2
  else if octet / 8 = 30 then some 3
  else none

/-- The body of a tag, in which octets may be written by their hexadecimal digits, and what follows
it. `owed` octets are missing of the last character. -/
def takeTagBody (bracketed : Bool) : Nat → List Placed → Option (List Char × List Placed)
  | 0, [] => some ([], [])
  | _ + 1, [] => none
  | owed, p :: rest =>
    if p.char = '%' then
      match rest with
      | a :: b :: rest =>
        match Text.hexDigit? a.char, Text.hexDigit? b.char with
        | some high, some low =>
          let octet := high * 16 + low
          let missing :=
            if owed = 0 then octetsAfter? octet
            else if octet / 64 = 2 then some (owed - 1)
            else none
          match missing with
          | some owed =>
            (takeTagBody bracketed owed rest).map fun (text, after) =>
              (Char.ofNat octet :: text, after)
          | none => none
        | _, _ => none
      | _ => none
    else if owed ≠ 0 then none
    else if isTagChar bracketed p.char then
      (takeTagBody bracketed 0 rest).map fun (text, after) => (p.char :: text, after)
    else some ([], p :: rest)

/-- A handle, an exclamation mark with perhaps a name and another one, and what follows it. -/
def takeHandle (s : List Placed) : Option (List Char × List Placed) :=
  if charAt s 0 ≠ '!' then none
  else
    let (name, rest) := takeName (s.drop 1)
    if charAt rest 0 = '!' then some ('!' :: name ++ ['!'], rest.drop 1)
    else some ('!' :: name, rest)

/-- The text is a handle with an exclamation mark at both ends. -/
def isFullHandle (handle : List Char) : Bool := 2 ≤ handle.length && handle.getLast? == some '!'

/-- A tag, and what follows it. -/
def takeTag (inFlow : Bool) (s : List Placed) : Option (TagText × List Placed) := do
  let (tag, rest) ←
    if charAt s 1 = '<' then do
      let (body, rest) ← takeTagBody true 0 (s.drop 2)
      if body.isEmpty || charAt rest 0 ≠ '>' then none
      some (⟨[], body⟩, rest.drop 1)
    else do
      let (handle, rest) ← takeHandle s
      let (body, rest) ← takeTagBody false 0 rest
      if isFullHandle handle then
        if body.isEmpty then none
        some (⟨handle, body⟩, rest)
      else
        -- a mark and a name that are no handle begin a tag of the document's own
        let suffix := handle.drop 1 ++ body
        some (if suffix.isEmpty then ⟨[], ['!']⟩ else ⟨['!'], suffix⟩, rest)
  let next := charAt rest 0
  if isGap next || (inFlow && next == ',') then some (tag, rest) else none

/-! ## Directives -/

/-- The text without blanks at its start. -/
def skipBlanks (s : List Placed) : List Placed := s.dropWhile fun p => isBlank p.char

/-- A number of at most nine digits, and what follows it. -/
def takeNumber (s : List Placed) : Option (Nat × List Placed) :=
  let digits := s.takeWhile fun p => p.char.isDigit
  if digits.isEmpty || 9 < digits.length then none
  else
    some (digits.foldl (fun n p => n * 10 + (p.char.toNat - '0'.toNat)) 0, s.drop digits.length)

/-- The version after the name of its directive. -/
def takeVersion (s : List Placed) : Option (Directive × List Placed) := do
  let (major, s) ← takeNumber (skipBlanks s)
  if charAt s 0 ≠ '.' then none
  let (minor, s) ← takeNumber (s.drop 1)
  return (.version major minor, s)

/-- A handle and what it stands for, after the name of their directive. -/
def takeHandleMeaning (s : List Placed) : Option (Directive × List Placed) := do
  let (name, s) ← takeHandle (skipBlanks s)
  if !(isFullHandle name || name == ['!']) || !isBlank (charAt s 0) then none
  let (start, s) ← takeTagBody true 0 (skipBlanks s)
  if start.isEmpty || !isGap (charAt s 0) then none
  return (.handle name start, s)

/-- A directive after its percent sign, and what follows its line. -/
def takeDirective (s : List Placed) : Option (Directive × List Placed) := do
  let (name, s) := takeName s
  if !isGap (charAt s 0) then none
  let (directive, s) ←
    if name = "YAML".toList then takeVersion s
    else if name = "TAG".toList then takeHandleMeaning s
    else none
  let s := skipBlanks s
  let s := if charAt s 0 = '#' then restOfLine s else s
  if isGap (charAt s 0) then some (directive, s.drop 1) else none

end ODataEngine.Yaml
