import ODataEngine.Edm.Literal
import ODataEngine.Settings.Value
import ODataEngine.Text.Cut

/-!
# Settings from variables

Settings as variables of the environment. Behind a mark common to all, a name lists the sections it
leads through, two underscores between them, in any case. A value is a truth value, a number, a text
in quotes, a list or a map in brackets, or else the text that it is.
-/

namespace ODataEngine.Variables

/-! ## Values -/

/-- A blank around values. -/
def isSpace (c : Char) : Bool := c == ' ' || c == '\t' || c == '\n' || c == '\r' || c == '\x0c'

/-- Ends a value without quotes. -/
def isMark (c : Char) : Bool := ",\x7b\x7d[]".toList.contains c

/-- The text without blanks at its start. -/
def skipSpace (s : List Char) : List Char := s.dropWhile isSpace

/-- The integer from zero up that a text spells, of at most 64 bits. -/
def natural? (s : List Char) : Option Int :=
  let digits :=
    match s with
    | '+' :: rest => rest
    | _ => s
  if digits.isEmpty || !digits.all Char.isDigit then none
  else if natOfDigits digits < Nat.pow 2 64 then some (natOfDigits digits)
  else none

/-- The floating-point number that a text spells; one beyond the greatest is not finite. -/
def floating? (text : List Char) : Option Setting :=
  match Edm.readDecimal? text with
  | some _ => some ((Edm.readFloating? text).elim .notFinite .float)
  | none => none

/-- The value of a text without quotes. Only a number with a point is a floating-point number. -/
def bareValue (text : List Char) : Setting :=
  match if text.contains '.' then floating? text else none with
  | some v => v
  | none =>
    match natural? text, Edm.readInteger? text with
    | some n, _ => .integer n
    | none, some n => .integer n
    | none, none => .text (String.ofList text)

/-- The characters after a backslash that stand for one character. -/
def escapes : List (Char × Char) :=
  [('b', '\x08'), ('f', '\x0c'), ('n', '\n'), ('r', '\r'), ('t', '\t'), ('"', '"'), ('\\', '\\')]

/-- The character of a numeric escape and what follows it. -/
def numericEscape? (digits : Nat) (s : List Char) : Option (Char × List Char) :=
  match if s.length < digits then none else (s.take digits).mapM Text.hexDigit? with
  | some ds =>
    let n := ds.foldl (fun n d => n * 16 + d) 0
    if n.isValidChar then some (Char.ofNat n, s.drop digits) else none
  | none => none

/-- May stand in a text in double quotes. -/
def isTextChar (c : Char) : Bool := c == '\t' || (' ' ≤ c && c != '\x7f')

/-- The rest of a text in double quotes and what follows it. -/
def takeQuoted : Nat → List Char → Option (List Char × List Char)
  | 0, _ => none
  | _ + 1, [] => none
  | _ + 1, '"' :: rest => some ([], rest)
  | fuel + 1, '\\' :: c :: rest =>
    let found :=
      match c with
      | 'u' => numericEscape? 4 rest
      | 'U' => numericEscape? 8 rest
      | c => (escapes.lookup c).map fun d => (d, rest)
    match found with
    | some (d, rest) => (takeQuoted fuel rest).map fun (text, after) => (d :: text, after)
    | none => none
  | fuel + 1, c :: rest =>
    if isTextChar c then (takeQuoted fuel rest).map fun (text, after) => (c :: text, after)
    else none

/-- May stand in the name of a member in braces. -/
def isNameChar (c : Char) : Bool := c.isAlphanum || c == '_' || c == '-'

/-- The name of a member in braces and what follows it. -/
def takeName (s : List Char) : Option (List Char × List Char) :=
  match s with
  | '"' :: rest => takeQuoted (rest.length + 1) rest
  | s =>
    let name := s.takeWhile isNameChar
    if name.isEmpty then none else some (name, s.drop name.length)

mutual

/-- Reads a value and the blanks around it. -/
def takeValue : Nat → List Char → Option (Setting × List Char)
  | 0, _ => none
  | fuel + 1, s =>
    let s := skipSpace s
    let found : Option (Setting × List Char) :=
      match Text.afterStart? "true".toList s, Text.afterStart? "false".toList s with
      | some rest, _ => some (.bool true, rest)
      | none, some rest => some (.bool false, rest)
      | none, none =>
        match s with
        | '\x7b' :: rest => (takeMembers fuel [] rest).map fun (r, after) => (.map r, after)
        | '[' :: rest => (takeItems fuel rest).map fun (items, after) => (.list items, after)
        | '"' :: rest =>
          (takeQuoted (rest.length + 1) rest).map fun (text, after) =>
            (.text (String.ofList text), after)
        | '\'' :: c :: '\'' :: rest => some (.text (String.ofList [c]), rest)
        | '\'' :: _ => none
        | s =>
          let text := s.takeWhile fun c => !isMark c
          some (bareValue (Text.trim text), s.drop text.length)
    found.map fun (v, after) => (v, skipSpace after)

/-- Reads the rest of a list. -/
def takeItems : Nat → List Char → Option (List Setting × List Char)
  | 0, _ => none
  | fuel + 1, s =>
    match s with
    | ']' :: rest => some ([], rest)
    | s =>
      match takeValue fuel s with
      | some (v, ',' :: rest) =>
        (takeItems fuel rest).map fun (items, after) => (v :: items, after)
      | some (v, ']' :: rest) => some ([v], rest)
      | _ => none

/-- Reads the rest of a map. -/
def takeMembers : Nat → List (String × Setting) → List Char →
    Option (List (String × Setting) × List Char)
  | 0, _, _ => none
  | fuel + 1, r, s =>
    match s with
    | '\x7d' :: rest => some (r, rest)
    | s =>
      match takeName (skipSpace s) with
      | none => none
      | some (name, rest) =>
        match skipSpace rest with
        | '=' :: rest =>
          match takeValue fuel rest with
          | some (v, ',' :: rest) => takeMembers fuel (Setting.insert r (String.ofList name) v) rest
          | some (v, '\x7d' :: rest) => some (Setting.insert r (String.ofList name) v, rest)
          | _ => none
        | _ => none

end

/-- The value of a variable. -/
def valueOf (text : String) : Setting :=
  match takeValue (text.length + 1) text.toList with
  | some (v, []) => v
  | _ => .text text

/-! ## Names -/

/-- The mark of the variables that hold settings. -/
def mark : String := "ODATA__"

/-- The text with a point for every two underscores. -/
def pointed : List Char → List Char
  | '_' :: '_' :: rest => '.' :: pointed rest
  | c :: rest => c :: pointed rest
  | [] => []

/-- The sections that a name leads through, none if it is not a name of a setting. -/
def pathOf (name : String) : List String :=
  match Text.afterStart? (Text.lower mark.toList) (Text.lower (Text.trim name.toList)) with
  | some rest =>
    let sections := Text.splitAt '.' (pointed rest)
    if sections.any (·.isEmpty) then [] else sections.map String.ofList
  | none => []

/-- The value under a path of sections. -/
def nested : List String → Setting → Setting
  | [], v => v
  | name :: rest, v => .map [(name, nested rest v)]

/-- The settings that one variable holds. -/
def settingOf (name value : String) : Option Setting :=
  match pathOf name with
  | [] => none
  | path => some (nested path (valueOf value))

end ODataEngine.Variables
