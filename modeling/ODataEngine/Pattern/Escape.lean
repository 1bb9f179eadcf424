import ODataEngine.Pattern.Basic
import ODataEngine.Text.Blank
import ODataEngine.Text.Percent

/-!
# Flags and escapes of patterns

The smallest parts of the text of a pattern: the flags that change how it is read, the gaps of a
verbose pattern, and the escapes that stand for characters, sets and conditions.
-/

namespace ODataEngine.Pattern

/-! ## Flags -/

/-- The flags in force at a point of a pattern. -/
structure Flags where
  caseless : Bool := false
  multiLine : Bool := false
  dotAll : Bool := false
  verbose : Bool := false
  crlf : Bool := false
  swapGreed : Bool := false

/-- Sets a flag by its letter. Unicode classes cannot be switched off. -/
def Flags.set? (f : Flags) (on : Bool) : Char → Option Flags
  | 'i' => some { f with caseless := on }
  | 'm' => some { f with multiLine := on }
  | 's' => some { f with dotAll := on }
  | 'x' => some { f with verbose := on }
  | 'R' => some { f with crlf := on }
  | 'U' => some { f with swapGreed := on }
  | 'u' => if on then some f else none
  | _ => none

/-- Reads flag letters up to `:` or `)`: the flags then in force, whether the group goes on, and
the rest. `seen` holds the letters so far; none may come twice, nor the minus, and a minus needs a
letter after it. -/
def readFlags (f : Flags) (on : Bool) (seen : List Char) :
    List Char → Option (Flags × Bool × List Char)
  | [] => none
  | ':' :: rest => if seen.head? == some '-' then none else some (f, true, rest)
  | ')' :: rest =>
    if seen.head? == some '-' || seen.isEmpty then none else some (f, false, rest)
  | '-' :: rest => if seen.contains '-' then none else readFlags f false ('-' :: seen) rest
  | c :: rest =>
    if seen.contains c then none
    else
      match f.set? on c with
      | some f => readFlags f on (c :: seen) rest
      | none => none

/-- The set with all case variants, if case does not count. -/
def Flags.folded (f : Flags) (s : CharSet) : CharSet := if f.caseless then s.caseless else s

/-! ## Gaps -/

/-- Drops blanks and comments; inside a comment everything up to the end of the line. -/
def dropGap : Bool → List Char → List Char
  | _, [] => []
  | true, c :: rest => dropGap (c != '\n') rest
  | false, c :: rest =>
    if Text.isBlank c then dropGap false rest
    else if c = '#' then dropGap true rest
    else c :: rest

/-- In a verbose pattern blanks and comments between the parts do not count. -/
def skipGap (verbose : Bool) (s : List Char) : List Char := if verbose then dropGap false s else s

/-! ## Escapes -/

/-- What one escape or one plain character stands for. -/
inductive Atom where
  | literal (c : Char)
  | set (s : CharSet)
  | assertion (a : Assertion)

/-- The characters that mean something in a pattern. -/
def isMeta (c : Char) : Bool := "\\.+*?()|[]\x7b\x7d^$#&-~".toList.contains c

/-- May stand after a backslash for itself: any character of ASCII but letters, digits and angle
brackets. -/
def isEscapable (c : Char) : Bool := c.toNat < 0x80 && !c.isAlphanum && c != '<' && c != '>'

/-- The character of a code point, if it is one. -/
def charOf? (n : Nat) : Option Char := if n.isValidChar then some (Char.ofNat n) else none

/-- Reads exactly `count` hexadecimal digits onto `n`. -/
def readHexDigits (verbose : Bool) (n : Nat) : Nat → List Char → Option (Nat × List Char)
  | 0, s => some (n, s)
  | count + 1, s =>
    match s with
    | [] => none
    | c :: rest =>
      match Text.hexDigit? c with
      | some d => readHexDigits verbose (n * 16 + d) count (skipGap verbose rest)
      | none => none

/-- Reads hexadecimal digits onto `n` up to a closing brace; `any` tells whether there were some. -/
def readHexBrace (verbose any : Bool) (n : Nat) : Nat → List Char → Option (Nat × List Char)
  | 0, _ => none
  | fuel + 1, s =>
    match skipGap verbose s with
    | [] => none
    | '\x7d' :: rest => if any then some (n, rest) else none
    | c :: rest =>
      match Text.hexDigit? c with
      | some d => readHexBrace verbose true (min (n * 16 + d) 0x110000) fuel rest
      | none => none

/-- Reads a code point in hexadecimal: `count` digits, or any number of them in braces. -/
def readHex (verbose : Bool) (count : Nat) (s : List Char) : Option (Atom × List Char) :=
  let code :=
    match skipGap verbose s with
    | '\x7b' :: rest => readHexBrace verbose false 0 (rest.length + 1) rest
    | rest => readHexDigits verbose 0 count rest
  match code with
  | some (n, rest) => (charOf? n).map fun c => (.literal c, skipGap verbose rest)
  | none => none

/-- The word boundary of a name in braces. -/
def boundaryNamed? : String → Option Assertion
  | "start" => some .wordStart
  | "end" => some .wordEnd
  | "start-half" => some .wordStartHalf
  | "end-half" => some .wordEndHalf
  | _ => none

/-- A letter of such a name. -/
def isBoundaryLetter (c : Char) : Bool := c.isAlpha || c == '-'

/-- Reads what may follow `\b`: a name in braces. Braces that begin otherwise are a repetition. -/
def readBoundary (verbose : Bool) (s : List Char) : Option (Atom × List Char) :=
  match s with
  | '\x7b' :: rest =>
    match skipGap verbose rest with
    | [] => none
    | c :: more =>
      if isBoundaryLetter c then
        let inBraces := if verbose then (c :: more).filter (!Text.isBlank ·) else c :: more
        let name := inBraces.takeWhile isBoundaryLetter
        match inBraces.dropWhile isBoundaryLetter, boundaryNamed? (String.ofList name) with
        | '\x7d' :: _, some a =>
          some (.assertion a, (more.dropWhile (· != '\x7d')).drop 1)
        | _, _ => none
      else some (.assertion .wordBoundary, s)
  | _ => some (.assertion .wordBoundary, s)

/-- Reads an escape after its backslash. -/
def readEscape (verbose : Bool) : List Char → Option (Atom × List Char)
  | [] => none
  | c :: rest =>
    match c with
    | 'x' => readHex verbose 2 rest
    | 'u' => readHex verbose 4 rest
    | 'U' => readHex verbose 8 rest
    | 'd' => some (.set .digit, rest)
    | 'D' => some (.set (.complement .digit), rest)
    | 's' => some (.set .blank, rest)
    | 'S' => some (.set (.complement .blank), rest)
    | 'w' => some (.set .word, rest)
    | 'W' => some (.set (.complement .word), rest)
    | 'a' => some (.literal '\x07', rest)
    | 'f' => some (.literal '\x0c', rest)
    | 't' => some (.literal '\t', rest)
    | 'n' => some (.literal '\n', rest)
    | 'r' => some (.literal '\r', rest)
    | 'v' => some (.literal '\x0b', rest)
    | 'A' => some (.assertion .textStart, rest)
    | 'z' => some (.assertion .textEnd, rest)
    | 'b' => readBoundary verbose rest
    | 'B' => some (.assertion .noWordBoundary, rest)
    | '<' => some (.assertion .wordStart, rest)
    | '>' => some (.assertion .wordEnd, rest)
    | c => if isEscapable c then some (.literal c, rest) else none

/-- The set of an item of a class; a condition on a place is none. -/
def Atom.set? : Atom → Option CharSet
  | literal c => some (.single c)
  | set s => some s
  | assertion _ => none

end ODataEngine.Pattern
