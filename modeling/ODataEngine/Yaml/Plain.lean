import ODataEngine.Yaml.Character
import ODataEngine.Yaml.Scalar

/-!
# Texts with and without quotes

Which texts may stand as they are, as keys and as values, and how the others are written between
double quotes. A text that a reader could take for a number, a truth value or null, or for the start
of something else, is quoted.
-/

namespace ODataEngine.Yaml

/-! ## Texts that look like other values -/

/-- A word for null or a truth value, in any case. -/
def isConstantWord (s : List Char) : Bool :=
  ["~", "null", "true", "false"].contains (String.ofList (Text.lower s))

/-- A word that some readers take for a truth value, in any case. -/
def isAnswerWord (s : List Char) : Bool :=
  ["y", "yes", "n", "no", "on", "off"].contains (String.ofList (Text.lower s))

/-- A word for a number that is not finite, in any case, with an optional sign. -/
def isNotFiniteWord (s : List Char) : Bool :=
  ["nan", "inf", "infinity", ".nan", ".inf"].contains (String.ofList (Text.lower (signOf s).2))

/-- An integer in one of four bases, with an optional sign, in any case; underscores do not
count. -/
def looksInteger (s : List Char) : Bool :=
  let (base, digits) :=
    match Text.lower (signOf s).2 with
    | '0' :: 'x' :: digits => (16, digits)
    | '0' :: 'o' :: digits => (8, digits)
    | '0' :: 'b' :: digits => (2, digits)
    | digits => (10, digits)
  (digitsValue? base (digits.filter (· ≠ '_'))).isSome

/-- A number with digits. -/
def looksNumber (s : List Char) : Bool := looksInteger s || (Edm.readDecimal? s).isSome

/-! ## Texts without quotes -/

/-- A control character. -/
def isControl (c : Char) : Bool := c.toNat < 0x20 || (0x7F ≤ c.toNat && c.toNat < 0xA0)

/-- May begin a text without quotes. -/
def canBeginPlain (c : Char) : Bool :=
  !(isBlank c || isControl c || isIndicator c || c == '-' || c == '?' || c == ':')

/-- A colon with a blank after it, or at the end. -/
def holdsKeyMark : List Char → Bool
  | [] => false
  | [c] => c == ':'
  | c :: d :: rest => (c == ':' && d == ' ') || holdsKeyMark (d :: rest)

/-- The text may stand without quotes as a key. -/
def isPlainKey (s : List Char) : Bool :=
  s.head?.any canBeginPlain && !isConstantWord s && !looksNumber s &&
    s.all fun c => !(isControl c || c == ':' || c == '#')

/-- The text may stand without quotes as a value. -/
def isPlainValue (s : List Char) : Bool :=
  s.head?.any canBeginPlain && !isConstantWord s && !isAnswerWord s && !isNotFiniteWord s &&
    !looksNumber s && !holdsKeyMark s && s.all fun c => !(isControl c || isFlowMark c || c == '#')

/-! ## Texts between quotes -/

/-- A hexadecimal digit in upper case. -/
def hexDigit (n : Nat) : Char := (Nat.digitChar n).toUpper

/-- How a character is written between double quotes. -/
def quotedChar (c : Char) : List Char :=
  match c with
  | '"' => ['\\', '"']
  | '\\' => ['\\', '\\']
  | '\x00' => ['\\', '0']
  | '\x07' => ['\\', 'a']
  | '\x08' => ['\\', 'b']
  | '\t' => ['\\', 't']
  | '\n' => ['\\', 'n']
  | '\x0b' => ['\\', 'v']
  | '\x0c' => ['\\', 'f']
  | '\r' => ['\\', 'r']
  | '\x1b' => ['\\', 'e']
  | '\u0085' => ['\\', 'N']
  | '\u2028' => ['\\', 'L']
  | '\u2029' => ['\\', 'P']
  | '\ufeff' => "\\uFEFF".toList
  | c => if isControl c then ['\\', 'x', hexDigit (c.toNat / 16), hexDigit (c.toNat % 16)] else [c]

/-- A text between double quotes. -/
def quoted (s : List Char) : List Char := '"' :: (s.flatMap quotedChar ++ ['"'])

end ODataEngine.Yaml
