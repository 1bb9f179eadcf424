import ODataEngine.Edm.Basic
import ODataEngine.Json.Printer
import ODataEngine.Json.Parser
import ODataEngine.Text.Blank
import ODataEngine.Text.Letters

/-!
# Literals of primitive types

Values as they are written in a query option or between the parentheses of an entity's URL, read by
`EdmType.coerce` and, for keys, written by `EdmType.keyLiteral`.
-/

namespace ODataEngine

/-- A literal that does not fit its type. -/
structure CoercionError where
  literal : String
  expected : EdmType
deriving DecidableEq

/-- The wording of a failed coercion. -/
def CoercionError.message (e : CoercionError) : String :=
  s!"cannot read '{e.literal}' as {e.expected.qualifiedName}"

namespace Edm

/-! ## Numbers -/

/-- The integer of 64 bits that decimal digits write, with an optional sign. -/
def readInteger? (s : List Char) : Option Int :=
  let (negative, digits) :=
    match s with
    | '-' :: rest => (true, rest)
    | '+' :: rest => (false, rest)
    | _ => (false, s)
  if digits.isEmpty || !digits.all Char.isDigit then none
  else
    let magnitude : Int := natOfDigits digits
    let n := if negative then -magnitude else magnitude
    if -Nat.pow 2 63 ≤ n && n < Nat.pow 2 63 then some n else none

/-- The sign, digits and power of ten of a decimal literal: an optional sign, digits with an optional
point and at least one digit, an optional exponent. -/
def readDecimal? (s : List Char) : Option (Bool × Nat × Int) :=
  let (negative, s) :=
    match s with
    | '-' :: rest => (true, rest)
    | '+' :: rest => (false, rest)
    | _ => (false, s)
  let whole := s.takeWhile Char.isDigit
  let (fraction, rest) :=
    match s.dropWhile Char.isDigit with
    | '.' :: rest => (rest.takeWhile Char.isDigit, rest.dropWhile Char.isDigit)
    | rest => ([], rest)
  let digits := natOfDigits (whole ++ fraction)
  if whole.isEmpty && fraction.isEmpty then none
  else
    match rest with
    | [] => some (negative, digits, -fraction.length)
    | e :: rest =>
      if e = 'e' || e = 'E' then
        match JsonNumber.readExponent rest with
        | some (exponent, []) => some (negative, digits, exponent - fraction.length)
        | _ => none
      else none

/-- The double nearest to a decimal literal. Literals that round to an infinity are refused. -/
def readFloating? (s : List Char) : Option Binary64 :=
  (readDecimal? s).bind fun (negative, digits, power) => Binary64.ofDecimal negative digits power

/-! ## Identifiers -/

/-- Eight, four, four, four and twelve hexadecimal digits with hyphens between. -/
def isHyphenatedGuid (s : List Char) : Bool :=
  s.length == 36 &&
    s.zipIdx.all fun (c, i) =>
      if i == 8 || i == 13 || i == 18 || i == 23 then c == '-' else (Text.hexDigit? c).isSome

/-- Takes off the braces or the URN marker, in any case, that may surround a hyphenated
identifier. -/
def unwrapGuid (s : List Char) : List Char :=
  match Text.afterStart? ['\x7b'] s with
  | some rest => (Text.beforeEnd? ['\x7d'] rest).getD s
  | none => if Text.lower (s.take 9) = "urn:uuid:".toList then s.drop 9 else s

/-- A universally unique identifier: 32 hexadecimal digits, or the hyphenated form, bare, in braces
or as a URN. -/
def isGuid (s : List Char) : Bool :=
  (s.length == 32 && s.all fun c => (Text.hexDigit? c).isSome) || isHyphenatedGuid (unwrapGuid s)

end Edm

namespace EdmType

/-- The value that an unquoted literal writes. Blanks around it do not count, except for the types
whose values are texts: those take the literal as it is. -/
def coerce (t : EdmType) (literal : String) : Except CoercionError Json :=
  let fail : Except CoercionError Json := .error ⟨literal, t⟩
  let text := Text.trim literal.toList
  if t.isInteger then
    match Edm.readInteger? text with
    | some n => if t.integerRange.1 ≤ n && n ≤ t.integerRange.2 then .ok (.ofInt n) else fail
    | none => fail
  else if t.isFloating then
    match Edm.readFloating? text with
    | some x => .ok (.number (.float x))
    | none => fail
  else
    match t with
    | boolean =>
      if text = "true".toList then .ok (.bool true)
      else if text = "false".toList then .ok (.bool false)
      else fail
    | guid => if Edm.isGuid text then .ok (.string (String.ofList text)) else fail
    -- texts and dates keep their blanks
    | _ => .ok (.string literal)

/-- The text of a key value: a string's own characters, the JSON text of any other value. -/
def keyText : Json → List Char
  | .string s => s.toList
  | v => v.text

/-- A key as it stands between the parentheses of an entity's URL: between quotes, each quote
doubled, if the type is a quoted one. -/
def keyLiteral (t : EdmType) (key : Json) : String :=
  if t.isQuoted then String.ofList ('\'' :: (Text.doubleQuotes (keyText key) ++ ['\'']))
  else String.ofList (keyText key)

end EdmType

end ODataEngine
