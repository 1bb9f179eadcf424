import ODataEngine.Json.Basic
import ODataEngine.Number.Shortest

/-!
# JSON text of a value

Compact: no blanks, members in their order. Only the quote, the backslash and the characters below
U+0020 are escaped. A double keeps a point or an exponent, so that it reads back as a double.
-/

namespace ODataEngine

/-! ## Numbers -/

/-- How doubles are laid out: the decimal exponents written positionally, as the place of the point
before or after the first digit. -/
structure FloatLayout where
  leastPoint : Int
  greatestPoint : Int

/-- Positional from `0.00001` to below `1e+16`; otherwise the exponent with its sign. -/
def FloatLayout.json : FloatLayout := ⟨-4, 16⟩

/-- The decimal digits of a natural number. -/
def digitsOf (n : Nat) : List Char := Nat.toDigits 10 n

/-- The decimal text of an integer. -/
def integerText (n : Int) : List Char :=
  if n < 0 then '-' :: digitsOf n.natAbs else digitsOf n.natAbs

/-- Digits whose point stands after the first `point` of them, with zeros where digits are
missing. -/
def positional (digits : List Char) (point : Int) : List Char :=
  if point ≤ 0 then '0' :: '.' :: (List.replicate (-point).toNat '0' ++ digits)
  else if digits.length ≤ point.toNat then
    digits ++ List.replicate (point.toNat - digits.length) '0' ++ ['.', '0']
  else digits.take point.toNat ++ '.' :: digits.drop point.toNat

/-- Digits with the point after the first and the exponent with its sign. -/
def scientific (digits : List Char) (exponent : Int) : List Char :=
  let mantissa :=
    match digits with
    | [d] => [d]
    | d :: rest => d :: '.' :: rest
    | [] => []
  mantissa ++ 'e' :: (if exponent < 0 then '-' else '+') :: digitsOf exponent.natAbs

/-- The text of a double in a layout. -/
def FloatLayout.text (layout : FloatLayout) (x : Binary64) : List Char :=
  let sign := if x.negative then ['-'] else []
  if x.rank == 0 then sign ++ ['0', '.', '0']
  else
    let decimal := x.shortest
    let digits := digitsOf decimal.digits
    let point := decimal.power + digits.length
    if layout.leastPoint ≤ point && point ≤ layout.greatestPoint then
      sign ++ positional digits point
    else sign ++ scientific digits (point - 1)

/-- The text of a number. -/
def JsonNumber.text : JsonNumber → List Char
  | .int n => integerText n
  | .float x => FloatLayout.json.text x

/-! ## Strings -/

/-- A hexadecimal digit in lower case. -/
def hexChar (n : Nat) : Char := Nat.digitChar n

/-- How a character is written between the quotes. -/
def escapeChar (c : Char) : List Char :=
  if c = '"' then ['\\', '"']
  else if c = '\\' then ['\\', '\\']
  else if c = '\n' then ['\\', 'n']
  else if c = '\r' then ['\\', 'r']
  else if c = '\t' then ['\\', 't']
  else if c = '\x08' then ['\\', 'b']
  else if c = '\x0c' then ['\\', 'f']
  else if c.toNat < 0x20 then
    ['\\', 'u', '0', '0', hexChar (c.toNat / 16), hexChar (c.toNat % 16)]
  else [c]

/-- A text between quotes. -/
def quoted (s : List Char) : List Char := '"' :: (s.flatMap escapeChar ++ ['"'])

/-! ## Values -/

namespace Json

mutual

/-- The JSON text of a value. -/
def text : Json → List Char
  | .null => "null".toList
  | .bool true => "true".toList
  | .bool false => "false".toList
  | .number n => n.text
  | .string s => quoted s.toList
  | .array items => '[' :: itemsText items
  | .object members => '\x7b' :: membersText members

/-- The items of an array and its closing bracket. -/
def itemsText : List Json → List Char
  | [] => [']']
  | [item] => item.text ++ [']']
  | item :: rest => item.text ++ ',' :: itemsText rest

/-- The members of an object and its closing brace. -/
def membersText : List (String × Json) → List Char
  | [] => ['\x7d']
  | [(name, value)] => quoted name.toList ++ ':' :: (value.text ++ ['\x7d'])
  | (name, value) :: rest => quoted name.toList ++ ':' :: (value.text ++ ',' :: membersText rest)

end

/-- The JSON text of a value as a string. -/
def render (v : Json) : String := String.ofList v.text

end Json

end ODataEngine
