import ODataEngine.Json.Basic
import ODataEngine.Text.Percent

/-!
# Values of JSON text

One value with blanks around it and nothing else. Arrays and objects nest at most 127 deep, a name
that an object repeats keeps its first place and its last value, and every `\u` escape of a
surrogate needs its partner.
-/

namespace ODataEngine

/-! ## Numbers -/

/-- The value of a decimal digit. -/
def digitValue (c : Char) : Nat := c.toNat - '0'.toNat

/-- The number that decimal digits write. -/
def natOfDigits (digits : List Char) : Nat := digits.foldl (fun n c => n * 10 + digitValue c) 0

namespace JsonNumber

/-- Appends digits to `n` as long as the result fits 64 bits; the digits left out come second. -/
def appendDigits (n : Nat) : List Char → Nat × List Char
  | [] => (n, [])
  | c :: rest =>
    let next := n * 10 + digitValue c
    if next < Nat.pow 2 64 then appendDigits next rest else (n, c :: rest)

/-- The double of a power of ten. -/
def powerOfTen (k : Nat) : Binary64 := (Binary64.ofDecimal false 1 k).getD Binary64.zero

/-- `x * 10 ^ power` with one rounding, or, below the powers that are doubles themselves, with one
more for each `10 ^ 308` taken off first; none if the result is beyond the greatest double. Two such
steps take every 64-bit integer to zero. -/
def scaleTen (x : Binary64) (power : Int) : Nat → Option Binary64
  | 0 => some { x with rank := 0, rank_lt := by decide }
  | rounds + 1 =>
    if x.rank == 0 then some x
    else if 308 < power then none
    else if 0 ≤ power then x.mul? (powerOfTen power.toNat)
    else if -308 ≤ power then x.div? (powerOfTen (-power).toNat)
    else
      match x.div? (powerOfTen 308) with
      | some y => scaleTen y (power + 308) rounds
      | none => none

/-- The double of a literal with a fraction or an exponent, or with too many digits for 64 bits: the
leading digits that fit are rounded first and then scaled. -/
def floatOf (negative : Bool) (whole fraction : List Char) (exponent : Int) : Option JsonNumber :=
  let (n, dropped) := appendDigits 0 whole
  let (n, unused) := appendDigits n fraction
  -- digits that did not fit count as places only
  let power := exponent + dropped.length - (fraction.length - unused.length : Nat)
  match scaleTen (Binary64.ofInt n) power 4 with
  | some x => some (.float (if negative then x.neg else x))
  | none => none

/-- The number of a literal without fraction and exponent. What fits 64 bits is an integer, but
`-0` is a double. -/
def integerOf (negative : Bool) (whole : List Char) : Option JsonNumber :=
  let n := natOfDigits whole
  if Nat.pow 2 64 ≤ n then floatOf negative whole [] 0
  else if !negative then some (.int n)
  -- a negative zero and what lies below the 64-bit integers are doubles
  else if n == 0 || Nat.pow 2 63 < n then some (.float (Binary64.ofInt n).neg)
  else some (.int (-n))

/-- Reads the digits of an exponent, with or without sign. -/
def readExponent (s : List Char) : Option (Int × List Char) :=
  let (negative, s) :=
    match s with
    | '-' :: rest => (true, rest)
    | '+' :: rest => (false, rest)
    | _ => (false, s)
  let digits := s.takeWhile Char.isDigit
  if digits.isEmpty then none
  else
    let n : Int := natOfDigits digits
    some (if negative then -n else n, s.dropWhile Char.isDigit)

/-- Reads a number from the start of a text. -/
def read (s : List Char) : Option (JsonNumber × List Char) :=
  let (negative, s) :=
    match s with
    | '-' :: rest => (true, rest)
    | _ => (false, s)
  let whole := s.takeWhile Char.isDigit
  let rest := s.dropWhile Char.isDigit
  -- a number has digits, and no zero in front of others
  if whole.isEmpty || (1 < whole.length && whole.head? == some '0') then none
  else
    let fraction? : Option (Option (List Char) × List Char) :=
      match rest with
      | '.' :: rest =>
        let digits := rest.takeWhile Char.isDigit
        if digits.isEmpty then none else some (some digits, rest.dropWhile Char.isDigit)
      | _ => some (none, rest)
    match fraction? with
    | none => none
    | some (fraction, rest) =>
      let exponent? : Option (Option Int × List Char) :=
        match rest with
        | 'e' :: rest => (readExponent rest).map fun (e, rest) => (some e, rest)
        | 'E' :: rest => (readExponent rest).map fun (e, rest) => (some e, rest)
        | _ => some (none, rest)
      match exponent? with
      | none => none
      | some (exponent, rest) =>
        let number :=
          match fraction, exponent with
          | none, none => integerOf negative whole
          | _, _ => floatOf negative whole (fraction.getD []) (exponent.getD 0)
        number.map fun n => (n, rest)

end JsonNumber

/-! ## Strings -/

namespace Json

/-- The character that a backslash and one more character stand for. -/
def escaped? : Char → Option Char
  | '"' => some '"'
  | '\\' => some '\\'
  | '/' => some '/'
  | 'b' => some '\x08'
  | 'f' => some '\x0c'
  | 'n' => some '\n'
  | 'r' => some '\r'
  | 't' => some '\t'
  | _ => none

/-- The number of four hexadecimal digits. -/
def codeUnit? (a b c d : Char) : Option Nat :=
  match Text.hexDigit? a, Text.hexDigit? b, Text.hexDigit? c, Text.hexDigit? d with
  | some a, some b, some c, some d => some (((a * 16 + b) * 16 + c) * 16 + d)
  | _, _, _, _ => none

/-- The code unit is the first of a pair. -/
def isHighSurrogate (unit : Nat) : Bool := 0xD800 ≤ unit && unit ≤ 0xDBFF

/-- The code unit is the second of a pair. -/
def isLowSurrogate (unit : Nat) : Bool := 0xDC00 ≤ unit && unit ≤ 0xDFFF

/-- Reads the rest of a string after its opening quote. -/
def readString : List Char → Option (List Char × List Char)
  | [] => none
  | '"' :: rest => some ([], rest)
  | '\\' :: 'u' :: a :: b :: c :: d :: rest =>
    match codeUnit? a b c d with
    | none => none
    | some unit =>
      if isHighSurrogate unit then
        match rest with
        | '\\' :: 'u' :: e :: f :: g :: h :: rest =>
          match codeUnit? e f g h with
          | some low =>
            if isLowSurrogate low then
              let code := 0x10000 + (unit - 0xD800) * 0x400 + (low - 0xDC00)
              (readString rest).map fun (s, rest) => (Text.charOf code :: s, rest)
            else none
          | none => none
        | _ => none
      else if isLowSurrogate unit then none
      else (readString rest).map fun (s, rest) => (Text.charOf unit :: s, rest)
  | '\\' :: c :: rest =>
    match escaped? c with
    | some c => (readString rest).map fun (s, rest) => (c :: s, rest)
    | none => none
  | c :: rest =>
    if c.toNat < 0x20 then none else (readString rest).map fun (s, rest) => (c :: s, rest)

/-! ## Values -/

/-- A blank between the tokens of JSON text. -/
def isSpace (c : Char) : Bool := c == ' ' || c == '\n' || c == '\t' || c == '\r'

/-- The text after its blanks. -/
def skipSpace (s : List Char) : List Char := s.dropWhile isSpace

mutual

/-- Reads a value; `depth` more arrays and objects may open. Each step spends one unit of fuel, and
twice the length of the text is enough. -/
def readValue (depth : Nat) : Nat → List Char → Option (Json × List Char)
  | 0, _ => none
  | fuel + 1, s =>
    match skipSpace s with
    | 'n' :: 'u' :: 'l' :: 'l' :: rest => some (.null, rest)
    | 't' :: 'r' :: 'u' :: 'e' :: rest => some (.bool true, rest)
    | 'f' :: 'a' :: 'l' :: 's' :: 'e' :: rest => some (.bool false, rest)
    | '"' :: rest => (readString rest).map fun (s, rest) => (.string (String.ofList s), rest)
    | '[' :: rest =>
      if depth = 0 then none
      else
        match skipSpace rest with
        | ']' :: rest => some (.array [], rest)
        | _ => (readItems (depth - 1) fuel rest).map fun (items, rest) => (.array items, rest)
    | '\x7b' :: rest =>
      if depth = 0 then none
      else
        match skipSpace rest with
        | '\x7d' :: rest => some (.object [], rest)
        | _ => (readMembers (depth - 1) fuel [] rest).map fun (r, rest) => (.object r, rest)
    | s => (JsonNumber.read s).map fun (n, rest) => (.number n, rest)

/-- Reads the items of an array, at least one, and its closing bracket. -/
def readItems (depth : Nat) : Nat → List Char → Option (List Json × List Char)
  | 0, _ => none
  | fuel + 1, s =>
    match readValue depth fuel s with
    | none => none
    | some (item, rest) =>
      match skipSpace rest with
      | ']' :: rest => some ([item], rest)
      | ',' :: rest => (readItems depth fuel rest).map fun (items, rest) => (item :: items, rest)
      | _ => none

/-- Reads the members of an object, at least one, onto those read before, and its closing brace. -/
def readMembers (depth : Nat) : Nat → Record → List Char → Option (Record × List Char)
  | 0, _, _ => none
  | fuel + 1, sofar, s =>
    match skipSpace s with
    | '"' :: rest =>
      match readString rest with
      | none => none
      | some (name, rest) =>
        match skipSpace rest with
        | ':' :: rest =>
          match readValue depth fuel rest with
          | none => none
          | some (value, rest) =>
            let sofar := Record.insert sofar (String.ofList name) value
            match skipSpace rest with
            | '\x7d' :: rest => some (sofar, rest)
            | ',' :: rest => readMembers depth fuel sofar rest
            | _ => none
        | _ => none
    | _ => none

end

/-- The value of a JSON text, none if the text is malformed. -/
def parse (s : List Char) : Option Json :=
  match readValue 127 (2 * s.length + 2) s with
  | some (value, rest) => if (skipSpace rest).isEmpty then some value else none
  | none => none

end Json

end ODataEngine
