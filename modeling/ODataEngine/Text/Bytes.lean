/-!
# Bytes and UTF-8

Texts as bytes. `nextChar` reads one character, or the longest beginning of one that is cut short;
the strict reader fails on the latter and the lenient reader writes U+FFFD for it.
-/

namespace ODataEngine.Text

/-- The UTF-8 form of a text. -/
def bytesOf (s : List Char) : List UInt8 := s.flatMap String.utf8EncodeChar

/-- The character of a code point, U+FFFD for one that is none. -/
def charOf (n : Nat) : Char := if n.isValidChar then Char.ofNat n else '\uFFFD'

/-- The byte continues a character. -/
def isContinuation (b : UInt8) : Bool := 0x80 ≤ b.toNat && b.toNat ≤ 0xBF

/-- How the bytes after a leading byte must go on: the range of the second byte and the number of
bytes that follow the leading one. -/
structure Lead where
  low : Nat
  high : Nat
  following : Nat

/-- What a leading byte asks for. The narrow ranges keep out long forms, surrogates and code points
above U+10FFFF. -/
def leadOf (b : UInt8) : Option Lead :=
  let n := b.toNat
  if 0xC2 ≤ n && n ≤ 0xDF then some ⟨0x80, 0xBF, 1⟩
  else if n == 0xE0 then some ⟨0xA0, 0xBF, 2⟩
  else if n == 0xED then some ⟨0x80, 0x9F, 2⟩
  else if 0xE1 ≤ n && n ≤ 0xEF then some ⟨0x80, 0xBF, 2⟩
  else if n == 0xF0 then some ⟨0x90, 0xBF, 3⟩
  else if n == 0xF4 then some ⟨0x80, 0x8F, 3⟩
  else if 0xF1 ≤ n && n ≤ 0xF3 then some ⟨0x80, 0xBF, 3⟩
  else none

/-- Reads up to `count` continuation bytes onto `code`: the code point, if all were there, and the
number of bytes read. -/
def continueCode (code : Nat) : Nat → List UInt8 → Option Nat × Nat
  | 0, _ => (some code, 0)
  | _ + 1, [] => (none, 0)
  | count + 1, b :: rest =>
    if isContinuation b then
      let (result, used) := continueCode (code * 64 + b.toNat % 64) count rest
      (result, used + 1)
    else (none, 0)

/-- The character that begins with byte `b`, if it is complete, and the number of bytes of `rest`
that belong to it. -/
def nextChar (b : UInt8) (rest : List UInt8) : Option Char × Nat :=
  if b.toNat < 0x80 then (some (charOf b.toNat), 0)
  else
    match leadOf b, rest with
    | some lead, second :: _ =>
      if lead.low ≤ second.toNat && second.toNat ≤ lead.high then
        let high := b.toNat % Nat.pow 2 (6 - lead.following)
        let (code, used) := continueCode high lead.following rest
        (code.map charOf, used)
      else (none, 0)
    | _, _ => (none, 0)

/-- The text that the bytes spell, each ill-formed stretch read as U+FFFD. -/
def decodeLenient (bytes : List UInt8) : List Char :=
  match bytes with
  | [] => []
  | b :: rest =>
    let (c, used) := nextChar b rest
    c.getD '\uFFFD' :: decodeLenient (rest.drop used)
termination_by bytes.length
decreasing_by simp only [List.length_drop, List.length_cons]; omega

/-- The text that the bytes spell, if they are well-formed UTF-8. -/
def decode? (bytes : List UInt8) : Option (List Char) :=
  match bytes with
  | [] => some []
  | b :: rest =>
    match nextChar b rest with
    | (some c, used) => (decode? (rest.drop used)).map (c :: ·)
    | (none, _) => none
termination_by bytes.length
decreasing_by simp only [List.length_drop, List.length_cons]; omega

end ODataEngine.Text
