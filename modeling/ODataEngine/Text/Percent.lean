import ODataEngine.Text.Bytes
import ODataEngine.Text.Cut

/-!
# Percent escapes and form pairs

`%41` stands for the byte 0x41. A path is read strictly, as UTF-8; a query string is a list of
pairs in which `+` also stands for a blank, read leniently.
-/

namespace ODataEngine.Text

/-- The value of a hexadecimal digit. -/
def hexDigit? (c : Char) : Option Nat :=
  if '0' ≤ c && c ≤ '9' then some (c.toNat - '0'.toNat)
  else if 'a' ≤ c && c ≤ 'f' then some (c.toNat - 'a'.toNat + 10)
  else if 'A' ≤ c && c ≤ 'F' then some (c.toNat - 'A'.toNat + 10)
  else none

/-- The byte that two hexadecimal digits write. -/
def hexByte? (a b : Char) : Option UInt8 :=
  match hexDigit? a, hexDigit? b with
  | some high, some low => some (UInt8.ofNat (high * 16 + low))
  | _, _ => none

/-- The bytes of a text whose percent escapes are resolved; a `%` without two hexadecimal digits
after it stands for itself. -/
def percentBytes : List Char → List UInt8
  | '%' :: a :: b :: rest =>
    match hexByte? a b with
    | some byte => byte :: percentBytes rest
    -- reading goes on right behind the percent sign, which may precede another one
    | none => String.utf8EncodeChar '%' ++ percentBytes (a :: b :: rest)
  | c :: rest => String.utf8EncodeChar c ++ percentBytes rest
  | [] => []

/-- The text of a path with its escapes resolved, if they spell UTF-8. -/
def percentDecode? (s : String) : Option (List Char) := decode? (percentBytes s.toList)

/-- One name or value of a form: `+` is a blank, escapes are resolved, ill-formed UTF-8 becomes
U+FFFD. -/
def formDecode (s : List Char) : String :=
  String.ofList (decodeLenient (percentBytes (s.map fun c => if c = '+' then ' ' else c)))

/-- The pair written by one part of a form; a part without `=` has an empty value. -/
def formPair (part : List Char) : String × String :=
  match cutAtFirst '=' part with
  | some (name, value) => (formDecode name, formDecode value)
  | none => (formDecode part, "")

/-- The pairs of a query string, in order. Empty parts between `&` stand for nothing. -/
def formPairs (s : String) : List (String × String) :=
  ((splitAt '&' s.toList).filter (!·.isEmpty)).map formPair

end ODataEngine.Text
