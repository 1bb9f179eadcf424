import ODataEngine.Edm.Literal
import ODataEngine.Settings.Value

/-!
# Plain scalars

The values that scalars without quotes stand for: null, truth values, integers in four bases,
floating-point numbers, and otherwise texts.
-/

namespace ODataEngine.Yaml

/-- A sign at the start of a text, true for minus, and what follows it. -/
def signOf : List Char → Bool × List Char
  | '-' :: rest => (true, rest)
  | '+' :: rest => (false, rest)
  | s => (false, s)

/-- The number that digits of a base spell. -/
def digitsValue? (base : Nat) (s : List Char) : Option Nat :=
  if s.isEmpty then none
  else
    s.foldlM (fun n c =>
      match Text.hexDigit? c with
      | some d => if d < base then some (n * base + d) else none
      | none => none) 0

/-- A zero with more digits after it is no decimal number. -/
def hasLeadingZero (s : List Char) : Bool :=
  match (signOf s).2 with
  | '0' :: c :: rest => (c :: rest).all Char.isDigit
  | _ => false

/-- The size of an integer without its sign. -/
def magnitude? (s : List Char) : Option Nat :=
  match s with
  | '0' :: 'x' :: digits => digitsValue? 16 digits
  | '0' :: 'o' :: digits => digitsValue? 8 digits
  | '0' :: 'b' :: digits => digitsValue? 2 digits
  | digits => if hasLeadingZero digits then none else digitsValue? 10 digits

/-- The integer that a scalar spells, of at most 128 bits. -/
def integer? (s : List Char) : Option Int :=
  let (negative, rest) := signOf s
  match magnitude? rest with
  | none => none
  | some n =>
    if negative then (if n ≤ Nat.pow 2 127 then some (-n) else none)
    else if n < Nat.pow 2 128 then some n
    else none

/-- The floating-point number that a scalar spells. -/
def floating? (s : List Char) : Option Binary64 :=
  match s with
  | '+' :: '+' :: _ | '+' :: '-' :: _ => none
  | s => Edm.readFloating? s

/-- The words for the numbers that are not finite. -/
def notFiniteWords : List String :=
  [".inf", ".Inf", ".INF", "+.inf", "+.Inf", "+.INF", "-.inf", "-.Inf", "-.INF", ".nan", ".NaN",
    ".NAN"]

/-- The words for null. -/
def nullWords : List String := ["~", "null", "Null", "NULL"]

/-- The words for true. -/
def trueWords : List String := ["true", "True", "TRUE"]

/-- The words for false. -/
def falseWords : List String := ["false", "False", "FALSE"]

/-- The truth value that a scalar spells. -/
def truth? (text : String) : Option Bool :=
  if trueWords.contains text then some true
  else if falseWords.contains text then some false
  else none

/-- The floating-point number that a scalar spells, finite or not. -/
def number? (s : List Char) : Option Setting :=
  if notFiniteWords.contains (String.ofList s) then some .notFinite
  else (floating? s).map .float

/-- The value of a scalar without quotes. -/
def plainValue (s : List Char) : Setting :=
  let text := String.ofList s
  if s.isEmpty || nullWords.contains text then .null
  else
    match truth? text, integer? s with
    | some b, _ => .bool b
    | none, some n => .integer n
    | none, none => if hasLeadingZero s then .text text else (number? s).getD (.text text)

end ODataEngine.Yaml
