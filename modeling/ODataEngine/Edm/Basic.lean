import ODataEngine.Json.Basic

/-!
# Primitive types of the entity data model

The types a field can be declared with, their names, and which JSON values each of them admits.
-/

namespace ODataEngine

/-- A primitive type. -/
inductive EdmType where
  | boolean
  | byte
  | int16
  | int32
  | int64
  | single
  | double
  | decimal
  | string
  | guid
  | date
  | dateTimeOffset
deriving DecidableEq, Repr

namespace EdmType

/-- The name without its namespace. -/
def name : EdmType → String
  | boolean => "Boolean"
  | byte => "Byte"
  | int16 => "Int16"
  | int32 => "Int32"
  | int64 => "Int64"
  | single => "Single"
  | double => "Double"
  | decimal => "Decimal"
  | string => "String"
  | guid => "Guid"
  | date => "Date"
  | dateTimeOffset => "DateTimeOffset"

/-- The name as documents write it. -/
def qualifiedName (t : EdmType) : String := "Edm." ++ t.name

/-- All primitive types. -/
def all : List EdmType :=
  [boolean, byte, int16, int32, int64, single, double, decimal, string, guid, date, dateTimeOffset]

/-- The type of a name, with or without its namespace, spelled exactly. -/
def ofName? (s : String) : Option EdmType := all.find? fun t => s == t.name || s == t.qualifiedName

/-- A type of whole numbers. -/
def isInteger : EdmType → Bool
  | byte | int16 | int32 | int64 => true
  | _ => false

/-- A type of numbers with a fraction. -/
def isFloating : EdmType → Bool
  | single | double | decimal => true
  | _ => false

/-- A type of numbers. -/
def isNumeric (t : EdmType) : Bool := t.isInteger || t.isFloating

/-- Values of the type stand between quotes in a URL; only numbers and booleans do not. -/
def isQuoted (t : EdmType) : Bool := !(t.isNumeric || t == boolean)

/-- The least and the greatest number of an integer type; other types have those of 64 bits. -/
def integerRange : EdmType → Int × Int
  | byte => (0, 255)
  | int16 => (-Nat.pow 2 15, Nat.pow 2 15 - 1)
  | int32 => (-Nat.pow 2 31, Nat.pow 2 31 - 1)
  | _ => (-Nat.pow 2 63, Nat.pow 2 63 - 1)

theorem integerRange_bounds (t : EdmType) :
    -Nat.pow 2 63 ≤ t.integerRange.1 ∧ t.integerRange.2 < Nat.pow 2 63 := by
  cases t <;> decide

/-- The value may stand in a field of the type. Integers are not checked against the range, and
texts not against the form of dates and identifiers. -/
def accepts (t : EdmType) : Json → Bool
  | .null => true
  | .bool _ => t == boolean
  | .number n => if t.isInteger then n.isInteger else t.isFloating
  | .string _ => t.isQuoted
  | .array _ | .object _ => false

theorem accepts_number_iff (t : EdmType) (n : JsonNumber) :
    t.accepts (.number n) = true ↔
      (t.isInteger = true ∧ n.isInteger = true) ∨ t.isFloating = true := by
  cases t <;> simp [accepts, isInteger, isFloating]

end EdmType

end ODataEngine
