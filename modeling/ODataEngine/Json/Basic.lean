import ODataEngine.Number.Binary64

/-!
# JSON values

Values with ordered objects, and records: the member lists of objects. A record keeps its members
in the order of their first insertion. Replacing a value keeps its place; removing a member moves
the last one into the hole.
-/

namespace ODataEngine

/-- A JSON number: an integer that fits 64 bits, with or without sign, or a finite double. -/
inductive JsonNumber where
  | int (n : Int)
  | float (x : Binary64)
deriving DecidableEq

/-- A JSON value. -/
inductive Json where
  | null
  | bool (b : Bool)
  | number (n : JsonNumber)
  | string (s : String)
  | array (items : List Json)
  | object (members : List (String × Json))

/-- The members of an object, in order, each name once. -/
abbrev Record := List (String × Json)

namespace Record

/-- The value of a member. -/
def get? (r : Record) (name : String) : Option Json := r.lookup name

/-- The value of a member, null for one that is absent. -/
def valueOf (r : Record) (name : String) : Json := (r.get? name).getD .null

/-- The names of the members, in order. -/
def names (r : Record) : List String := r.map Prod.fst

/-- Sets a member: in its place if it is there, else at the end. -/
def insert : Record → String → Json → Record
  | [], name, value => [(name, value)]
  | (n, v) :: rest, name, value =>
    if n = name then (n, value) :: rest else (n, v) :: insert rest name value

/-- Sets every member of `changes`, in order. -/
def insertAll (r changes : Record) : Record := changes.foldl (fun r (n, v) => r.insert n v) r

/-- Removes a member; the last member takes its place. -/
def erase (r : Record) (name : String) : Record :=
  match r.span (·.1 != name) with
  | (_, []) => r
  | (before, _ :: after) =>
    -- the last member fills the hole, if there is one behind it
    match after.getLast? with
    | none => before
    | some last => before ++ last :: after.dropLast

@[simp] theorem get?_nil (name : String) : get? [] name = none := rfl

theorem get?_insert_self (r : Record) (name : String) (value : Json) :
    (r.insert name value).get? name = some value := by
  induction r with
  | nil => simp [insert, get?]
  | cons m rest ih =>
    obtain ⟨n, v⟩ := m
    by_cases h : n = name
    · simp [insert, get?, h]
    · have h' : (name == n) = false := by simpa using Ne.symm h
      simpa [insert, get?, h, List.lookup_cons, h'] using ih

theorem get?_insert_of_ne (r : Record) {name other : String} (value : Json) (h : other ≠ name) :
    (r.insert name value).get? other = r.get? other := by
  induction r with
  | nil =>
    have h' : (other == name) = false := by simpa using h
    simp [insert, get?, List.lookup_cons, h']
  | cons m rest ih =>
    obtain ⟨n, v⟩ := m
    by_cases hn : n = name
    · have h' : (other == n) = false := by simpa [hn] using h
      simp [insert, get?, hn, List.lookup_cons, hn ▸ h']
    · simp only [get?] at ih
      simp [insert, get?, hn, List.lookup_cons, ih]

end Record

namespace JsonNumber

/-- The integer, if the number is one that fits 64 bits with sign. -/
def int64? : JsonNumber → Option Int
  | .int n => if n < Nat.pow 2 63 then some n else none
  | .float _ => none

theorem eq_int_of_int64? {m : JsonNumber} {x : Int} (h : m.int64? = some x) :
    m = .int x ∧ x < Nat.pow 2 63 := by
  cases m with
  | float y => cases h
  | int n =>
    have hsome : (if n < Nat.pow 2 63 then some n else none) = some x := h
    split at hsome
    · next hn =>
      cases hsome
      exact ⟨rfl, hn⟩
    · cases hsome

/-- The nearest double. -/
def toBinary64 : JsonNumber → Binary64
  | .int n => .ofInt n
  | .float x => x

/-- Written without a point or an exponent. -/
def isInteger : JsonNumber → Bool
  | .int _ => true
  | .float _ => false

end JsonNumber

namespace Json

/-- The number of an integer. -/
def ofInt (n : Int) : Json := .number (.int n)

/-- The number of a count. -/
def ofNat (n : Nat) : Json := .number (.int n)

/-- The array of some texts. -/
def ofStrings (texts : List String) : Json := .array (texts.map .string)

/-- The kind of value, as error texts name it. -/
def kindName : Json → String
  | .null => "null"
  | .bool _ => "boolean"
  | .number _ => "number"
  | .string _ => "string"
  | .array _ => "array"
  | .object _ => "object"

/-- The value is null. -/
def isNull : Json → Bool
  | .null => true
  | _ => false

/-- The text of a string. -/
def string? : Json → Option String
  | .string s => some s
  | _ => none

/-- The members of an object. -/
def record? : Json → Option Record
  | .object r => some r
  | _ => none

end Json

end ODataEngine
