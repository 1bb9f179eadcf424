import ODataEngine.Json.Basic

/-!
# Values of settings

The values that files and variables give to settings. They are wider than those of JSON: integers
have any size, and a floating-point number need not be finite.
-/

namespace ODataEngine

/-- The value of a setting. -/
inductive Setting where
  | null
  | bool (b : Bool)
  | integer (n : Int)
  | float (x : Binary64)
  | notFinite
  | text (s : String)
  | list (items : List Setting)
  | map (members : List (String × Setting))

namespace Setting

mutual

/-- The value of a JSON value. -/
def ofJson : Json → Setting
  | .null => .null
  | .bool b => .bool b
  | .number (.int n) => .integer n
  | .number (.float x) => .float x
  | .string s => .text s
  | .array items => .list (ofItems items)
  | .object members => .map (ofMembers members)

/-- The values of the items of a list. -/
def ofItems : List Json → List Setting
  | [] => []
  | item :: rest => ofJson item :: ofItems rest

/-- The values of the members of an object. -/
def ofMembers : List (String × Json) → List (String × Setting)
  | [] => []
  | (name, value) :: rest => (name, ofJson value) :: ofMembers rest

end

mutual

/-- The JSON value of a value. Integers must fit 64 bits, with or without sign; a number that is not
finite is null. -/
def json? : Setting → Option Json
  | .null => some .null
  | .bool b => some (.bool b)
  | .integer n =>
    if -Nat.pow 2 63 ≤ n && n < Nat.pow 2 64 then some (.number (.int n)) else none
  | .float x => some (.number (.float x))
  | .notFinite => some .null
  | .text s => some (.string s)
  | .list items => (jsonItems? items).map .array
  | .map members => (jsonMembers? members).map .object

/-- The JSON values of the items of a list. -/
def jsonItems? : List Setting → Option (List Json)
  | [] => some []
  | item :: rest =>
    match json? item, jsonItems? rest with
    | some v, some vs => some (v :: vs)
    | _, _ => none

/-- The members of the object of a map. -/
def jsonMembers? : List (String × Setting) → Option (List (String × Json))
  | [] => some []
  | (name, value) :: rest =>
    match json? value, jsonMembers? rest with
    | some v, some vs => some ((name, v) :: vs)
    | _, _ => none

end

/-! ## Maps -/

/-- Sets a member: in its place if it is there, else at the end. -/
def insert : List (String × Setting) → String → Setting → List (String × Setting)
  | [], name, value => [(name, value)]
  | (n, v) :: rest, name, value =>
    if n = name then (n, value) :: rest else (n, v) :: insert rest name value

mutual

/-- The value with another laid over it: only maps are joined. -/
def overlay (below : Setting) : Setting → Setting
  | .map above =>
    match below with
    | .map members => .map (overlayMembers members above)
    | _ => .map above
  | above => above

/-- The members with others laid over them. -/
def overlayMembers (below : List (String × Setting)) :
    List (String × Setting) → List (String × Setting)
  | [] => below
  | (name, above) :: rest =>
    let value :=
      match below.lookup name with
      | some v => overlay v above
      | none => above
    overlayMembers (insert below name value) rest

end

/-- Puts a member at its place among sorted ones. -/
def insertSorted (name : String) (value : Setting) :
    List (String × Setting) → List (String × Setting)
  | [] => [(name, value)]
  | (n, v) :: rest =>
    if name < n then (name, value) :: (n, v) :: rest else (n, v) :: insertSorted name value rest

mutual

/-- The value with the members of all maps sorted by name. -/
def sorted : Setting → Setting
  | .list items => .list (sortedItems items)
  | .map members => .map (sortedMembers members)
  | v => v

/-- The items, each with sorted members. -/
def sortedItems : List Setting → List Setting
  | [] => []
  | item :: rest => item.sorted :: sortedItems rest

/-- The members in the order of their names, each with sorted members. -/
def sortedMembers : List (String × Setting) → List (String × Setting)
  | [] => []
  | (name, value) :: rest => insertSorted name value.sorted (sortedMembers rest)

end

end Setting

end ODataEngine
