import ODataEngine.Query.Basic
import ODataEngine.Query.Limits
import ODataEngine.Schema.Basic
import ODataEngine.Text.Blank
import ODataEngine.Text.Cut

/-!
# The `$select`, `$orderby`, `$top` and `$skip` options

Lists of names with commas between them, and counts. Names are given in any case and kept in their
declared spelling.
-/

namespace ODataEngine

/-! ## Select -/

namespace SelectOption

/-- What is wrong with a list of members to select. -/
inductive Fault where
  | empty
  | emptyName
  | unknownField (name entity : String)
  | duplicateField (name : String)
deriving DecidableEq

/-- The wording of a fault. -/
def Fault.reason : Fault → String
  | empty => "empty $select"
  | emptyName => "empty field name"
  | unknownField name entity => s!"unknown field '{name}' on '{entity}'"
  | duplicateField name => s!"duplicate field '{name}'"

/-- The declared names that one item of the list stands for; a star stands for every field. -/
def resolve (e : EntityType) (name : String) : Except Fault (List String) :=
  if name = "" then .error .emptyName
  else if name = "*" then .ok e.fieldNames
  else
    match e.field? name with
    | some f => .ok [f.name]
    | none =>
      match e.navigation? name with
      | some n => .ok [n.name]
      | none => .error (.unknownField name e.name)

/-- Adds names that must all be new, in any case. -/
def addNames (sofar : List String) : List String → Except Fault (List String)
  | [] => .ok sofar
  | name :: rest =>
    if sofar.any (Text.sameName · name) then .error (.duplicateField name)
    else addNames (sofar ++ [name]) rest

/-- Adds the names of the items of a list. -/
def addItems (e : EntityType) (sofar : List String) : List (List Char) → Except Fault (List String)
  | [] => .ok sofar
  | item :: rest => do
    let names ← resolve e (String.ofList (Text.trim item))
    let sofar ← addNames sofar names
    addItems e sofar rest

/-- The selected names, in order. -/
def read (e : EntityType) (text : String) : Except Fault (List String) :=
  if Text.isAllBlank text then .error .empty
  else addItems e [] (Text.splitAt ',' (Text.trim text.toList))

/-- Reads the value of a `$select` option. -/
def parse (limits : QueryLimits) (e : EntityType) (text : String) :
    Except RequestError (List String) :=
  match read e text with
  | .error fault => .error (.invalidSelect text fault.reason)
  | .ok names => do
    limits.checkSelect text names.length
    return names

end SelectOption

/-! ## Order -/

namespace OrderByOption

/-- What is wrong with a list of order keys. -/
inductive Fault where
  | empty
  | emptyItem
  | unknownDirection (word : String)
  | tooManyWords (item : String)
  | unknownField (name entity : String)
  | duplicateField (name : String)
deriving DecidableEq

/-- The wording of a fault. -/
def Fault.reason : Fault → String
  | empty => "empty $orderby"
  | emptyItem => "empty order item"
  | unknownDirection word => s!"unknown direction '{word}'"
  | tooManyWords item => s!"expected 'field [asc|desc]', got '{item}'"
  | unknownField name entity => s!"unknown field '{name}' on '{entity}'"
  | duplicateField name => s!"duplicate field '{name}'"

/-- The name and the direction of one item; without a direction the order is ascending. -/
def readItem (item : List Char) : Except Fault (String × Direction) :=
  match Text.words item with
  | [] => .error .emptyItem
  | [name] => .ok (String.ofList name, .asc)
  | [name, word] =>
    match Direction.ofWord? (String.ofList word) with
    | some d => .ok (String.ofList name, d)
    | none => .error (.unknownDirection (String.ofList word))
  | _ => .error (.tooManyWords (String.ofList (Text.trim item)))

/-- Adds the keys of the items of a list; no field may come twice. -/
def addItems (e : EntityType) (sofar : List OrderKey) :
    List (List Char) → Except Fault (List OrderKey)
  | [] => .ok sofar
  | item :: rest => do
    let (name, direction) ← readItem item
    match e.field? name with
    | none => .error (.unknownField name e.name)
    | some f =>
      if sofar.any (·.field == f.name) then .error (.duplicateField f.name)
      else addItems e (sofar ++ [⟨f.name, direction⟩]) rest

/-- The order keys, in order. -/
def read (e : EntityType) (text : String) : Except Fault (List OrderKey) :=
  if Text.isAllBlank text then .error .empty
  else addItems e [] (Text.splitAt ',' text.toList)

/-- Reads the value of an `$orderby` option. -/
def parse (limits : QueryLimits) (e : EntityType) (text : String) :
    Except RequestError (List OrderKey) :=
  match read e text with
  | .error fault => .error (.invalidOrderBy text fault.reason)
  | .ok keys => do
    limits.checkOrderBy text keys.length
    return keys

end OrderByOption

/-! ## Counts -/

namespace PagingOption

/-- The count that digits write, with an optional plus sign, below `2 ^ 64`. -/
def readCount? (s : List Char) : Option Nat :=
  let digits :=
    match s with
    | '+' :: rest => rest
    | _ => s
  let n := digits.foldl (fun n c => n * 10 + (c.toNat - '0'.toNat)) 0
  if digits.isEmpty || !digits.all Char.isDigit || Nat.pow 2 64 ≤ n then none else some n

/-- Reads the value of a `$top` or `$skip` option. -/
def parse (option text : String) : Except RequestError Nat :=
  match readCount? (Text.trim text.toList) with
  | some n => .ok n
  | none => .error (.invalidPaging option text "expected a non-negative integer")

end PagingOption

end ODataEngine
