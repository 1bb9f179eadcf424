import ODataEngine.Settings.Value

/-!
# Values of a fixed shape

Reading structures out of values of settings. A structure is a map whose members are all known, or
the list of its members' values in order; what is left out takes its default where it has one.
-/

namespace ODataEngine

/-- How exactly a value must have its shape: whether a list may go on behind the last member of a
structure, and a map behind the name of a choice. -/
inductive Rigor where
  | strict
  | lenient
deriving DecidableEq

namespace Shape

/-- The members of a structure with the given member names. -/
def members? (rigor : Rigor) (names : List String) : Setting → Option (List (String × Setting))
  | .map members => if members.all fun m => names.contains m.1 then some members else none
  | .list items =>
    if rigor = .lenient || items.length ≤ names.length then some (names.zip items) else none
  | _ => none

/-- The member of a name, which must be there. -/
def required {α : Type} (members : List (String × Setting)) (name : String)
    (read : Setting → Option α) : Option α :=
  (members.lookup name).bind read

/-- The member of a name, or its default. -/
def optional {α : Type} (members : List (String × Setting)) (name : String) (default : α)
    (read : Setting → Option α) : Option α :=
  match members.lookup name with
  | some v => read v
  | none => some default

/-- Reads null as nothing. -/
def nullable {α : Type} (read : Setting → Option α) : Setting → Option (Option α)
  | .null => some none
  | v => (read v).map some

/-- Reads a text. -/
def text? : Setting → Option String
  | .text s => some s
  | _ => none

/-- Reads a truth value. -/
def flag? : Setting → Option Bool
  | .bool b => some b
  | _ => none

/-- Reads an integer from zero up that fits 64 bits. -/
def count? : Setting → Option Nat
  | .integer n => if 0 ≤ n && n < Nat.pow 2 64 then some n.toNat else none
  | _ => none

/-- Reads a list. -/
def list? {α : Type} (read : Setting → Option α) : Setting → Option (List α)
  | .list items => items.mapM read
  | _ => none

/-- Reads one of some named choices: the name alone, or as the first member of a map, with null. -/
def choice? {α : Type} (rigor : Rigor) (choices : List (String × α)) : Setting → Option α
  | .text s => choices.lookup s
  | .map ((s, .null) :: rest) =>
    if rigor = .lenient || rest.isEmpty then choices.lookup s else none
  | _ => none

/-- Reads a record. -/
def record? (rigor : Rigor) : Setting → Option Record
  | .map members => Setting.jsonMembers? members
  | .null => if rigor = .lenient then some [] else none
  | _ => none

end Shape

end ODataEngine
