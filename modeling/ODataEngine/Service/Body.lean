import ODataEngine.Error
import ODataEngine.Json.Printer
import ODataEngine.Schema.Basic

/-!
# Bodies

The record in the body of a request. Members are named as fields in any case and kept under the
declared spelling; annotations, whose names begin with an at sign, are left out.
-/

namespace ODataEngine

/-- The type of a field, as messages name it. -/
def Field.typeText (f : Field) : String :=
  if f.isList then s!"Collection({f.type.qualifiedName})" else f.type.qualifiedName

namespace EntityType

/-- Adds a member of a body to a record. -/
def addMember (e : EntityType) (r : Record) (name : String) (value : Json) :
    Except RequestError Record :=
  match e.field? name with
  | some f =>
    if f.accepts value then .ok (r.insert f.name value)
    else .error (.invalidBody s!"property '{f.name}' expects {f.typeText}, got {value.render}")
  | none =>
    if (e.navigation? name).isSome then
      .error (.invalidBody s!"navigation property '{name}' cannot be written inline")
    else .error (.invalidBody s!"unknown property '{name}' on '{e.name}'")

/-- Adds the members of a body to a record, in order. -/
def addMembers (e : EntityType) (r : Record) : Record → Except RequestError Record
  | [] => .ok r
  | (name, value) :: rest =>
    if name.toList.head? = some '@' then addMembers e r rest
    else do addMembers e (← addMember e r name value) rest

/-- The record in a body. -/
def ofBody (e : EntityType) (body : Option Json) : Except RequestError Record :=
  match body with
  | none => .error (.invalidBody "a JSON object body is required")
  | some (.object members) => addMembers e [] members
  | some _ => .error (.invalidBody "expected a JSON object")

end EntityType

end ODataEngine
