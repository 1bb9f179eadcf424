import ODataEngine.Json.Order
import ODataEngine.Service.Body
import ODataEngine.Service.Reading

/-!
# Writing

The requests that may change records: creating, replacing, changing and deleting entities, and
invoking operations. Each yields its outcome and the stores after it; a failure that comes after a
change does not undo the change.
-/

namespace ODataEngine

/-- The outcome of a request and the stores after it. -/
abbrev Outcome := Except RequestError Response × Stores

namespace Service

/-- The outcome of what changes nothing. -/
def unchanged (sv : Service) (result : Except RequestError Response) : Outcome :=
  (result, sv.stores)

/-- Goes on with a result, or ends with its failure. -/
def attempt {α : Type} (sv : Service) (result : Except RequestError α) (next : α → Outcome) :
    Outcome :=
  match result with
  | .ok a => next a
  | .error e => sv.unchanged (.error e)

/-- The service with another store of a collection. -/
def withStore (sv : Service) (c : Collection) (s : Store) : Service :=
  { sv with stores := sv.stores.put c.name s }

/-! ## New entities -/

/-- The response to the creation of an entity. -/
def created (sv : Service) (c : Collection) (q : Query) (r : Record) :
    Except RequestError Response := do
  let entity ← sv.entity c q r
  return {
    status := .created
    payload := .json (sv.entityBody c entity)
    location := some (sv.site.entityUrl c.name c.entity r) }

/-- Creates an entity. -/
def create (sv : Service) (fresh : String) (c : Collection) (q : Query) (body : Option Json) :
    Outcome :=
  sv.attempt (c.entity.ofBody body) fun r =>
    sv.attempt (sv.storeOf c) fun s =>
      sv.attempt (StoreError.during "add" c.name none (s.add fresh r)) fun (r, s) =>
        let sv := sv.withStore c s
        -- the record stays, whatever comes of showing it
        sv.unchanged (sv.created c q r)

/-! ## Addressed entities -/

/-- How the entity in a body replaces members of the stored one. -/
inductive Replacement where
  | whole
  | given
deriving DecidableEq

/-- The store call of a replacement, as messages name it. -/
def Replacement.call : Replacement → String
  | whole => "replace"
  | given => "update"

/-- A record with null for every declared field but the key that it lacks. -/
def withNulls (e : EntityType) (r : Record) : Record :=
  e.fields.foldl (fun (r : Record) f =>
    if f.name = e.key || (r.get? f.name).isSome then r else r.insert f.name .null) r

/-- The members to set on the addressed entity. The key may be left out or null, but must not
differ from the one in the path. -/
def patchOf (e : EntityType) (key : Json) (display : String) (replacement : Replacement)
    (r : Record) : Except RequestError Record :=
  let differs : Bool :=
    match r.get? e.key with
    | some given => !given.isNull && given.order? key != some .eq
    | none => false
  if differs then .error (.invalidBody s!"key '{e.key}' in body does not match {display}")
  else
    match replacement with
    | .whole => .ok (withNulls e (r.erase e.key))
    | .given => .ok (r.erase e.key)

/-- Writes the members in a body to the addressed entity. -/
def write (sv : Service) (c : Collection) (key : Json) (display : String) (body : Option Json)
    (replacement : Replacement) : Outcome :=
  sv.attempt (c.entity.ofBody body) fun r =>
    sv.attempt (patchOf c.entity key display replacement r) fun patch =>
      sv.attempt (sv.storeOf c) fun s =>
        sv.attempt (StoreError.atEntity replacement.call c.name display (s.update key patch))
          fun (_, s) => (sv.withStore c s).unchanged (.ok .noContent)

/-- Deletes the addressed entity. -/
def delete (sv : Service) (c : Collection) (key : Json) (display : String) : Outcome :=
  sv.attempt (sv.storeOf c) fun s =>
    sv.attempt (StoreError.atEntity "remove" c.name display (s.remove key)) fun s =>
      (sv.withStore c s).unchanged (.ok .noContent)

/-! ## Operations -/

/-- The response with the result of an operation; null is no content. -/
def resultResponse (result : Json) : Response :=
  if result.isNull then .noContent else { payload := .json result }

/-- Invokes an operation at an address. -/
def invoke (sv : Service) (c : Collection) (address : Address) (op : Operation) (q : Query)
    (body : Option Json) : Outcome :=
  sv.attempt (sv.storeOf c) fun s =>
    match sv.handlers op.handler
        { site := sv.site, limits := sv.limits, address := address, query := q, body := body
          store := s } with
    | .ok (result, s) => (sv.withStore c s).unchanged (.ok (resultResponse result))
    | .error chain => sv.unchanged (.error (.operationFailed op.name chain))

end Service

end ODataEngine
