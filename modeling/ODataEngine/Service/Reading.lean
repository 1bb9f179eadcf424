import ODataEngine.Service.Entity

/-!
# Reading

The requests that only read: lists of entities, their number, single entities, and the entities that
a navigation property leads to.
-/

namespace ODataEngine.Service

/-! ## Contexts -/

/-- The name of the member that holds the context of a document. -/
def contextMember : String := "@odata.context"

/-- A document with its context in front. -/
def withContext (sv : Service) (fragment : String) (members : Record) : Json :=
  .object (Record.insertAll
    [(contextMember, .string s!"{sv.site.metadataUrl}#{fragment}")] members)

/-- The response with a single entity of a collection. -/
def entityBody (sv : Service) (c : Collection) (entity : Record) : Json :=
  sv.withContext s!"{c.name}/$entity" entity

/-- The response with a page of entities and the number of all of them. -/
def listBody (sv : Service) (fragment : String) (count : Nat) (entities : List Record) : Json :=
  sv.withContext fragment
    [("@odata.count", .ofNat count), ("value", .array (entities.map .object))]

/-! ## Collections -/

/-- Lists a page of the entities of a collection. -/
def list (sv : Service) (c : Collection) (q : Query) : Except RequestError Response := do
  let s ← sv.storeOf c
  let count ← StoreError.during "count" c.name none (s.count q.filter)
  let rows ← StoreError.during "find" c.name none (s.find { q with select := [] })
  let entities ← rows.mapM (sv.entity c q)
  return { payload := .json (sv.listBody c.name count entities) }

/-- Counts the entities that pass the filter of a query. -/
def count (sv : Service) (c : Collection) (q : Query) : Except RequestError Response := do
  let s ← sv.storeOf c
  let n ← StoreError.during "count" c.name none (s.count q.filter)
  return { payload := .text (toString n) }

/-! ## Entities -/

/-- The record of the entity that a key addresses. -/
def fetch (sv : Service) (c : Collection) (key : Json) (display : String) :
    Except RequestError Record := do
  let s ← sv.storeOf c
  match ← StoreError.atEntity "get" c.name display (s.get key []) with
  | some r => return r
  | none => throw (.entityNotFound c.name display)

/-- Shows the entity that a key addresses. -/
def get (sv : Service) (c : Collection) (key : Json) (display : String) (q : Query) :
    Except RequestError Response := do
  let r ← sv.fetch c key display
  let entity ← sv.entity c q r
  return { payload := .json (sv.entityBody c entity) }

/-- Shows what a navigation property of the addressed entity leads to. The page is taken after all
related records are found, so the count covers them all. -/
def navigate (sv : Service) (c : Collection) (key : Json) (display : String) (n : Navigation)
    (q : Query) : Except RequestError Response := do
  let target ← sv.targetOf c.entity n
  let base ← sv.fetch c key display
  let s ← sv.storeOf target
  let rows ← StoreError.during "navigate" target.name (some display)
    (n.follow base s { q.unpaged with select := [] })
  match n.multiplicity, rows with
  | .many, rows =>
    -- the store was asked for all rows; the page is cut here
    let entities ← (q.page rows).mapM (sv.entity target q)
    return {
      payload := .json (sv.listBody s!"{c.name}({display})/{n.name}" rows.length entities) }
  | .one, r :: _ =>
    let entity ← sv.entity target q r
    return { payload := .json (sv.entityBody target entity) }
  | .one, [] => throw (.entityNotFound target.name s!"{c.name}({display})/{n.name}")

end ODataEngine.Service
