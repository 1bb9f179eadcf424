import ODataEngine.Http.Status
import ODataEngine.Query.Limits
import ODataEngine.Route.Resolve
import ODataEngine.Store.Basic

/-!
# Services

A schema at work: where it is reached, what queries may ask for, the records of its collections and
what its operations do. A request comes with its path, its query string and its body; a response has
a status, a payload and, for a new entity, the address of that.
-/

namespace ODataEngine

/-! ## Requests and responses -/

/-- A request to a service. -/
structure Request where
  method : String
  path : String
  query : String := ""
  body : Option Json := none

/-- What a response carries. -/
inductive Payload where
  | json (v : Json)
  | text (s : String)
  | empty

/-- A response of a service. -/
structure Response where
  status : Status := .ok
  payload : Payload
  location : Option String := none

/-- The response that carries nothing. -/
def Response.noContent : Response := { status := .noContent, payload := .empty }

/-! ## Operations -/

/-- The call of an operation: where it was found, the limits of the service, the query and the body
that came with it, and the store of its collection. -/
structure Invocation where
  site : Site
  limits : QueryLimits
  address : Address
  query : Query
  body : Option Json
  store : Store

/-- What an operation does: its result and the store after it, or the causes of its failure. -/
abbrev Handler := Invocation → Except CauseChain (Json × Store)

/-! ## Services -/

/-- A service. -/
structure Service where
  schema : Schema
  site : Site
  limits : QueryLimits := {}
  stores : Stores
  handlers : String → Handler

namespace Service

/-- The failure of what needs a part of the path that is not there. -/
def unrouted (sv : Service) : RequestError := .routeNotFound "" sv.site.root

/-- The store of a collection. -/
def storeOf (sv : Service) (c : Collection) : Except RequestError Store :=
  match sv.stores.store? c.name with
  | some s => .ok s
  | none => .error sv.unrouted

/-- The collection that a navigation property of an entity type leads to. -/
def targetOf (sv : Service) (e : EntityType) (n : Navigation) : Except RequestError Collection :=
  match sv.schema.collection? n.collection with
  | some c => .ok c
  | none => .error (.navigationNotFound e.name n.name)

end Service

/-- A failure of a store with the call that met it. -/
def StoreError.during {α : Type} (call collection : String) (key : Option String) :
    Except StoreError α → Except RequestError α
  | .ok a => .ok a
  | .error cause => .error (.storage call collection key cause)

/-- A failure of a store on an entity that a path addresses. A key that is not there is an entity
that is not there. -/
def StoreError.atEntity {α : Type} (call collection key : String) :
    Except StoreError α → Except RequestError α
  | .ok a => .ok a
  | .error (.notFound _) => .error (.entityNotFound collection key)
  | .error cause => .error (.storage call collection (some key) cause)

/-- The causes behind a store error, itself first. -/
def StoreError.chain (e : StoreError) : CauseChain :=
  match e with
  | .backend causes => e.message :: causes
  | _ => [e.message]

end ODataEngine
