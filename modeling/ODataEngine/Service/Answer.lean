import ODataEngine.Metadata
import ODataEngine.Service.Writing

/-!
# Answers

From a request to its outcome: the route is resolved, the query read for the entity type that the
path leads to, and the endpoint asked.
-/

namespace ODataEngine.Service

/-- The collection that an address leads into. -/
def collectionOf (sv : Service) (a : Address) : Except RequestError Collection :=
  match a.collection with
  | some c => .ok c
  | none => .error sv.unrouted

/-- The key in an address. -/
def keyAt (sv : Service) (a : Address) : Except RequestError Json :=
  match a.key with
  | some key => .ok key
  | none => .error sv.unrouted

/-- The navigation property in an address. -/
def navigationAt (sv : Service) (a : Address) : Except RequestError Navigation :=
  match a.navigation with
  | some n => .ok n
  | none => .error sv.unrouted

/-- The query of a request to a collection: its options are read for the entity type of the target
of a navigation property, else for that of the collection. -/
def queryAt (sv : Service) (a : Address) (endpoint : Endpoint) (c : Collection) (query : String) :
    Except RequestError Query :=
  match endpoint with
  | .navigationGet | .navigationList => do
    let target ← sv.targetOf c.entity (← sv.navigationAt a)
    Query.ofString sv.limits sv.schema target.entity query
  | _ => Query.ofString sv.limits sv.schema c.entity query

/-- The document in which the service describes itself, at the endpoints of such documents. -/
def description? (sv : Service) : Endpoint → Option Json
  | .serviceDocument => some (Metadata.serviceDocument sv.schema sv.site)
  | .metadata => some (Metadata.document sv.schema)
  | _ => none

/-- The outcome of a request to a collection or one of its entities. -/
def answerAt (sv : Service) (fresh : String) (a : Address) (endpoint : Endpoint) (c : Collection)
    (q : Query) (body : Option Json) : Outcome :=
  let withKey (k : Json → Outcome) : Outcome := sv.attempt (sv.keyAt a) k
  let display := a.keyDisplay
  match endpoint with
  | .list => sv.unchanged (sv.list c q)
  | .count => sv.unchanged (sv.count c q)
  | .create => sv.create fresh c q body
  | .get => withKey fun key => sv.unchanged (sv.get c key display q)
  | .replace => withKey fun key => sv.write c key display body .whole
  | .patch => withKey fun key => sv.write c key display body .given
  | .delete => withKey fun key => sv.delete c key display
  | .navigationGet | .navigationList => withKey fun key =>
    sv.unchanged do sv.navigate c key display (← sv.navigationAt a) q
  | .invoke op => sv.invoke c a op q body
  | .serviceDocument | .metadata => sv.unchanged (.error sv.unrouted)

/-- The outcome of a request. `fresh` is an identifier that no record has yet, for an entity that is
created without a key. -/
def answer (sv : Service) (fresh : String) (request : Request) : Outcome :=
  let found := Route.resolve sv.schema sv.site request.method request.path
  sv.attempt found.endpoint fun endpoint =>
    match endpoint with
    | none => sv.unchanged (.error (.routeNotFound request.method request.path))
    | some endpoint =>
      match sv.description? endpoint with
      | some document => sv.unchanged (.ok { payload := .json document })
      | none =>
        sv.attempt (sv.collectionOf found.address) fun c =>
          sv.attempt (sv.queryAt found.address endpoint c request.query) fun q =>
            sv.answerAt fresh found.address endpoint c q request.body

end ODataEngine.Service
