import ODataEngine.Error
import ODataEngine.Http.Status
import ODataEngine.Json.Basic

/-!
# Problem details

Failures as problem documents: a status, a title, a detail for people and a code for programs. What
went wrong inside the server is not told.
-/

namespace ODataEngine

/-- The status that answers a failure of a store. -/
def StoreError.status : StoreError → Status
  | notFound _ => .notFound
  | conflict _ => .conflict
  | invalid _ => .badRequest
  | backend _ => .internalServerError

/-- The status that answers a failed request. -/
def RequestError.status : RequestError → Status
  | entityNotFound _ _ | routeNotFound _ _ => .notFound
  | storage _ _ _ cause => cause.status
  | operationFailed _ _ => .internalServerError
  | _ => .badRequest

/-- What a failure tells the client: its wording, but of the server's own failures only where they
happened. -/
def RequestError.detail (e : RequestError) : String :=
  if e.status.isServerError then
    match e with
    | operationFailed name _ => s!"operation '{name}' failed"
    | storage _ collection _ _ => s!"storage backend for '{collection}' is unavailable"
    | _ => "internal error"
  else e.message

/-- A problem document. -/
structure Problem where
  kind : String := "about:blank"
  title : String
  status : Status
  detail : String
  place : String
  code : String
  trace : Option String := none

namespace Problem

/-- The problem of a failed request on a path. -/
def ofError (e : RequestError) (path : String) (trace : Option String) : Problem :=
  { title := e.status.reason, status := e.status, detail := e.detail, place := path, code := e.code
    trace := trace }

/-- The document of a problem. -/
def document (p : Problem) : Json :=
  let trace :=
    match p.trace with
    | some id => [("trace_id", Json.string id)]
    | none => []
  .object ([("type", .string p.kind), ("title", .string p.title),
    ("status", .ofNat p.status.code), ("detail", .string p.detail),
    ("instance", .string p.place), ("code", .string p.code)] ++ trace)

end Problem

end ODataEngine
