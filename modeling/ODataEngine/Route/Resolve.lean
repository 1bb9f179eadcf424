import ODataEngine.Error
import ODataEngine.Route.Key
import ODataEngine.Route.Site
import ODataEngine.Text.Percent

/-!
# Routes

What a method and a path ask for. Under the route path of the service stand

* nothing: the service document, and `$metadata`,
* `C`, `C/$count` and `C/operation` for a collection,
* `C(key)`, `C(key)/navigation` and `C(key)/operation` for one of its entities.

An operation may have `()` after its name and the namespace before it.
-/

namespace ODataEngine

/-- What a request asks for. -/
inductive Endpoint where
  | serviceDocument
  | metadata
  | list
  | count
  | create
  | get
  | replace
  | patch
  | delete
  | navigationGet
  | navigationList
  | invoke (op : Operation)
deriving DecidableEq

/-- The name of what a request asks for. -/
def Endpoint.name : Endpoint → String
  | serviceDocument => "service_document"
  | metadata => "metadata"
  | list => "list"
  | count => "count"
  | create => "create"
  | get => "get"
  | replace => "replace"
  | patch => "patch"
  | delete => "delete"
  | navigationGet => "navigation_get"
  | navigationList => "navigation_list"
  | invoke op => op.name

/-- What a path leads to: a collection, the key of one of its entities with its literal, and a
navigation property of that. -/
structure Address where
  collection : Option Collection := none
  key : Option Json := none
  keyLiteral : Option String := none
  navigation : Option Navigation := none

/-- The literal of the key, empty where there is none. -/
def Address.keyDisplay (a : Address) : String := a.keyLiteral.getD ""

namespace Route

/-- What a path leads to and what the method asks for there, if anything. The address holds what was
found even where nothing is asked for or the path is faulty. -/
structure Resolution where
  address : Address := {}
  endpoint : Except RequestError (Option Endpoint) := .ok none

/-- The endpoint if the method is the one given. -/
def only (endpoint : Endpoint) (expected method : String) : Option Endpoint :=
  if method = expected then some endpoint else none

/-- The part of a path after the route path of the service. -/
def afterRoute? (routePath path : List Char) : Option (List Char) :=
  let route := Text.dropAround '/' routePath
  if route.isEmpty then some path
  else
    match Text.afterStart? route path with
    | some [] => some []
    | some ('/' :: rest) => some (Text.dropStart '/' rest)
    | _ => none

/-- The part of a path after the name of a collection, if the path goes into it. -/
def afterCollection? (path : List Char) (c : Collection) : Option (Collection × List Char) :=
  match Text.afterStart? c.name.toList path with
  | some [] => some (c, [])
  | some (sep :: rest) => if sep = '/' || sep = '(' then some (c, sep :: rest) else none
  | none => none

/-- The name of an operation without `()` after it and without the namespace before it. -/
def operationName (nameSpace : String) (segment : List Char) : List Char :=
  let name := (Text.beforeEnd? ['(', ')'] segment).getD segment
  (Text.afterStart? (nameSpace.toList ++ ['.']) name).getD name

/-- The operation of a path segment, if the method invokes it. -/
def boundOperation (s : Schema) (c : Collection) (binding : Binding) (method : String)
    (segment : List Char) : Option Endpoint :=
  match c.operation? (String.ofList (operationName s.nameSpace segment)) binding with
  | some op => only (.invoke op) op.kind.method method
  | none => none

/-- What is asked for at a collection itself. -/
def collectionEndpoint (s : Schema) (c : Collection) (method : String) (tail : List Char) :
    Option Endpoint :=
  match tail with
  | '/' :: segment =>
    -- a collection has operations behind it, but no navigation properties
    if segment = "$count".toList then only .count "GET" method
    else boundOperation s c .collection method segment
  | _ =>
    match method with
    | "GET" => some .list
    | "POST" => some .create
    | _ => none

/-- What is asked for at an entity itself. -/
def entityEndpoint (method : String) : Option Endpoint :=
  match method with
  | "GET" => some .get
  | "PUT" => some .replace
  | "PATCH" => some .patch
  | "DELETE" => some .delete
  | _ => none

/-- The endpoint of a navigation property. -/
def navigationEndpoint (n : Navigation) : Endpoint :=
  match n.multiplicity with
  | .one => .navigationGet
  | .many => .navigationList

/-- What is asked for behind the key of an entity. A navigation property comes before an operation
of the same name. -/
def resolveAfterKey (s : Schema) (c : Collection) (address : Address) (method : String)
    (after : List Char) : Resolution :=
  match after with
  | [] => { address := address, endpoint := .ok (entityEndpoint method) }
  | '/' :: segment =>
    match c.entity.navigation? (String.ofList segment) with
    | some n =>
      if method = "GET" then
        { address := { address with navigation := some n }
          endpoint := .ok (some (navigationEndpoint n)) }
      else { address := address }
    | none =>
      { address := address, endpoint := .ok (boundOperation s c .entity method segment) }
  | _ => { address := address }

/-- What is asked for at an entity of a collection, given the text after the opening parenthesis of
its key. -/
def resolveEntity (s : Schema) (c : Collection) (method : String) (body : List Char) : Resolution :=
  let fault (literal : List Char) (f : KeyFault) : Resolution :=
    { address := { collection := some c }
      endpoint := .error (.invalidKey c.name (String.ofList literal) f.reason) }
  match splitKey false body with
  | none => fault ('(' :: body) .openParenthesis
  | some (text, after) =>
    match readKey c.entity text with
    | .error f => fault text f
    | .ok key =>
      let address : Address :=
        { collection := some c, key := some key
          keyLiteral := some (c.entity.keyType.keyLiteral key) }
      resolveAfterKey s c address method after

/-- What is asked for under the route path. -/
def resolveRest (s : Schema) (method : String) (rest : List Char) : Resolution :=
  if rest.isEmpty then { endpoint := .ok (only .serviceDocument "GET" method) }
  else if rest = "$metadata".toList then { endpoint := .ok (only .metadata "GET" method) }
  else
    match s.collections.findSome? (afterCollection? rest) with
    | none => {}
    | some (c, '(' :: body) => resolveEntity s c method body
    | some (c, tail) =>
      { address := { collection := some c }
        endpoint := .ok (collectionEndpoint s c method tail) }

/-- What a method and a path ask for. A path whose escapes spell no text leads nowhere. -/
def resolve (s : Schema) (site : Site) (method path : String) : Resolution :=
  match Text.percentDecode? path with
  | none => {}
  | some path =>
    match afterRoute? site.path.toList (Text.dropAround '/' path) with
    | none => {}
    | some rest => resolveRest s method rest

end Route

end ODataEngine
