import ODataEngine.Filter.Clause

/-!
# Failures

Why a store refuses a call and why a request fails. Each failure has a wording; a failed request
also has a code that stays the same when the wording changes.
-/

namespace ODataEngine

/-- The causes of a failure, from the outermost to the root. -/
abbrev CauseChain := List String

/-- The causes in one line. -/
def CauseChain.inline (chain : CauseChain) : String := ": ".intercalate chain

/-- Why a store refuses a call. Keys are given by their JSON text. -/
inductive StoreError where
  | notFound (key : String)
  | conflict (key : String)
  | invalid (reason : String)
  | backend (chain : CauseChain)
deriving DecidableEq

namespace StoreError

/-- The wording of a store error. -/
def message : StoreError → String
  | notFound key => s!"no record with key {key}"
  | conflict key => s!"a record with key {key} already exists"
  | invalid reason => s!"invalid record: {reason}"
  | backend chain => "backend error: " ++ chain.inline

end StoreError

/-- Why a request fails. -/
inductive RequestError where
  | malformedFilter (e : FilterError)
  | invalidFilter (text reason : String)
  | invalidOrderBy (text reason : String)
  | invalidSelect (text reason : String)
  | invalidPaging (option text reason : String)
  | invalidExpand (text reason : String)
  | invalidQuery (text reason : String)
  | navigationNotFound (entity property : String)
  | entityNotFound (collection key : String)
  | routeNotFound (method path : String)
  | invalidKey (collection literal reason : String)
  | invalidBody (reason : String)
  | storage (call collection : String) (key : Option String) (cause : StoreError)
  | operationFailed (name : String) (chain : CauseChain)
deriving DecidableEq

namespace RequestError

/-- The wording of a failed request. -/
def message : RequestError → String
  | malformedFilter e => s!"malformed filter: {e.message}"
  | invalidFilter text reason => s!"invalid $filter '{text}': {reason}"
  | invalidOrderBy text reason => s!"invalid $orderby '{text}': {reason}"
  | invalidSelect text reason => s!"invalid $select '{text}': {reason}"
  | invalidPaging option text reason => s!"invalid {option} '{text}': {reason}"
  | invalidExpand text reason => s!"invalid $expand '{text}': {reason}"
  | invalidQuery text reason => s!"invalid query string '{text}': {reason}"
  | navigationNotFound entity property =>
    s!"navigation property '{property}' not found on entity '{entity}'"
  | entityNotFound collection key => s!"no entity with key {key} in '{collection}'"
  | routeNotFound method path => s!"no route for {method} {path}"
  | invalidKey collection literal reason => s!"invalid key '{literal}' for '{collection}': {reason}"
  | invalidBody reason => s!"invalid request body: {reason}"
  | storage call collection key cause =>
    let place :=
      match key with
      | some key => s!"({key})"
      | none => ""
    s!"storage {call} on '{collection}'{place} failed: {cause.message}"
  | operationFailed name chain => s!"operation '{name}' failed: {chain.inline}"

/-- The code of a failed request. -/
def code : RequestError → String
  | malformedFilter _ => "MalformedFilter"
  | invalidFilter _ _ => "FilterParseError"
  | invalidOrderBy _ _ => "InvalidOrderBy"
  | invalidSelect _ _ => "InvalidSelect"
  | invalidPaging _ _ _ => "InvalidPaging"
  | invalidExpand _ _ => "InvalidExpand"
  | invalidQuery _ _ => "InvalidQuery"
  | navigationNotFound _ _ => "NavigationNotFound"
  | entityNotFound _ _ => "EntityNotFound"
  | routeNotFound _ _ => "RouteNotFound"
  | invalidKey _ _ _ => "InvalidKey"
  | invalidBody _ => "InvalidBody"
  | storage _ _ _ _ => "UpstreamStorageError"
  | operationFailed _ _ => "OperationFailed"

end RequestError

end ODataEngine
