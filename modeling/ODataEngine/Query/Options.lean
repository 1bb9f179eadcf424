import ODataEngine.Expand.Item
import ODataEngine.Query.FilterOption
import ODataEngine.Query.ListOptions
import ODataEngine.Text.Percent

/-!
# Query options

A query from the options of a request or of one item in an `$expand` text. Every option may come
once. With a schema at hand the options inside `$expand` are read too, at every level, so that
whatever is wrong with them is found before any store is asked.
-/

namespace ODataEngine

namespace Query

/-- The query that asks for nothing in particular: every declared field of every record. -/
def plain (e : EntityType) : Query := { select := e.fieldNames }

/-- The options read so far, in lower case, and the query they make. -/
structure OptionsSoFar where
  seen : List String := []
  query : Query

/-- The query with the value of one option; other options change nothing. `checkExpand` checks the
value of an `$expand` option. -/
def setOption (limits : QueryLimits) (e : EntityType)
    (checkExpand : String → Except RequestError Unit) (option value : String) (q : Query) :
    Except RequestError Query :=
  match option with
  | "$select" => do return { q with select := ← SelectOption.parse limits e value }
  | "$filter" => do return { q with filter := ← FilterOption.parse limits e value }
  | "$orderby" => do return { q with order := ← OrderByOption.parse limits e value }
  | "$top" => do
    let top ← PagingOption.parse "$top" value
    limits.checkTop top
    return { q with top := some top }
  | "$skip" => do return { q with skip := some (← PagingOption.parse "$skip" value) }
  | "$expand" => do
    checkExpand value
    return { q with expand := Text.trimmed value }
  | _ => .ok q

/-- Reads options in order. Names not beginning with a dollar sign are no options of ours; no other
may come twice, in any case. -/
def addOptions (limits : QueryLimits) (e : EntityType)
    (checkExpand : String → Except RequestError Unit) (sofar : OptionsSoFar) :
    List (String × String) → Except RequestError Query
  | [] => .ok sofar.query
  | (name, value) :: rest =>
    let name := Text.trimmed name
    if name.toList.head? != some '$' then addOptions limits e checkExpand sofar rest
    else
      let option := Text.lowered name
      -- refused before the value is read
      if sofar.seen.contains option then
        .error (.invalidQuery name "query option given more than once")
      else do
        let query ← setOption limits e checkExpand option value sofar.query
        addOptions limits e checkExpand ⟨sofar.seen ++ [option], query⟩ rest

/-- Checks an item of an expand text against the entity type it belongs to: its options must be
those of a query for the target type. A name that is no navigation property is skipped, or refused
under strict limits. -/
def checkItem (limits : QueryLimits) (s : Schema) (e : EntityType)
    (checkNested : EntityType → String → Except RequestError Unit) (item : ExpandItem) :
    Except RequestError Unit :=
  match e.navigation? item.property with
  | none =>
    if limits.strictExpand then .error (.navigationNotFound e.name item.property) else .ok ()
  | some n =>
    match s.entity? n.target with
    | none => .ok ()
    | some target => do
      let _ ← addOptions limits target (checkNested target) { query := plain target } item.options
      return ()

/-- Checks the items of an expand text, in order. -/
def checkItems (check : ExpandItem → Except RequestError Unit) :
    List ExpandItem → Except RequestError Unit
  | [] => .ok ()
  | item :: rest => do
    check item
    checkItems check rest

/-- Checks an expand text at every level. Each level is shorter than the one around it, so as many
levels as the text has characters are enough. Without a schema only the outermost is read. -/
def checkExpand (limits : QueryLimits) (schema : Option Schema) :
    Nat → EntityType → String → Except RequestError Unit
  | 0, _, _ => .ok ()
  | levels + 1, e, text => do
    let items ← Expand.parse text
    match schema with
    | none => return ()
    | some s => checkItems (checkItem limits s e (checkExpand limits schema levels)) items

/-- The query of some options for records of an entity type. -/
def ofOptions (limits : QueryLimits) (schema : Option Schema) (e : EntityType)
    (options : List (String × String)) : Except RequestError Query :=
  addOptions limits e (fun text => checkExpand limits schema (text.length + 1) e text)
    { query := plain e } options

/-- The query of a query string, with or without its question mark. -/
def ofString (limits : QueryLimits) (schema : Option Schema) (e : EntityType) (s : String) :
    Except RequestError Query :=
  let text :=
    match s.toList with
    | '?' :: rest => String.ofList rest
    | _ => s
  ofOptions limits schema e (Text.formPairs text)

end Query

end ODataEngine
