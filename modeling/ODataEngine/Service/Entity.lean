import ODataEngine.Query.Options
import ODataEngine.Service.Basic
import ODataEngine.Store.Related

/-!
# Entity documents

How an entity is shown: its address, the selected fields, and for each navigation property to expand
the related entities, shown in the same way under the options of its own item.
-/

namespace ODataEngine.Service

/-- The name of the member that holds the address of an entity. -/
def addressMember : String := "@odata.id"

/-- The members of a record that a query selects; a query that selects no field shows none. -/
def shown (e : EntityType) (q : Query) (r : Record) : Record :=
  let names := q.select.filter fun name => (e.field? name).isSome
  -- projecting on no names would keep every member
  if names.isEmpty then [] else r.project names

/-- The navigation properties that the items of an expand text name, each with its item. A name
that is none is skipped, or refused under strict limits. -/
def expansions (limits : QueryLimits) (e : EntityType) :
    List ExpandItem → Except RequestError (List (Navigation × ExpandItem))
  | [] => .ok []
  | item :: rest =>
    match e.navigation? item.property with
    | some n => do return (n, item) :: (← expansions limits e rest)
    | none =>
      if limits.strictExpand then .error (.navigationNotFound e.name item.property)
      else expansions limits e rest

/-- The value of an expanded navigation property: the entities it leads to, or the one entity. None
is shown where there is no entity, unless the property is selected. -/
def relatedValue (n : Navigation) (selected : Bool) (entities : List Record) : Option Json :=
  match n.multiplicity, entities with
  | .many, entities => some (.array (entities.map .object))
  | .one, entity :: _ => some (.object entity)
  | .one, [] => if selected then some .null else none

/-- The member that one expansion adds to an entity document. `show` makes the documents of the
related records. -/
def expand (sv : Service) (c : Collection) (q : Query) (r : Record)
    (document : Collection → Query → Record → Except RequestError Record) (n : Navigation)
    (item : ExpandItem) : Except RequestError (Option (String × Json)) := do
  let target ← sv.targetOf c.entity n
  let sub ← Query.ofOptions sv.limits none target.entity item.options
  let s ← sv.storeOf target
  let key := c.entity.keyType.keyLiteral (r.valueOf c.entity.key)
  let rows ← StoreError.during "expand" target.name (some key)
    (n.follow r s { sub with select := [] })
  let entities ← rows.mapM (document target sub)
  return (relatedValue n (q.selects n.name) entities).map fun v => (n.name, v)

/-- The document of an entity, with as many levels of expansions. -/
def entityDocument (sv : Service) : Nat → Collection → Query → Record → Except RequestError Record
  | 0, _, _, _ => .ok []
  | levels + 1, c, q, r => do
    let own : Record := [(addressMember, .string (sv.site.entityUrl c.name c.entity r))]
    let items ← Expand.parse q.expand
    -- names are refused before any store is asked
    let found ← expansions sv.limits c.entity items
    let added ← found.mapM fun (n, item) => expand sv c q r (entityDocument sv levels) n item
    return (own.insertAll (shown c.entity q r)).insertAll (added.filterMap id)

/-- The document of an entity. Each expand text is shorter than the one around it, so as many levels
as the outermost has characters are enough. -/
def entity (sv : Service) (c : Collection) (q : Query) (r : Record) : Except RequestError Record :=
  entityDocument sv (q.expand.length + 1) c q r

end ODataEngine.Service
