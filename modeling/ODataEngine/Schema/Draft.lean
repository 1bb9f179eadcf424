import ODataEngine.Schema.Basic
import ODataEngine.Text.Blank

/-!
# Drafts of schemas

The declarations of a schema before they are known to fit together. `Draft.build` checks names,
repetitions and references, entity types first, then collections, navigation properties and
operations, and reports the first fault. Of the navigation properties it checks and links those that
are declared for it; those that an entity type has inherited stay as they are.
-/

namespace ODataEngine

/-- Why a draft is no schema. -/
inductive SchemaError where
  | invalidName (name : String)
  | duplicateEntity (name : String)
  | duplicateCollection (name : String)
  | duplicateMember (entity name : String)
  | missingKeyField (entity key : String)
  | unknownEntity (name : String)
  | unknownCollection (name : String)
  | duplicateOperation (collection name : String)
deriving DecidableEq

/-- The wording of a schema error. -/
def SchemaError.message : SchemaError → String
  | invalidName name => s!"invalid name '{name}'"
  | duplicateEntity name => s!"entity '{name}' is registered twice"
  | duplicateCollection name => s!"collection '{name}' is registered twice"
  | duplicateMember entity name => s!"entity '{entity}' declares '{name}' more than once"
  | missingKeyField entity key => s!"key '{key}' of entity '{entity}' is not a declared field"
  | unknownEntity name => s!"unknown entity '{name}'"
  | unknownCollection name => s!"unknown collection '{name}'"
  | duplicateOperation collection name =>
    s!"operation '{name}' is registered twice on '{collection}'"

namespace Draft

/-! ## Names -/

/-- May not stand in a name: blanks and the punctuation of paths and options. -/
def isReserved (c : Char) : Bool :=
  Text.isBlank c || "/(),;'=".toList.contains c

/-- A name is not empty, does not begin with a dollar sign and holds no reserved character. -/
def isName (name : String) : Bool :=
  !name.toList.isEmpty && name.toList.head? != some '$' && !name.toList.any isReserved

/-- Refuses what is no name. -/
def checkName (name : String) : Except SchemaError Unit :=
  if isName name then .ok () else .error (.invalidName name)

theorem named_nil : ∀ n ∈ ([] : List Navigation), isName n.name = true :=
  List.forall_mem_nil _

theorem apart_nil :
    ([] : List Navigation).Pairwise fun n m => Text.sameName n.name m.name = false :=
  .nil

end Draft

/-! ## Declarations -/

/-- The declaration of an entity type. Its navigation properties are declared apart from it, but for
those that it has inherited: an entity type that was taken from another schema still has the
navigation properties that were linked there. They have names that can be told apart, and that is
all that is known of them here. -/
structure EntityDeclaration where
  name : String
  key : String
  fields : List Field
  inherited : List Navigation := []
  named : ∀ n ∈ inherited, Draft.isName n.name = true := by exact Draft.named_nil
  apart : inherited.Pairwise (fun n m => Text.sameName n.name m.name = false) := by
    exact Draft.apart_nil
deriving DecidableEq

/-- The entity type of a declaration, bare of navigation properties but for the inherited ones. -/
def EntityDeclaration.bare (e : EntityDeclaration) : EntityType :=
  { name := e.name, key := e.key, fields := e.fields, navigations := e.inherited }

/-- The declarations of a schema. The target type of a navigation property is not declared: it
follows from the collection. -/
structure Draft where
  nameSpace : String := "Default"
  entities : List EntityDeclaration := []
  collections : List (String × String) := []
  navigations : List (String × Navigation) := []
  operations : List (String × Operation) := []

namespace Draft

/-! ## Entity types -/

/-- Checks the names of fields: each is a name, and differs from the earlier ones in more than
case. -/
def checkFields (entity : String) (earlier : List Field) : List Field → Except SchemaError Unit
  | [] => .ok ()
  | f :: rest => do
    checkName f.name
    if earlier.any fun g => Text.sameName g.name f.name then
      .error (.duplicateMember entity f.name)
    else checkFields entity (earlier ++ [f]) rest

/-- Checks entity types: names, repetitions, fields and keys. -/
def checkEntities (earlier : List EntityType) : List EntityType → Except SchemaError Unit
  | [] => .ok ()
  | e :: rest => do
    checkName e.name
    if earlier.any (·.name == e.name) then .error (.duplicateEntity e.name)
    else
      checkFields e.name [] e.fields
      if (e.field? e.key).isNone then .error (.missingKeyField e.name e.key)
      else checkEntities (earlier ++ [e]) rest

/-! ## Collections -/

/-- Checks collections: names, repetitions and entity types. -/
def checkCollections (entities : List EntityType) (earlier : List (String × String)) :
    List (String × String) → Except SchemaError Unit
  | [] => .ok ()
  | (name, entity) :: rest => do
    checkName name
    if earlier.any (·.1 == name) then .error (.duplicateCollection name)
    else if !entities.any (·.name == entity) then .error (.unknownEntity entity)
    else checkCollections entities (earlier ++ [(name, entity)]) rest

/-! ## Navigation properties -/

/-- Adds a navigation property to the first entity type of the owner's name. -/
def addNavigation (owner : String) (n : Navigation) : List EntityType → List EntityType
  | [] => []
  | e :: rest =>
    if e.name == owner then { e with navigations := e.navigations ++ [n] } :: rest
    else e :: addNavigation owner n rest

/-- Adds the navigation properties to their owners. -/
def addNavigations (collections : List (String × String)) (entities : List EntityType) :
    List (String × Navigation) → Except SchemaError (List EntityType)
  | [] => .ok entities
  | (owner, n) :: rest => do
    checkName n.name
    -- the collection is looked up before the owner
    match collections.find? (·.1 == n.collection) with
    | none => .error (.unknownCollection n.collection)
    | some (_, target) =>
      match entities.find? (·.name == owner) with
      | none => .error (.unknownEntity owner)
      | some e =>
        if e.declares n.name then .error (.duplicateMember owner n.name)
        else
          addNavigations collections (addNavigation owner { n with target := target } entities) rest

/-! ## Operations -/

/-- Adds an operation to the first collection of a name. -/
def addOperation (collection : String) (op : Operation) : List Collection → List Collection
  | [] => []
  | c :: rest =>
    if c.name == collection then { c with operations := c.operations ++ [op] } :: rest
    else c :: addOperation collection op rest

/-- Adds the operations to their collections. -/
def addOperations (collections : List Collection) :
    List (String × Operation) → Except SchemaError (List Collection)
  | [] => .ok collections
  | (name, op) :: rest => do
    checkName op.name
    match collections.find? (·.name == name) with
    | none => .error (.unknownCollection name)
    | some c =>
      if (c.operation? op.name op.binding).isSome then .error (.duplicateOperation name op.name)
      else addOperations (addOperation name op collections) rest

/-! ## The schema -/

/-- The collections with their entity types in full. -/
def resolveCollections (entities : List EntityType) (collections : List (String × String)) :
    List Collection :=
  collections.filterMap fun (name, entity) =>
    (entities.find? (·.name == entity)).map fun e => { name := name, entity := e }

/-- The schema of a draft, or its first fault. -/
def build (d : Draft) : Except SchemaError Schema := do
  let bare := d.entities.map (·.bare)
  checkEntities [] bare
  checkCollections bare [] d.collections
  let entities ← addNavigations d.collections bare d.navigations
  let collections ← addOperations (resolveCollections entities d.collections) d.operations
  return { nameSpace := d.nameSpace, entities := entities, collections := collections }

end Draft

end ODataEngine
