import ODataEngine.Json.Printer
import ODataEngine.Schema.Draft
import ODataEngine.Settings.Shape
import ODataEngine.Store.Basic
import ODataEngine.Text.Cut

/-!
# The schema section

The part of the settings that declares entity types with their navigation properties, and
collections with the records they begin with. It is read from a document of fixed shape, written
back as one, and built into a schema with filled stores.
-/

namespace ODataEngine

/-! ## Declarations -/

/-- A field: its name and the text of its type. -/
structure FieldSection where
  name : String
  type : String

/-- A navigation property. -/
structure NavigationSection where
  name : String
  collection : String
  multiplicity : Multiplicity
  link : Link

/-- An entity type. -/
structure EntitySection where
  name : String
  key : String
  fields : List FieldSection
  navigations : List NavigationSection := []

/-- A collection and the records it begins with. -/
structure CollectionSection where
  name : String
  entity : String
  seed : List Record := []

/-- The schema section. -/
structure SchemaSection where
  nameSpace : Option String := none
  entities : List EntitySection := []
  collections : List CollectionSection := []

/-! ## Documents -/

/-- The words for multiplicities. -/
def Multiplicity.words : List (String × Multiplicity) := [("one", .one), ("many", .many)]

/-- The word for a multiplicity. -/
def Multiplicity.word : Multiplicity → String
  | one => "one"
  | many => "many"

/-- The words for the rules of links. -/
def LinkRule.words : List (String × LinkRule) :=
  [("foreign_key", .foreignKey), ("key_list", .keyList)]

/-- The word for the rule of a link. -/
def LinkRule.word : LinkRule → String
  | foreignKey => "foreign_key"
  | keyList => "key_list"

namespace FieldSection

/-- Reads a field. -/
def ofSetting? (rigor : Rigor) (v : Setting) : Option FieldSection := do
  let r ← Shape.members? rigor ["name", "type"] v
  let name ← Shape.required r "name" Shape.text?
  let type ← Shape.required r "type" Shape.text?
  return { name, type }

/-- The document of a field. -/
def document (f : FieldSection) : Json :=
  .object [("name", .string f.name), ("type", .string f.type)]

end FieldSection

namespace NavigationSection

/-- Reads a navigation property. -/
def ofSetting? (rigor : Rigor) (v : Setting) : Option NavigationSection := do
  let r ← Shape.members? rigor ["name", "collection", "kind", "via", "local", "remote"] v
  let name ← Shape.required r "name" Shape.text?
  let collection ← Shape.required r "collection" Shape.text?
  let multiplicity ← Shape.required r "kind" (Shape.choice? rigor Multiplicity.words)
  let rule ← Shape.required r "via" (Shape.choice? rigor LinkRule.words)
  let near ← Shape.required r "local" Shape.text?
  let remote ← Shape.required r "remote" Shape.text?
  return { name, collection, multiplicity, link := { rule, near, remote } }

/-- The document of a navigation property. -/
def document (n : NavigationSection) : Json :=
  .object
    [("name", .string n.name), ("collection", .string n.collection),
      ("kind", .string n.multiplicity.word), ("via", .string n.link.rule.word),
      ("local", .string n.link.near), ("remote", .string n.link.remote)]

/-- The navigation property that is declared; its target follows from the collection. -/
def navigation (n : NavigationSection) : Navigation :=
  { name := n.name, collection := n.collection, target := "", multiplicity := n.multiplicity
    link := n.link }

end NavigationSection

namespace EntitySection

/-- Reads an entity type. -/
def ofSetting? (rigor : Rigor) (v : Setting) : Option EntitySection := do
  let r ← Shape.members? rigor ["name", "key", "fields", "navigations"] v
  let name ← Shape.required r "name" Shape.text?
  let key ← Shape.required r "key" Shape.text?
  let fields ← Shape.required r "fields" (Shape.list? (FieldSection.ofSetting? rigor))
  let navigations ← Shape.optional r "navigations" [] (Shape.list? (NavigationSection.ofSetting? rigor))
  return { name, key, fields, navigations }

/-- The document of an entity type. -/
def document (e : EntitySection) : Json :=
  .object
    [("name", .string e.name), ("key", .string e.key),
      ("fields", .array (e.fields.map (·.document))),
      ("navigations", .array (e.navigations.map (·.document)))]

end EntitySection

namespace CollectionSection

/-- Reads a collection. -/
def ofSetting? (rigor : Rigor) (v : Setting) : Option CollectionSection := do
  let r ← Shape.members? rigor ["name", "entity", "seed"] v
  let name ← Shape.required r "name" Shape.text?
  let entity ← Shape.required r "entity" Shape.text?
  let seed ← Shape.optional r "seed" [] (Shape.list? (Shape.record? rigor))
  return { name, entity, seed }

/-- The document of a collection; no records are left out. -/
def document (c : CollectionSection) : Json :=
  .object ([("name", .string c.name), ("entity", .string c.entity)] ++
    (if c.seed.isEmpty then [] else [("seed", .array (c.seed.map .object))]))

end CollectionSection

/-! ## Types of fields -/

/-- Reads the type of a field: a type name, or `Collection(…)` around one for a list. -/
def FieldSection.readType? (text : List Char) : Option (EdmType × Bool) :=
  let inner :=
    (Text.afterStart? "Collection(".toList text).bind (Text.beforeEnd? [')'])
  match inner with
  | some inner => (EdmType.ofName? (String.ofList (Text.trim inner))).map (·, true)
  | none => (EdmType.ofName? (String.ofList text)).map (·, false)

/-- The field that an entity type of a name declares. -/
def FieldSection.field (f : FieldSection) (entity : String) : Except CauseChain Field :=
  let text := Text.trim f.type.toList
  match readType? text with
  | some (type, isList) => .ok { name := f.name, type, isList }
  | none =>
    .error [s!"entity '{entity}', field '{f.name}'", s!"unknown field type '{String.ofList text}'"]

/-- The declaration of an entity type. -/
def EntitySection.declaration (e : EntitySection) : Except CauseChain EntityDeclaration := do
  let fields ← e.fields.mapM fun f => f.field e.name
  return { name := e.name, key := e.key, fields }

/-! ## Seeds -/

namespace CollectionSection

/-- What is wrong with a member of a record that a collection begins with. -/
def memberFault? (e : EntityType) : String × Json → Option String
  | (name, value) =>
    match e.field? name with
    | none => some s!"unknown field '{name}'"
    | some f =>
      if f.accepts value then none else some s!"field '{name}' does not accept {value.render}"

/-- Checks that the records of a collection have only declared members of matching types. -/
def checkSeed (e : EntityType) (collection : String) : Nat → List Record → Except CauseChain Unit
  | _, [] => .ok ()
  | i, r :: rest =>
    match r.findSome? (memberFault? e) with
    | some fault => .error [s!"collection '{collection}', seed #{i}: {fault}"]
    | none => checkSeed e collection (i + 1) rest

/-- The filled store of a collection. -/
def store (entities : List EntityDeclaration) (c : CollectionSection) :
    Except CauseChain (String × Store) :=
  match entities.find? (·.name == c.entity) with
  | none => .error [s!"collection '{c.name}' names unknown entity '{c.entity}'"]
  | some e => do
    checkSeed e.bare c.name 0 c.seed
    return (c.name, { key := e.key, keyType := e.bare.keyType, records := c.seed })

end CollectionSection

/-! ## The section -/

namespace SchemaSection

/-- Reads a schema section. -/
def ofSetting? (rigor : Rigor) (v : Setting) : Option SchemaSection := do
  let r ← Shape.members? rigor ["namespace", "entities", "collections"] v
  let nameSpace ← Shape.optional r "namespace" none (Shape.nullable Shape.text?)
  let entities ← Shape.optional r "entities" [] (Shape.list? (EntitySection.ofSetting? rigor))
  let collections ← Shape.optional r "collections" [] (Shape.list? (CollectionSection.ofSetting? rigor))
  return { nameSpace, entities, collections }

/-- Reads a schema section out of JSON. -/
def ofJson? (v : Json) : Option SchemaSection := ofSetting? .strict (.ofJson v)

/-- The document of a schema section. -/
def document (s : SchemaSection) : Json :=
  let nameSpace :=
    match s.nameSpace with
    | some name => [("namespace", Json.string name)]
    | none => []
  .object (nameSpace ++
    [("entities", .array (s.entities.map (·.document))),
      ("collections", .array (s.collections.map (·.document)))])

/-- The declarations of a section, given those of its entity types. -/
def draft (s : SchemaSection) (entities : List EntityDeclaration) : Draft :=
  let usual : Draft := {}
  { nameSpace := s.nameSpace.getD usual.nameSpace
    entities := entities
    collections := s.collections.map fun c => (c.name, c.entity)
    navigations := s.entities.flatMap fun e => e.navigations.map fun n => (e.name, n.navigation) }

/-- The schema of a section and the stores of its collections, or the causes why there is none. -/
def build (s : SchemaSection) : Except CauseChain (Schema × Stores) := do
  let entities ← s.entities.mapM (·.declaration)
  let stores ← s.collections.mapM (CollectionSection.store entities)
  match (s.draft entities).build with
  | .ok schema => return (schema, stores)
  | .error e => throw ["invalid schema", e.message]

end SchemaSection

end ODataEngine
