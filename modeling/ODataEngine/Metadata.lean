import ODataEngine.Route.Site

/-!
# Service documents

The documents in which a service describes itself: the metadata document with entity types,
operations and the container of collections, and the service document with the collections alone.
-/

namespace ODataEngine

namespace Metadata

/-- The version of the metadata format. -/
def version : String := "4.0"

/-- The name of the container of collections. -/
def container : String := "Container"

/-- The member that marks what holds many values. -/
def listMark : Record := [("$Collection", .bool true)]

/-- The member that marks what may be null. -/
def nullableMark : Record := [("$Nullable", .bool true)]

/-- A name with the namespace before it. -/
def qualified (nameSpace name : String) : Json := .string s!"{nameSpace}.{name}"

/-- The description of a field. All but the key may be null. -/
def fieldDocument (key : String) (f : Field) : Json :=
  .object ((if f.isList then listMark else []) ++ [("$Type", .string f.type.qualifiedName)] ++
    (if f.name = key then [] else nullableMark))

/-- The description of a navigation property. -/
def navigationDocument (nameSpace : String) (n : Navigation) : Json :=
  .object ([("$Kind", .string "NavigationProperty")] ++
    (if n.multiplicity = .many then listMark else nullableMark) ++
    [("$Type", qualified nameSpace n.target)])

/-- The description of an entity type. -/
def entityDocument (nameSpace : String) (e : EntityType) : Json :=
  let head : Record := [("$Kind", .string "EntityType"), ("$Key", .ofStrings [e.key])]
  let field (r : Record) (f : Field) : Record := r.insert f.name (fieldDocument e.key f)
  let navigation (r : Record) (n : Navigation) : Record :=
    r.insert n.name (navigationDocument nameSpace n)
  .object (e.navigations.foldl navigation (e.fields.foldl field head))

/-- The description of an operation on the collection of an entity type. -/
def operationDocument (nameSpace : String) (e : EntityType) (op : Operation) : Json :=
  let kind := if op.kind = .function then "Function" else "Action"
  let parameter : Record :=
    [("$Name", .string "bindingParameter"), ("$Type", qualified nameSpace e.name)] ++
      (if op.binding = .collection then listMark else [])
  .object
    [("$Kind", .string kind), ("$IsBound", .bool true), ("$Parameter", .array [.object parameter]),
      ("$ReturnType", .object ([("$Type", .string "Edm.Untyped")] ++ nullableMark))]

/-- Adds an operation to those of its name; what else has the name stays as it is. -/
def addOperation (document : Record) (name : String) (operation : Json) : Record :=
  match document.get? name with
  | none => document.insert name (.array [operation])
  | some (.array overloads) => document.insert name (.array (overloads ++ [operation]))
  | some _ => document

/-- The description of a collection in the container. -/
def collectionDocument (nameSpace : String) (c : Collection) : Json :=
  let bindings : Record :=
    c.entity.navigations.foldl (fun (r : Record) n => r.insert n.name (.string n.collection)) []
  .object (listMark ++ [("$Type", qualified nameSpace c.entity.name)] ++
    (if c.entity.navigations.isEmpty then []
      else [("$NavigationPropertyBinding", .object bindings)]))

/-- The description of the container. -/
def containerDocument (s : Schema) : Json :=
  .object (s.collections.foldl
    (fun (r : Record) c => r.insert c.name (collectionDocument s.nameSpace c))
    [("$Kind", .string "EntityContainer")])

/-- The descriptions of everything in the namespace. -/
def schemaDocument (s : Schema) : Record :=
  let entities : Record :=
    s.entities.foldl (fun (r : Record) e => r.insert e.name (entityDocument s.nameSpace e)) []
  let operations := s.collections.foldl (fun r c =>
    c.operations.foldl (fun r op =>
      addOperation r op.name (operationDocument s.nameSpace c.entity op)) r) entities
  operations.insert container (containerDocument s)

/-- The metadata document. -/
def document (s : Schema) : Json :=
  -- a namespace named like one of the members takes the place of that
  .object (Record.insert
    [("$Version", .string version), ("$EntityContainer", qualified s.nameSpace container)]
    s.nameSpace (.object (schemaDocument s)))

/-- The entry of a collection in the service document. -/
def serviceEntry (c : Collection) : Json :=
  .object [("name", .string c.name), ("kind", .string "EntitySet"), ("url", .string c.name)]

/-- The service document. -/
def serviceDocument (s : Schema) (site : Site) : Json :=
  .object [("@odata.context", .string site.metadataUrl),
    ("value", .array (s.collections.map serviceEntry))]

end Metadata

end ODataEngine
