import ODataEngine.Edm.Basic
import ODataEngine.Text.Letters

/-!
# Schemas

What a service serves: entity types with typed fields and navigation properties, collections of
entities, and operations bound to collections or to their entities. Fields, keys and navigation
properties are found by name in any case; types, collections and operations by exact name.
-/

namespace ODataEngine

/-- A field of an entity type. -/
structure Field where
  name : String
  type : EdmType
  isList : Bool := false
deriving DecidableEq

/-- The value may stand in the field. A list holds values of its type and no nulls. -/
def Field.accepts (f : Field) : Json → Bool
  | .null => true
  | .array items => f.isList && items.all fun v => !v.isNull && f.type.accepts v
  | v => !f.isList && f.type.accepts v

/-- How many records a navigation property leads to. -/
inductive Multiplicity where
  | one
  | many
deriving DecidableEq

/-- How related records are found. -/
inductive LinkRule where
  | foreignKey
  | keyList
deriving DecidableEq

/-- The fields that relate two records: by a foreign key the remote field equals the near one, by a
key list it equals an item of the near one. -/
structure Link where
  rule : LinkRule
  near : String
  remote : String
deriving DecidableEq

/-- A navigation property: the collection it leads to, the entity type there, and the link. -/
structure Navigation where
  name : String
  collection : String
  target : String
  multiplicity : Multiplicity
  link : Link
deriving DecidableEq

/-- An entity type. -/
structure EntityType where
  name : String
  key : String
  fields : List Field
  navigations : List Navigation := []
deriving DecidableEq

namespace EntityType

/-- The names of the declared fields, in order. -/
def fieldNames (e : EntityType) : List String := e.fields.map (·.name)

/-- The field of a name, in any case. -/
def field? (e : EntityType) (name : String) : Option Field :=
  e.fields.find? fun f => Text.sameName f.name name

/-- The type of a field. -/
def typeOf? (e : EntityType) (name : String) : Option EdmType := (e.field? name).map (·.type)

/-- The type of the key. -/
def keyType (e : EntityType) : EdmType := (e.typeOf? e.key).getD .string

/-- The navigation property of a name, in any case. -/
def navigation? (e : EntityType) (name : String) : Option Navigation :=
  e.navigations.find? fun n => Text.sameName n.name name

/-- The name is that of a field or a navigation property. -/
def declares (e : EntityType) (name : String) : Bool :=
  (e.field? name).isSome || (e.navigation? name).isSome

theorem mem_of_field? {e : EntityType} {name : String} {f : Field} (h : e.field? name = some f) :
    f ∈ e.fields ∧ Text.sameName f.name name = true :=
  ⟨List.mem_of_find?_eq_some h, by simpa using List.find?_some h⟩

theorem mem_of_navigation? {e : EntityType} {name : String} {n : Navigation}
    (h : e.navigation? name = some n) :
    n ∈ e.navigations ∧ Text.sameName n.name name = true :=
  ⟨List.mem_of_find?_eq_some h, by simpa using List.find?_some h⟩

end EntityType

/-! ## Operations and collections -/

/-- Functions only read; actions may change records and take a body. -/
inductive OperationKind where
  | function
  | action
deriving DecidableEq

/-- The method that invokes an operation. -/
def OperationKind.method : OperationKind → String
  | function => "GET"
  | action => "POST"

/-- What an operation is called on. -/
inductive Binding where
  | collection
  | entity
deriving DecidableEq

/-- An operation. The handler names what it does. -/
structure Operation where
  name : String
  kind : OperationKind
  binding : Binding
  handler : String
deriving DecidableEq

/-- A collection of entities of one type, with its operations. -/
structure Collection where
  name : String
  entity : EntityType
  operations : List Operation := []
deriving DecidableEq

/-- The operation of a name with the given binding. -/
def Collection.operation? (c : Collection) (name : String) (binding : Binding) : Option Operation :=
  c.operations.find? fun op => op.binding == binding && op.name == name

/-- A schema. -/
structure Schema where
  nameSpace : String
  entities : List EntityType
  collections : List Collection
deriving DecidableEq

namespace Schema

/-- The entity type of a name. -/
def entity? (s : Schema) (name : String) : Option EntityType := s.entities.find? (·.name == name)

/-- The collection of a name. -/
def collection? (s : Schema) (name : String) : Option Collection :=
  s.collections.find? (·.name == name)

end Schema

end ODataEngine
