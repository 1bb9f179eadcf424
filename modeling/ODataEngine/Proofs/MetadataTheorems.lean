import ODataEngine.Proofs.DescriptionTheorems

/-!
# What the metadata document tells

Entity types, operations and the container share the names of the namespace, though a schema keeps
only those of one sort apart. An operation finds no room under the name of an entity type, and the
container takes its own name from both.

- `get?_addOperations_object` and `holdsOverloads_addOperations` say what adding operations leaves
  under a name, each by a step and a run along the operations.
- `Metadata.document_tells`: nothing else is lost but a field that is spelled like an inherited
  navigation property. Each entity type, each name of operations and the container is read back as
  the schema has it, exactly unless a name is so taken.
-/

namespace ODataEngine

namespace Metadata

/-! ## The operations of a name -/

/-- All operations with their collections, in order. -/
def operations (s : Schema) : List (Collection × Operation) :=
  s.collections.flatMap fun c => c.operations.map fun op => (c, op)

/-- The operations of a name. -/
def operationsNamed (s : Schema) (name : String) : List (Collection × Operation) :=
  (operations s).filter (·.2.name == name)

theorem mem_operationsNamed {s : Schema} {name : String} {p : Collection × Operation} :
    p ∈ operationsNamed s name ↔
      p.1 ∈ s.collections ∧ p.2 ∈ p.1.operations ∧ p.2.name = name := by
  rw [operationsNamed, List.mem_filter, beq_iff_eq, ← and_assoc]
  apply and_congr_left'
  constructor
  · intro hp
    obtain ⟨c, hc, hp⟩ := List.mem_flatMap.1 hp
    obtain ⟨op, hop, rfl⟩ := List.mem_map.1 hp
    exact ⟨hc, hop⟩
  · intro hp
    exact List.mem_flatMap.2 ⟨p.1, hp.1, List.mem_map.2 ⟨p.2, hp.2, rfl⟩⟩

/-! ## The names of the namespace -/

/-- Under the name stand these overloads and nothing else. -/
def HoldsOverloads (r : Record) (name : String) (overloads : List Json) : Prop :=
  r.get? name = if overloads.isEmpty then none else some (.array overloads)

theorem get?_addOperation_of_ne {r : Record} {name other : String} (h : other ≠ name)
    (operation : Json) : (addOperation r name operation).get? other = r.get? other := by
  unfold addOperation
  split
  · exact Record.get?_insert_of_ne r _ h
  · exact Record.get?_insert_of_ne r _ h
  · rfl

/-- An operation finds no room under the name of an object. -/
theorem get?_addOperation_object {r members : Record} {name : String}
    (h : r.get? name = some (.object members)) (other : String) (operation : Json) :
    (addOperation r other operation).get? name = some (.object members) := by
  by_cases hname : name = other
  · rw [← hname, addOperation, h]
    exact h
  · rw [get?_addOperation_of_ne hname, h]

/-- An operation is put behind the overloads of its name, and changes those of no other name. -/
theorem holdsOverloads_addOperation {r : Record} {name : String} {overloads : List Json}
    (h : HoldsOverloads r name overloads) (other : String) (operation : Json) :
    HoldsOverloads (addOperation r other operation) name
      (overloads ++ if other = name then [operation] else []) := by
  by_cases hname : other = name
  · have hnone : (overloads ++ [operation]).isEmpty = false := by simp
    rw [if_pos hname, hname, HoldsOverloads, hnone, if_neg Bool.false_ne_true]
    rw [HoldsOverloads] at h
    cases overloads with
    | nil =>
      rw [addOperation, h]
      exact Record.get?_insert_self r name _
    | cons first rest =>
      rw [addOperation, h]
      exact Record.get?_insert_self r name _
  · rw [if_neg hname, List.append_nil, HoldsOverloads,
      get?_addOperation_of_ne (Ne.symm hname)]
    exact h

/-- The descriptions of operations, put one after the other under their names. -/
def addOperations (nameSpace : String) (r : Record) (operations : List (Collection × Operation)) :
    Record :=
  operations.foldl
    (fun r p => addOperation r p.2.name (operationDocument nameSpace p.1.entity p.2)) r

/-- Operations leave an object as it is. -/
theorem get?_addOperations_object (nameSpace : String) {r members : Record} {name : String}
    (h : r.get? name = some (.object members)) (operations : List (Collection × Operation)) :
    (addOperations nameSpace r operations).get? name = some (.object members) := by
  induction operations generalizing r with
  | nil => exact h
  | cons p rest ih => exact ih (get?_addOperation_object h p.2.name _)

/-- The operations of a name are put behind its overloads, in order. -/
theorem holdsOverloads_addOperations (nameSpace : String) {r : Record} {name : String}
    {overloads : List Json} (h : HoldsOverloads r name overloads)
    (operations : List (Collection × Operation)) :
    HoldsOverloads (addOperations nameSpace r operations) name (overloads ++
      (operations.filter (·.2.name == name)).map
        fun p => operationDocument nameSpace p.1.entity p.2) := by
  -- each operation of the name is one more overload, so the overloads vary along the run
  induction operations generalizing r overloads with
  | nil =>
    rw [List.filter_nil, List.map_nil, List.append_nil]
    exact h
  | cons p rest ih =>
    have hstep := ih (holdsOverloads_addOperation h p.2.name
      (operationDocument nameSpace p.1.entity p.2))
    by_cases hname : p.2.name = name
    · rw [List.filter_cons_of_pos (by simpa using hname), List.map_cons, List.append_cons]
      rw [if_pos hname] at hstep
      exact hstep
    · rw [List.filter_cons_of_neg (by simpa using hname)]
      rw [if_neg hname, List.append_nil] at hstep
      exact hstep

section

variable {s : Schema} (h : s.Sound)

/-- The members of the namespace for the entity types. -/
def typeMembers (s : Schema) : Record :=
  s.entities.map fun e => (e.name, entityDocument s.nameSpace e)

include h

theorem nodup_names_typeMembers : (typeMembers s).names.Nodup := by
  rw [typeMembers, Record.names, List.map_map]
  exact h.entityNames

/-- No entity type takes the place of another, and the container stands last. -/
theorem schemaDocument_eq :
    schemaDocument s = (addOperations s.nameSpace (typeMembers s) (operations s)).insert container
      (containerDocument s) := by
  have htypes : s.entities.foldl
      (fun (r : Record) e => r.insert e.name (entityDocument s.nameSpace e)) []
        = typeMembers s := by
    rw [Record.foldl_insert EntityType.name (entityDocument s.nameSpace)]
    exact Record.insertAll_nil (nodup_names_typeMembers h)
  have hoperations : addOperations s.nameSpace (typeMembers s) (operations s)
      = s.collections.foldl (fun r c => c.operations.foldl (fun r op =>
          addOperation r op.name (operationDocument s.nameSpace c.entity op)) r)
          (typeMembers s) := by
    -- the run along the collections and their operations is one run along all operations
    rw [addOperations, operations, List.foldl_flatMap]
    simp only [List.foldl_map]
  rw [schemaDocument, htypes, hoperations]

/-- Under the name of an entity type stands the type, unless the container has the name. -/
theorem get?_schemaDocument_entity {e : EntityType} (he : e ∈ s.entities)
    (hne : e.name ≠ container) :
    (schemaDocument s).get? e.name = some (entityDocument s.nameSpace e) := by
  have htype : (e.name, entityDocument s.nameSpace e) ∈ typeMembers s :=
    List.mem_map.2 ⟨e, he, rfl⟩
  rw [← Record.get?_eq_some_iff (nodup_names_typeMembers h)] at htype
  rw [schemaDocument_eq h, Record.get?_insert_of_ne _ _ hne]
  exact get?_addOperations_object s.nameSpace htype (operations s)

/-- Under a name that neither the container nor an entity type has stand the overloads of the
operations of that name. -/
theorem holdsOverloads_schemaDocument {name : String} (hne : name ≠ container)
    (hnone : ∀ e ∈ s.entities, e.name ≠ name) :
    HoldsOverloads (schemaDocument s) name
      ((operationsNamed s name).map fun p => operationDocument s.nameSpace p.1.entity p.2) := by
  have hfree : HoldsOverloads (typeMembers s) name [] := by
    rw [HoldsOverloads, Record.get?_eq_none_iff.2]
    · rfl
    · intro hmem
      rw [typeMembers, Record.names, List.map_map] at hmem
      obtain ⟨e, he, hname⟩ := List.mem_map.1 hmem
      exact hnone e he hname
  rw [HoldsOverloads, schemaDocument_eq h, Record.get?_insert_of_ne _ _ hne]
  exact holdsOverloads_addOperations s.nameSpace hfree (operations s)

/-- The type of an entity is told, unless the container has its name or a field is spelled like a
navigation property. -/
theorem readType_schemaDocument_iff {e : EntityType} (he : e ∈ s.entities) :
    ((schemaDocument s).get? e.name).bind (readType s.nameSpace) = some (typeView e) ↔
      e.name ≠ container ∧ SpelledApart e := by
  by_cases hname : e.name = container
  · -- the container is an object as well, and only its kind tells it from an entity type
    have hkind : readType s.nameSpace (containerDocument s) = none := by
      rw [containerDocument_eq h]
      rfl
    refine iff_of_false (fun htold => ?_) fun hfree => hfree.1 hname
    rw [hname, schemaDocument, Record.get?_insert_self, Option.bind_some, hkind] at htold
    cases htold
  · rw [and_iff_right hname, get?_schemaDocument_entity h he hname, Option.bind_some,
      readType_entityDocument_iff (h.entities e he) s.nameSpace]

/-- The overloads of a name are told, unless the container or an entity type has the name. -/
theorem readOverloads_schemaDocument_iff {name : String} (hsome : operationsNamed s name ≠ []) :
    ((schemaDocument s).get? name).bind (readOverloads s.nameSpace)
        = some ((operationsNamed s name).map overloadView) ↔
      name ≠ container ∧ ∀ e ∈ s.entities, e.name ≠ name := by
  constructor
  · intro htold
    -- what stands under the name instead is an object, and from that no overloads are read
    have hne : name ≠ container := by
      intro hname
      rw [hname, schemaDocument, Record.get?_insert_self] at htold
      cases htold
    refine ⟨hne, ?_⟩
    intro e he hname
    rw [← hname] at hne htold
    rw [get?_schemaDocument_entity h he hne] at htold
    cases htold
  · intro hfree
    have hholds := holdsOverloads_schemaDocument h hfree.1 hfree.2
    rw [HoldsOverloads, if_neg (by simpa using hsome)] at hholds
    rw [hholds]
    exact readOverloads_map s.nameSpace (operationsNamed s name)

/-- Only what is registered is named. -/
theorem mem_names_schemaDocument {name : String} (hname : name ∈ (schemaDocument s).names) :
    name = container ∨ (∃ e ∈ s.entities, e.name = name) ∨
      ∃ c ∈ s.collections, ∃ op ∈ c.operations, op.name = name := by
  by_contra hother
  rw [not_or, not_or] at hother
  have hnone : operationsNamed s name = [] := by
    refine List.eq_nil_iff_forall_not_mem.2 ?_
    intro p hp
    have hmem := mem_operationsNamed.1 hp
    exact hother.2.2 ⟨p.1, hmem.1, p.2, hmem.2⟩
  have hholds := holdsOverloads_schemaDocument h hother.1
    fun e he hsame => hother.2.1 ⟨e, he, hsame⟩
  rw [HoldsOverloads, hnone] at hholds
  exact Record.get?_eq_none_iff.1 hholds hname

end

/-- The metadata document of a schema that was built. Under the namespace stands an object. From it,
an entity type is read back with its key, its fields and its navigation properties exactly if it is
not named like the container and no field of it is spelled like a navigation property, which then is
an inherited one. The operations of a name are read back, each as an overload in the order of the
collections, exactly if neither the container nor an entity type has the name. The container is
always read back with every collection, and no other name is there. -/
theorem document_tells {d : Draft} {s : Schema} (hbuild : d.build = .ok s) :
    ∃ names : Record, (document s).record?.bind (·.get? s.nameSpace) = some (.object names) ∧
      (∀ e ∈ s.entities,
        (names.get? e.name).bind (readType s.nameSpace) = some (typeView e) ↔
          e.name ≠ container ∧ ∀ f ∈ e.fields, ∀ n ∈ e.navigations, f.name ≠ n.name) ∧
      (∀ e ∈ s.entities, ∀ f ∈ e.fields, ∀ n ∈ e.navigations, f.name = n.name →
        ∃ declared ∈ d.entities, declared.name = e.name ∧ n ∈ declared.inherited) ∧
      (∀ c ∈ s.collections, ∀ op ∈ c.operations,
        (c, op) ∈ operationsNamed s op.name ∧
        ((names.get? op.name).bind (readOverloads s.nameSpace)
            = some ((operationsNamed s op.name).map overloadView) ↔
          op.name ≠ container ∧ ∀ e ∈ s.entities, e.name ≠ op.name)) ∧
      (names.get? container).bind (readContainer s.nameSpace)
        = some (s.collections.map setView) ∧
      ∀ name ∈ names.names, name = container ∨ (∃ e ∈ s.entities, e.name = name) ∨
        ∃ c ∈ s.collections, ∃ op ∈ c.operations, op.name = name := by
  have h := Schema.sound_of_build hbuild
  refine ⟨schemaDocument s, ?_, ?_, ?_, ?_, ?_, ?_⟩
  · exact Record.get?_insert_self _ s.nameSpace _
  · intro e he
    exact readType_schemaDocument_iff h he
  · intro e he f hf n hn hsame
    refine (Schema.inherited_or_linked_of_build hbuild he hn).resolve_right fun hlinked => ?_
    have hapart := hlinked.2 f hf
    rw [hsame, Text.sameName_refl] at hapart
    cases hapart
  · intro c hc op hop
    have hmem : (c, op) ∈ operationsNamed s op.name := mem_operationsNamed.2 ⟨hc, hop, rfl⟩
    exact ⟨hmem, readOverloads_schemaDocument_iff h (List.ne_nil_of_mem hmem)⟩
  · rw [schemaDocument, Record.get?_insert_self]
    exact readContainer_containerDocument h
  · intro name hname
    exact mem_names_schemaDocument h hname

end Metadata

namespace Library

open Metadata

/-! ## A library that counts -/

/-- Counting the authors. -/
def countAuthors : Operation :=
  { name := "Count", kind := .function, binding := .collection, handler := "count" }

/-- Counting the readers of a book. -/
def countReaders : Operation :=
  { name := "Count", kind := .action, binding := .entity, handler := "count" }

/-- The library with both operations. -/
def countingDraft : Draft :=
  { draft with operations := [("Authors", countAuthors), ("Books", countReaders)] }

/-- The schema of the counting library. -/
def countingSchema : Schema where
  nameSpace := "Library"
  entities := collections.map (·.entity)
  collections := [
    { authors with operations := [countAuthors] }, { books with operations := [countReaders] },
    shelves]

/-- A book, both operations under their one name, and the collections are told. -/
theorem counting_told :
    ∃ names : Record,
      (document countingSchema).record?.bind (·.get? "Library") = some (.object names) ∧
      (names.get? "Book").bind (readType "Library") = some {
        key := "Id"
        properties := [
          .field ⟨"Id", .int32, false⟩, .field ⟨"Title", .string, false⟩,
          .field ⟨"AuthorId", .int32, false⟩, .navigation "Author" "Author" .one] } ∧
      (names.get? "Count").bind (readOverloads "Library") = some [
        ⟨.function, "Author", .collection⟩, ⟨.action, "Book", .entity⟩] ∧
      (names.get? container).bind (readContainer "Library") = some [
        ⟨"Authors", "Author", [("Books", "Books"), ("Best", "Books")]⟩,
        ⟨"Books", "Book", [("Author", "Authors")]⟩,
        ⟨"Shelves", "Shelf", [("Books", "Books")]⟩] := by
  have hbuild : countingDraft.build = .ok countingSchema := rfl
  obtain ⟨names, hnames, htypes, -, hoperations, hsets, -⟩ := document_tells hbuild
  have hbook : books.entity ∈ countingSchema.entities := by decide
  have hbooks : { books with operations := [countReaders] } ∈ countingSchema.collections := by
    decide
  have hcount : countReaders.name ≠ container ∧
      ∀ e ∈ countingSchema.entities, e.name ≠ countReaders.name := by decide
  exact ⟨names, hnames, (htypes books.entity hbook).2 (by decide),
    (hoperations _ hbooks countReaders List.mem_cons_self).2.2 hcount, hsets⟩

end Library

namespace Harbour

open Metadata

/-! ## A harbour, where names of different sorts meet -/

/-- Shipping a container. -/
def ship : Operation := { name := "Ship", kind := .action, binding := .entity, handler := "ship" }

/-- Containers, which can be shipped. -/
def containers : Collection where
  name := "Containers"
  entity := { name := "Container", key := "Id", fields := [⟨"Id", .int32, false⟩] }
  operations := [ship]

/-- Ships. -/
def ships : Collection where
  name := "Ships"
  entity := { name := "Ship", key := "Id", fields := [⟨"Id", .int32, false⟩] }

/-- The declarations of the harbour. -/
def draft : Draft where
  nameSpace := "Harbour"
  entities := [containers, ships].map (·.entity.declaration)
  collections := [containers, ships].map fun c => (c.name, c.entity.name)
  operations := [("Containers", ship)]

/-- The schema of the harbour. -/
def schema : Schema where
  nameSpace := "Harbour"
  entities := [containers.entity, ships.entity]
  collections := [containers, ships]

/-- All of it is registered, and the document tells neither the entity type of containers nor that
they can be shipped. -/
theorem container_and_ship_lost :
    draft.build = .ok schema ∧
      containers.entity ∈ schema.entities ∧ containers ∈ schema.collections ∧
      ship ∈ containers.operations ∧
      ∃ names : Record,
        (document schema).record?.bind (·.get? schema.nameSpace) = some (.object names) ∧
        names.names = ["Container", "Ship"] ∧
        (names.get? containers.entity.name).bind (readType schema.nameSpace) = none ∧
        (names.get? ship.name).bind (readOverloads schema.nameSpace) = none := by
  exact ⟨rfl, by decide, by decide, by decide, schemaDocument schema, rfl, rfl, rfl, rfl⟩

end Harbour

end ODataEngine
