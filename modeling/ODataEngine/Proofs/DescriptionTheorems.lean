import ODataEngine.Metadata
import ODataEngine.Proofs.RecordTheorems
import ODataEngine.Proofs.SchemaTheorems

/-!
# Descriptions in the metadata document

What each description in the metadata document tells. The readers know the format and nothing of how
it is written: members of the format begin with a dollar sign, the others are named by the schema,
and a member is known by its kind. From the descriptions they read back

- `readType_entityDocument_iff`: an entity type with its key, its fields and its navigation
  properties, if those have different spellings;
- `readOverload_operationDocument`: an overload with its kind, bound type and binding;
- `readContainer_containerDocument`: every collection with its entity type and its bindings.
-/

namespace ODataEngine

namespace Metadata

/-! ## What can be told -/

/-- A property of an entity type. -/
inductive Property where
  | field (f : Field)
  | navigation (name target : String) (multiplicity : Multiplicity)
deriving DecidableEq

/-- An entity type: its key and its properties in order. -/
structure TypeView where
  key : String
  properties : List Property
deriving DecidableEq

/-- An overload of an operation. -/
structure OverloadView where
  kind : OperationKind
  boundType : String
  binding : Binding
deriving DecidableEq

/-- A collection: its entity type, and the collections that navigation properties lead to. -/
structure SetView where
  name : String
  entityType : String
  bindings : List (String × String)
deriving DecidableEq

/-- The document has to tell this of an entity type. -/
def typeView (e : EntityType) : TypeView where
  key := e.key
  properties := e.fields.map .field ++
    e.navigations.map fun n => .navigation n.name n.target n.multiplicity

/-- The document has to tell this of an operation on a collection. -/
def overloadView (p : Collection × Operation) : OverloadView where
  kind := p.2.kind
  boundType := p.1.entity.name
  binding := p.2.binding

/-- The document has to tell this of a collection. -/
def setView (c : Collection) : SetView where
  name := c.name
  entityType := c.entity.name
  bindings := c.entity.navigations.map fun n => (n.name, n.collection)

/-! ## Readers -/

/-- The text of a member. -/
def textAt? (r : Record) (name : String) : Option String := (r.get? name).bind Json.string?

/-- The member is true. -/
def isMarked (r : Record) (name : String) : Bool :=
  match r.get? name with
  | some (.bool b) => b
  | _ => false

/-- The name of the namespace that a member holds. -/
def typeAt? (nameSpace : String) (r : Record) : Option String := do
  let text ← textAt? r "$Type"
  let name ← Text.afterStart? (nameSpace.toList ++ ['.']) text.toList
  return String.ofList name

/-- The members with names of the schema. -/
def named (r : Record) : Record := r.filter fun m => m.1.toList.head? != some '$'

/-- The property that a member of an entity type describes. -/
def readProperty (nameSpace : String) (m : String × Json) : Option Property := do
  let r ← m.2.record?
  match textAt? r "$Kind" with
  | none =>
    let type ← (textAt? r "$Type").bind EdmType.ofName?
    return .field ⟨m.1, type, isMarked r "$Collection"⟩
  | some kind =>
    if kind = "NavigationProperty" then
      let target ← typeAt? nameSpace r
      return .navigation m.1 target (if isMarked r "$Collection" then .many else .one)
    else none

/-- The name of the key. -/
def keyAt? (r : Record) : Option String :=
  match r.get? "$Key" with
  | some (.array [.string key]) => some key
  | _ => none

/-- The entity type that a member of the namespace describes. -/
def readType (nameSpace : String) (json : Json) : Option TypeView := do
  let r ← json.record?
  if textAt? r "$Kind" = some "EntityType" then
    let key ← keyAt? r
    let properties ← (named r).mapM (readProperty nameSpace)
    return { key := key, properties := properties }
  else none

/-- The kind of operation of a name. -/
def kindOf? (name : String) : Option OperationKind :=
  if name = "Function" then some .function else if name = "Action" then some .action else none

/-- The first parameter of an operation. -/
def parameter? (r : Record) : Option Record :=
  match r.get? "$Parameter" with
  | some (.array (.object parameter :: _)) => some parameter
  | _ => none

/-- The overload that an item under the name of an operation describes. -/
def readOverload (nameSpace : String) (json : Json) : Option OverloadView := do
  let r ← json.record?
  if isMarked r "$IsBound" then
    let kind ← (textAt? r "$Kind").bind kindOf?
    let parameter ← parameter? r
    let boundType ← typeAt? nameSpace parameter
    let binding := if isMarked parameter "$Collection" then .collection else .entity
    return { kind := kind, boundType := boundType, binding := binding }
  else none

/-- The overloads that a member of the namespace describes. -/
def readOverloads (nameSpace : String) : Json → Option (List OverloadView)
  | .array overloads => overloads.mapM (readOverload nameSpace)
  | _ => none

/-- The collections that the navigation properties of a collection lead to. -/
def bindingsAt? (r : Record) : Option (List (String × String)) :=
  match r.get? "$NavigationPropertyBinding" with
  | none => some []
  | some (.object bindings) => bindings.mapM fun m => m.2.string?.map (m.1, ·)
  | some _ => none

/-- The collection that a member of the container describes. -/
def readSet (nameSpace : String) (m : String × Json) : Option SetView := do
  let r ← m.2.record?
  let entityType ← typeAt? nameSpace r
  let bindings ← bindingsAt? r
  return { name := m.1, entityType := entityType, bindings := bindings }

/-- The collections that the container describes. -/
def readContainer (nameSpace : String) (json : Json) : Option (List SetView) := do
  let r ← json.record?
  if textAt? r "$Kind" = some "EntityContainer" then (named r).mapM (readSet nameSpace) else none

/-! ## Reading what is written -/

/-- Where each item is read back, a list is. -/
theorem mapM_map_eq_some {α β γ : Type} {write : α → β} {read : β → Option γ} {view : α → γ}
    {items : List α} (h : ∀ a ∈ items, read (write a) = some (view a)) :
    (items.map write).mapM read = some (items.map view) := by
  rw [List.mapM_map]
  have hread : items.mapM (read ∘ write) = items.mapM fun a => pure (view a) := mapM_congr h
  rw [hread, List.mapM_pure]
  rfl

/-- What a list is read as was read from its items. -/
theorem exists_of_mapM_eq_some {α β : Type} {read : α → Option β} {items : List α} {views : List β}
    (h : items.mapM read = some views) : ∀ b ∈ views, ∃ a ∈ items, read a = some b := by
  induction items generalizing views with
  | nil =>
    cases h
    exact fun b hb => absurd hb List.not_mem_nil
  | cons a rest ih =>
    rw [List.mapM_cons] at h
    obtain ⟨first, hfirst, h⟩ := Option.bind_eq_some_iff.1 h
    obtain ⟨others, hothers, h⟩ := Option.bind_eq_some_iff.1 h
    cases h
    refine List.forall_mem_cons.2 ⟨⟨a, List.mem_cons_self, hfirst⟩, fun b hb => ?_⟩
    obtain ⟨a', ha', hread⟩ := ih hothers b hb
    exact ⟨a', List.mem_cons_of_mem a ha', hread⟩

theorem ofName?_qualifiedName (t : EdmType) : EdmType.ofName? t.qualifiedName = some t := by
  cases t <;> decide

/-- A qualified name is read back, whatever the namespace. -/
theorem typeAt?_eq_some {nameSpace name : String} {r : Record}
    (h : r.get? "$Type" = some (qualified nameSpace name)) : typeAt? nameSpace r = some name := by
  have htext : textAt? r "$Type" = some s!"{nameSpace}.{name}" := by
    rw [textAt?, h]
    rfl
  have hsplit : (s!"{nameSpace}.{name}").toList = nameSpace.toList ++ ['.'] ++ name.toList := by
    simp [toString]
  -- the namespace is known, so points in it or in the name do no harm
  have hstart := Text.afterStart?_eq_some_iff.2 hsplit
  simp only [typeAt?, htext, Option.bind_eq_bind, Option.bind_some, hstart]
  exact congrArg some String.ofList_toList

/-- Members of the format, and then members with names, are told apart. -/
theorem named_append {own members : Record} (hown : ∀ m ∈ own, m.1.toList.head? = some '$')
    (hmembers : ∀ m ∈ members, Draft.isName m.1 = true) : named (own ++ members) = members := by
  have hnone : own.filter (fun m => m.1.toList.head? != some '$') = [] := by
    rw [List.filter_eq_nil_iff]
    intro m hm
    rw [hown m hm]
    simp
  have hall : members.filter (fun m => m.1.toList.head? != some '$') = members := by
    rw [List.filter_eq_self]
    intro m hm
    exact bne_iff_ne.2 (Draft.head_of_isName (hmembers m hm))
  rw [named, List.filter_append, hnone, hall, List.nil_append]

/-- Members with names are set behind those of the format. -/
theorem insertAll_own {own members : Record} (hown : ∀ m ∈ own, m.1.toList.head? = some '$')
    (hmembers : ∀ m ∈ members, Draft.isName m.1 = true) (hnodup : members.names.Nodup) :
    own.insertAll members = own ++ members := by
  apply Record.insertAll_eq_append hnodup
  intro name hname hold
  obtain ⟨m, hm, rfl⟩ := List.mem_map.1 hname
  obtain ⟨m', hm', hsame⟩ := List.mem_map.1 hold
  apply Draft.head_of_isName (hmembers m hm)
  rw [← hsame]
  exact hown m' hm'

/-! ### Entity types -/

/-- A member without a kind is a field. -/
theorem readProperty_of_no_kind {nameSpace name : String} {r : Record} {type : EdmType}
    (hkind : textAt? r "$Kind" = none) (htype : textAt? r "$Type" = some type.qualifiedName) :
    readProperty nameSpace (name, .object r)
      = some (.field ⟨name, type, isMarked r "$Collection"⟩) := by
  simp [readProperty, Json.record?, hkind, htype, ofName?_qualifiedName]

theorem readProperty_of_kind {nameSpace name target : String} {r : Record}
    (hkind : textAt? r "$Kind" = some "NavigationProperty")
    (htype : typeAt? nameSpace r = some target) :
    readProperty nameSpace (name, .object r)
      = some (.navigation name target (if isMarked r "$Collection" then .many else .one)) := by
  simp [readProperty, Json.record?, hkind, htype]

theorem readProperty_field (nameSpace key : String) (f : Field) :
    readProperty nameSpace (f.name, fieldDocument key f) = some (.field f) := by
  obtain ⟨name, type, isList⟩ := f
  by_cases hkey : name = key
  · rw [fieldDocument, if_pos hkey]
    cases isList with
    | true => exact readProperty_of_no_kind rfl rfl
    | false => exact readProperty_of_no_kind rfl rfl
  · rw [fieldDocument, if_neg hkey]
    cases isList with
    | true => exact readProperty_of_no_kind rfl rfl
    | false => exact readProperty_of_no_kind rfl rfl

theorem readProperty_navigation (nameSpace : String) (n : Navigation) :
    readProperty nameSpace (n.name, navigationDocument nameSpace n)
      = some (.navigation n.name n.target n.multiplicity) := by
  obtain ⟨name, collection, target, multiplicity, link⟩ := n
  cases multiplicity with
  | one => exact readProperty_of_kind rfl (typeAt?_eq_some rfl)
  | many => exact readProperty_of_kind rfl (typeAt?_eq_some rfl)

theorem readType_of_parts {nameSpace key : String} {r : Record} {properties : List Property}
    (hkind : textAt? r "$Kind" = some "EntityType") (hkey : keyAt? r = some key)
    (hproperties : (named r).mapM (readProperty nameSpace) = some properties) :
    readType nameSpace (.object r) = some ⟨key, properties⟩ := by
  simp [readType, Json.record?, hkind, hkey, hproperties]

/-- A field is read from the member of its name. -/
theorem name_of_readProperty {nameSpace : String} {m : String × Json} {f : Field}
    (h : readProperty nameSpace m = some (.field f)) : f.name = m.1 := by
  unfold readProperty at h
  obtain ⟨r, -, h⟩ := Option.bind_eq_some_iff.1 h
  split at h
  · obtain ⟨type, -, h⟩ := Option.bind_eq_some_iff.1 h
    cases h
    rfl
  · split at h
    · obtain ⟨target, -, h⟩ := Option.bind_eq_some_iff.1 h
      cases h
    · cases h

/-- Each property of an entity type is read from a member. -/
theorem exists_of_readType {nameSpace : String} {r : Record} {view : TypeView}
    (h : readType nameSpace (.object r) = some view) {p : Property} (hp : p ∈ view.properties) :
    ∃ m ∈ r, readProperty nameSpace m = some p := by
  unfold readType at h
  obtain ⟨r', hr, h⟩ := Option.bind_eq_some_iff.1 h
  cases hr
  split at h
  · obtain ⟨key, -, h⟩ := Option.bind_eq_some_iff.1 h
    obtain ⟨properties, hproperties, h⟩ := Option.bind_eq_some_iff.1 h
    cases h
    obtain ⟨m, hm, hread⟩ := exists_of_mapM_eq_some hproperties p hp
    exact ⟨m, List.mem_of_mem_filter hm, hread⟩
  · cases h

/-- The members of an entity type for its fields and navigation properties. -/
def propertyMembers (nameSpace : String) (e : EntityType) : Record :=
  (e.fields.map fun f => (f.name, fieldDocument e.key f)) ++
    e.navigations.map fun n => (n.name, navigationDocument nameSpace n)

/-- No field is spelled like a navigation property. -/
def SpelledApart (e : EntityType) : Prop := ∀ f ∈ e.fields, ∀ n ∈ e.navigations, f.name ≠ n.name

/-- The properties are set in order, those with the spelling of earlier ones in their place. -/
theorem entityDocument_eq_insertAll (nameSpace : String) (e : EntityType) :
    entityDocument nameSpace e = .object
      (Record.insertAll [("$Kind", .string "EntityType"), ("$Key", .ofStrings [e.key])]
        (propertyMembers nameSpace e)) := by
  -- the fields are set first and the navigation properties behind them, in one run or in two
  rw [entityDocument, Record.foldl_insert Field.name (fieldDocument e.key),
    Record.foldl_insert Navigation.name (navigationDocument nameSpace), propertyMembers,
    Record.insertAll, Record.insertAll, Record.insertAll, List.foldl_append]

section

variable {e : EntityType} (h : e.Sound) (nameSpace : String)

include h

theorem isName_propertyMembers : ∀ m ∈ propertyMembers nameSpace e, Draft.isName m.1 = true := by
  intro m hm
  rcases List.mem_append.1 hm with hm | hm
  · obtain ⟨f, hf, rfl⟩ := List.mem_map.1 hm
    exact h.fieldNames f hf
  · obtain ⟨n, hn, rfl⟩ := List.mem_map.1 hm
    exact h.navigationNames n hn

theorem nodup_names_propertyMembers (hapart : SpelledApart e) :
    (propertyMembers nameSpace e).names.Nodup := by
  have hnames : (propertyMembers nameSpace e).names
      = e.fields.map (·.name) ++ e.navigations.map (·.name) := by
    rw [propertyMembers, Record.names, List.map_append, List.map_map, List.map_map]
    rfl
  rw [hnames, List.nodup_append]
  refine ⟨nodup_of_sameName h.fields, nodup_of_sameName h.navigations, ?_⟩
  intro name hfield name' hnavigation hsame
  obtain ⟨f, hf, rfl⟩ := List.mem_map.1 hfield
  obtain ⟨n, hn, rfl⟩ := List.mem_map.1 hnavigation
  exact hapart f hf n hn hsame

/-- Under the name of a navigation property stands the navigation property. -/
theorem get?_navigation {n : Navigation} (hn : n ∈ e.navigations) (own : Record) :
    (own.insertAll (propertyMembers nameSpace e)).get? n.name
      = some (navigationDocument nameSpace n) := by
  have hnodup : (Record.names
      (e.navigations.map fun n => (n.name, navigationDocument nameSpace n))).Nodup := by
    rw [Record.names, List.map_map]
    exact nodup_of_sameName h.navigations
  have hmem := List.mem_map_of_mem (f := fun n => (n.name, navigationDocument nameSpace n)) hn
  rw [propertyMembers, Record.insertAll, List.foldl_append]
  show (Record.insertAll _ _).get? n.name = _
  rw [Record.get?_insertAll_of_nodup _ hnodup, (Record.get?_eq_some_iff hnodup).2 hmem,
    Option.some_or]

/-- An entity type is read back from its description if all of its properties are there, which are
those of different spellings. -/
theorem readType_entityDocument_iff :
    readType nameSpace (entityDocument nameSpace e) = some (typeView e) ↔ SpelledApart e := by
  constructor
  · -- a field is not read from the description of a navigation property
    intro hread f hf n hn hsame
    rw [entityDocument_eq_insertAll] at hread
    have hfield : .field f ∈ (typeView e).properties :=
      List.mem_append_left _ (List.mem_map_of_mem hf)
    obtain ⟨⟨name, description⟩, hm, hproperty⟩ := exists_of_readType hread hfield
    obtain rfl : f.name = name := name_of_readProperty hproperty
    rw [← Record.get?_eq_some_iff (Record.nodup_names_insertAll (by simp [Record.names]) _), hsame,
      get?_navigation h nameSpace hn] at hm
    rw [← Option.some.inj hm, hsame, readProperty_navigation] at hproperty
    cases hproperty
  · intro hapart
    have hfields : (e.fields.map fun f => (f.name, fieldDocument e.key f)).mapM
        (readProperty nameSpace) = some (e.fields.map .field) :=
      mapM_map_eq_some fun f _ => readProperty_field nameSpace e.key f
    have hnavigations : (e.navigations.map fun n => (n.name, navigationDocument nameSpace n)).mapM
        (readProperty nameSpace)
          = some (e.navigations.map fun n => .navigation n.name n.target n.multiplicity) :=
      mapM_map_eq_some fun n _ => readProperty_navigation nameSpace n
    rw [entityDocument_eq_insertAll, insertAll_own (by simp) (isName_propertyMembers h nameSpace)
      (nodup_names_propertyMembers h nameSpace hapart)]
    apply readType_of_parts
    · rfl
    · rfl
    · rw [named_append (by simp) (isName_propertyMembers h nameSpace), propertyMembers,
        List.mapM_append, hfields, hnavigations]
      rfl

end

/-! ### Operations -/

theorem readOverload_of_parts {nameSpace boundType : String} {r parameter : Record}
    {kind : OperationKind} (hbound : isMarked r "$IsBound" = true)
    (hkind : (textAt? r "$Kind").bind kindOf? = some kind)
    (hparameter : parameter? r = some parameter)
    (htype : typeAt? nameSpace parameter = some boundType) :
    readOverload nameSpace (.object r) = some {
      kind := kind
      boundType := boundType
      binding := if isMarked parameter "$Collection" then .collection else .entity } := by
  simp [readOverload, Json.record?, hbound, hkind, hparameter, htype]

/-- An overload is read back from its description. -/
theorem readOverload_operationDocument (nameSpace : String) (p : Collection × Operation) :
    readOverload nameSpace (operationDocument nameSpace p.1.entity p.2)
      = some (overloadView p) := by
  obtain ⟨c, name, kind, binding, handler⟩ := p
  have htype (marks : Record) : typeAt? nameSpace ([("$Name", .string "bindingParameter"),
      ("$Type", qualified nameSpace c.entity.name)] ++ marks) = some c.entity.name :=
    typeAt?_eq_some rfl
  cases kind with
  | function =>
    cases binding with
    | collection => exact readOverload_of_parts rfl rfl rfl (htype listMark)
    | entity => exact readOverload_of_parts rfl rfl rfl (htype [])
  | action =>
    cases binding with
    | collection => exact readOverload_of_parts rfl rfl rfl (htype listMark)
    | entity => exact readOverload_of_parts rfl rfl rfl (htype [])

/-- The overloads of a name are read back, one for each operation, in order. -/
theorem readOverloads_map (nameSpace : String) (operations : List (Collection × Operation)) :
    readOverloads nameSpace
        (.array (operations.map fun p => operationDocument nameSpace p.1.entity p.2))
      = some (operations.map overloadView) :=
  mapM_map_eq_some fun p _ => readOverload_operationDocument nameSpace p

/-! ### Collections -/

theorem readSet_of_parts {nameSpace name entityType : String} {r : Record}
    {bindings : List (String × String)} (htype : typeAt? nameSpace r = some entityType)
    (hbindings : bindingsAt? r = some bindings) :
    readSet nameSpace (name, .object r) = some ⟨name, entityType, bindings⟩ := by
  simp [readSet, Json.record?, htype, hbindings]

theorem readContainer_of_parts {nameSpace : String} {r : Record} {sets : List SetView}
    (hkind : textAt? r "$Kind" = some "EntityContainer")
    (hsets : (named r).mapM (readSet nameSpace) = some sets) :
    readContainer nameSpace (.object r) = some sets := by
  simp [readContainer, Json.record?, hkind, hsets]

/-- A collection is read back from its description. -/
theorem readSet_collectionDocument {c : Collection} (h : c.entity.Sound) (nameSpace : String) :
    readSet nameSpace (c.name, collectionDocument nameSpace c) = some (setView c) := by
  have hwritten : c.entity.navigations.foldl
      (fun (r : Record) n => r.insert n.name (.string n.collection)) []
        = c.entity.navigations.map fun n => (n.name, .string n.collection) := by
    rw [Record.foldl_insert Navigation.name fun n => .string n.collection, Record.insertAll_nil]
    rw [Record.names, List.map_map]
    exact nodup_of_sameName h.navigations
  rw [collectionDocument, hwritten]
  apply readSet_of_parts
  · exact typeAt?_eq_some rfl
  · by_cases hnone : c.entity.navigations.isEmpty = true
    · rw [if_pos hnone, List.isEmpty_iff.1 hnone]
      rfl
    · rw [if_neg hnone]
      exact mapM_map_eq_some fun n _ => rfl

/-- The members of the container for the collections. -/
def setMembers (s : Schema) : Record :=
  s.collections.map fun c => (c.name, collectionDocument s.nameSpace c)

section

variable {s : Schema} (h : s.Sound)

include h

theorem isName_setMembers : ∀ m ∈ setMembers s, Draft.isName m.1 = true := by
  intro m hm
  obtain ⟨c, hc, rfl⟩ := List.mem_map.1 hm
  exact (h.collections c hc).1

/-- No collection takes the place of another. -/
theorem containerDocument_eq :
    containerDocument s = .object ([("$Kind", .string "EntityContainer")] ++ setMembers s) := by
  have hnodup : (setMembers s).names.Nodup := by
    rw [setMembers, Record.names, List.map_map]
    exact h.collectionNames
  rw [← insertAll_own (by simp) (isName_setMembers h) hnodup, containerDocument,
    Record.foldl_insert Collection.name (collectionDocument s.nameSpace), setMembers]

/-- The collections are read back from the container. -/
theorem readContainer_containerDocument :
    readContainer s.nameSpace (containerDocument s) = some (s.collections.map setView) := by
  have hsets : (setMembers s).mapM (readSet s.nameSpace) = some (s.collections.map setView) :=
    mapM_map_eq_some fun c hc =>
      readSet_collectionDocument (h.entities c.entity (h.collections c hc).2) s.nameSpace
  rw [containerDocument_eq h]
  apply readContainer_of_parts
  · rfl
  · rw [named_append (by simp) (isName_setMembers h), hsets]

end

end Metadata

end ODataEngine
