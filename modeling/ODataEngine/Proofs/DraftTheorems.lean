import Mathlib.Data.List.Nodup
import ODataEngine.Proofs.ResultTheorems
import ODataEngine.Schema.Draft

/-!
# Which drafts are schemas

`Draft.build` goes through the declarations in stages and stops at the first fault.
`Draft.IsConsistent` says the same of a draft as a whole, and `Draft.linked` is the schema it makes.

- Every stage is characterised: `checkFields_eq_ok_iff`, `checkEntities_eq_ok_iff`,
  `checkCollections_eq_ok_iff`, `addNavigations_eq_ok_iff` and `addOperations_eq_ok_iff`. A stage
  that goes on from earlier items is described together with these.
- `Draft.build_eq_ok_iff` puts the stages together.
-/

namespace ODataEngine

/-! ## Unique names -/

/-- A list of pairwise unlike items stays one when an item unlike all of them is put at its end. -/
theorem pairwise_snoc {α : Type} {r : α → α → Prop} {items : List α} {a : α}
    (h : items.Pairwise r) (ha : ∀ b ∈ items, r b a) : (items ++ [a]).Pairwise r :=
  List.pairwise_append.2 ⟨h, List.pairwise_singleton r a, by simpa using ha⟩

/-- No item is like a later one. -/
theorem not_of_pairwise_append {α : Type} {r : α → α → Prop} {earlier rest : List α} {a b : α}
    (hb : b ∈ earlier) (hr : ¬ r b a) : ¬ (earlier ++ a :: rest).Pairwise r := fun h =>
  hr ((List.pairwise_append.1 h).2.2 b hb a List.mem_cons_self)

/-- What is looked up is found where nothing else is like it. -/
theorem find?_eq_some_of_unique {α : Type} {p : α → Bool} {items : List α} {a : α}
    (ha : a ∈ items) (hp : p a = true) (hunique : ∀ b ∈ items, p b = true → b = a) :
    items.find? p = some a := by
  cases hfind : items.find? p with
  | none => exact absurd hp (List.find?_eq_none.1 hfind a ha)
  | some b => rw [hunique b (List.mem_of_find?_eq_some hfind) (List.find?_some hfind)]

/-- Where names are unique, looking up the name of an item finds it. -/
theorem find?_name_eq_some {α : Type} {name : α → String} {items : List α}
    (h : (items.map name).Nodup) {a : α} (ha : a ∈ items) :
    items.find? (fun b => name b == name a) = some a :=
  find?_eq_some_of_unique ha (beq_self_eq_true (name a)) fun _ hb hname =>
    List.inj_on_of_nodup_map h hb ha (eq_of_beq hname)

section

variable {α β : Type} {name : α → String} {items : List α} {wanted : String} {p : α → Prop}

/-- Looking up the name of some item finds an item of that name. -/
theorem exists_find?_name (h : ∃ a ∈ items, name a = wanted) :
    ∃ a ∈ items, name a = wanted ∧ items.find? (fun b => name b == wanted) = some a := by
  obtain ⟨a, ha, hname⟩ := h
  obtain ⟨found, hfound⟩ : ∃ found, items.find? (fun b => name b == wanted) = some found :=
    Option.isSome_iff_exists.1 (List.find?_isSome.2 ⟨a, ha, by simpa using hname⟩)
  exact ⟨found, List.mem_of_find?_eq_some hfound, by simpa using List.find?_some hfound, hfound⟩

/-- Where names are unique, the item of a name is the one that is looked up. -/
theorem exists_name_iff (h : items.Pairwise fun a b => name a ≠ name b) {a : α}
    (hfound : items.find? (fun b => name b == wanted) = some a) :
    (∃ b ∈ items, name b = wanted ∧ p b) ↔ p a := by
  have hname : name a = wanted := by simpa using List.find?_some hfound
  refine ⟨?_, fun ha => ⟨a, List.mem_of_find?_eq_some hfound, hname, ha⟩⟩
  rintro ⟨b, hb, rfl, hp⟩
  rw [find?_name_eq_some (List.pairwise_map.2 h) hb] at hfound
  exact Option.some.inj hfound ▸ hp

/-- What is asked of the items of one name is asked of what has that name. -/
theorem exists_name_and_iff {given : String} {q : Prop} :
    (∃ b ∈ items, name b = wanted ∧ p b ∧ (given = name b → q)) ↔
      (∃ b ∈ items, name b = wanted ∧ p b) ∧ (given = wanted → q) := by
  constructor
  · rintro ⟨b, hb, rfl, hp, hq⟩
    exact ⟨⟨b, hb, rfl, hp⟩, hq⟩
  · rintro ⟨⟨b, hb, rfl, hp⟩, hq⟩
    exact ⟨b, hb, rfl, hp, hq⟩

theorem forall_mem_given {c : Prop} [Decidable c] {a : α} :
    (∀ b ∈ (if c then [a] else []), p b) ↔ (c → p a) := by
  by_cases hc : c <;> simp [hc]

/-- What is given to the items of one name leaves those of other names as they are. -/
theorem map_given_eq_self {change : α → List β → α} (hnone : ∀ a, change a [] = a) {b : β}
    (h : ∀ a ∈ items, wanted ≠ name a) :
    items.map (fun a => change a (if wanted = name a then [b] else [])) = items := by
  conv_rhs => rw [← List.map_id items]
  refine List.map_congr_left fun a ha => ?_
  rw [if_neg (h a ha), hnone, id]

end

namespace Draft

/-! ## Names -/

theorem checkName_eq_ok_iff {name : String} : checkName name = .ok () ↔ isName name = true := by
  unfold checkName
  split
  · next h => simp [h]
  · next h => simp [h]

/-! ## Entity types -/

/-- Fields are accepted if their names are names and differ in more than case, also from those of
the earlier ones. -/
theorem checkFields_eq_ok_iff {entity : String} {earlier fields : List Field}
    (hearlier : earlier.Pairwise fun f g => Text.sameName f.name g.name = false) :
    checkFields entity earlier fields = .ok () ↔
      (∀ f ∈ fields, isName f.name = true) ∧
      (earlier ++ fields).Pairwise fun f g => Text.sameName f.name g.name = false := by
  induction fields generalizing earlier with
  | nil => simpa [checkFields] using hearlier
  | cons f rest ih =>
    rw [checkFields, check_bind_eq_ok_iff, checkName_eq_ok_iff, List.forall_mem_cons, and_assoc,
      and_congr_right_iff]
    intro _
    split
    · next hold =>
      obtain ⟨g, hg, hsame⟩ := List.any_eq_true.1 hold
      refine iff_of_false nofun fun h => ?_
      exact not_of_pairwise_append hg (by simp [hsame]) h.2
    · next hnew =>
      have hnew : ∀ g ∈ earlier, Text.sameName g.name f.name = false := by simpa using hnew
      rw [ih (pairwise_snoc hearlier hnew), List.append_assoc, List.singleton_append]

/-- The fields have names that can be told apart, and the key is one of them. -/
def HasFields (e : EntityType) : Prop :=
  (∀ f ∈ e.fields, isName f.name = true) ∧
    e.fields.Pairwise (fun f g => Text.sameName f.name g.name = false) ∧
    ∃ f ∈ e.fields, Text.sameName f.name e.key = true

/-- Entity types are accepted if their names are names and differ, also from those of the earlier
ones, and each has its fields. -/
theorem checkEntities_eq_ok_iff {earlier entities : List EntityType}
    (hearlier : earlier.Pairwise fun e e' => e.name ≠ e'.name) :
    checkEntities earlier entities = .ok () ↔
      (∀ e ∈ entities, isName e.name = true ∧ HasFields e) ∧
      (earlier ++ entities).Pairwise fun e e' => e.name ≠ e'.name := by
  induction entities generalizing earlier with
  | nil => simpa [checkEntities] using hearlier
  | cons e rest ih =>
    have hkey : (∃ f ∈ e.fields, Text.sameName f.name e.key = true) ↔
        (e.field? e.key).isNone = false := by
      rw [Option.isNone_eq_false_iff, EntityType.field?, List.find?_isSome]
    rw [checkEntities, check_bind_eq_ok_iff, checkName_eq_ok_iff, List.forall_mem_cons]
    split
    · next hold =>
      obtain ⟨e', he', hsame⟩ := List.any_eq_true.1 hold
      refine iff_of_false (fun h => nomatch h.2) fun h => ?_
      exact not_of_pairwise_append he' (by simpa using hsame) h.2
    · next hnew =>
      have hnew : ∀ e' ∈ earlier, e'.name ≠ e.name := by simpa using hnew
      rw [check_bind_eq_ok_iff, checkFields_eq_ok_iff .nil, List.nil_append, HasFields, hkey]
      split
      · next hnone => simp [hnone]
      · next hsome =>
        rw [ih (pairwise_snoc hearlier hnew), List.append_assoc, List.singleton_append]
        simp only [hsome, and_true, and_assoc]

/-! ## Collections -/

/-- Collections are accepted if their names are names and differ, also from those of the earlier
ones, and each is one of a known entity type. -/
theorem checkCollections_eq_ok_iff {entities : List EntityType}
    {earlier collections : List (String × String)}
    (hearlier : earlier.Pairwise fun c c' => c.1 ≠ c'.1) :
    checkCollections entities earlier collections = .ok () ↔
      (∀ c ∈ collections, isName c.1 = true ∧ ∃ e ∈ entities, e.name = c.2) ∧
      (earlier ++ collections).Pairwise fun c c' => c.1 ≠ c'.1 := by
  induction collections generalizing earlier with
  | nil => simpa [checkCollections] using hearlier
  | cons c rest ih =>
    obtain ⟨name, entity⟩ := c
    have hknown : (∃ e ∈ entities, e.name = entity) ↔
        entities.any (·.name == entity) = true := by simp
    rw [checkCollections, check_bind_eq_ok_iff, checkName_eq_ok_iff, List.forall_mem_cons]
    split
    · next hold =>
      obtain ⟨c', hc', hsame⟩ := List.any_eq_true.1 hold
      refine iff_of_false (fun h => nomatch h.2) fun h => ?_
      exact not_of_pairwise_append hc' (by simpa using hsame) h.2
    · next hnew =>
      have hnew : ∀ c' ∈ earlier, c'.1 ≠ name := fun c' hc' he =>
        hnew (List.any_eq_true.2 ⟨c', hc', by simpa using he⟩)
      rw [hknown]
      split
      · next hnone => simp_all
      · next hsome =>
        rw [ih (pairwise_snoc hearlier hnew), List.append_assoc, List.singleton_append]
        simp_all [and_assoc]

/-- Every collection of a known entity type is resolved to one of the name it was declared with. -/
theorem resolveCollections_spec {entities : List EntityType} {collections : List (String × String)}
    (h : ∀ c ∈ collections, ∃ e ∈ entities, e.name = c.2) :
    (resolveCollections entities collections).map (fun c => (c.name, c.entity.name)) = collections ∧
      ∀ c ∈ resolveCollections entities collections, c.entity ∈ entities ∧ c.operations = [] := by
  induction collections with
  | nil => simp [resolveCollections]
  | cons c rest ih =>
    obtain ⟨name, entity⟩ := c
    obtain ⟨hentity, hrest⟩ := List.forall_mem_cons.1 h
    obtain ⟨found, hmem, hname, hfound⟩ := exists_find?_name hentity
    have hcons : resolveCollections entities ((name, entity) :: rest)
        = { name := name, entity := found } :: resolveCollections entities rest := by
      simp only [resolveCollections, List.filterMap_cons, hfound, Option.map_some]
    rw [hcons, List.map_cons, (ih hrest).1, hname]
    exact ⟨rfl, List.forall_mem_cons.2 ⟨⟨hmem, rfl⟩, (ih hrest).2⟩⟩

/-! ## Navigation properties -/

/-- The navigation properties declared for an entity type, in order and with their target types. -/
def navigationsOf (collections : List (String × String)) (owner : String)
    (declared : List (String × Navigation)) : List Navigation :=
  declared.filterMap fun (name, n) =>
    if name = owner then
      (collections.find? (·.1 == n.collection)).map fun c => { n with target := c.2 }
    else none

theorem navigationsOf_cons {collections : List (String × String)} {owner name : String}
    {n : Navigation} {rest : List (String × Navigation)} {c : String × String}
    (h : collections.find? (·.1 == n.collection) = some c) :
    navigationsOf collections name ((owner, n) :: rest)
      = (if owner = name then [{ n with target := c.2 }] else [])
        ++ navigationsOf collections name rest := by
  rw [navigationsOf, List.filterMap_cons]
  by_cases howner : owner = name
  · simp [howner, h, navigationsOf]
  · simp [howner, navigationsOf]

/-- The entity type with more navigation properties. -/
def addedTo (e : EntityType) (more : List Navigation) : EntityType :=
  { e with navigations := e.navigations ++ more }

@[simp] theorem addedTo_nil (e : EntityType) : addedTo e [] = e := by
  rw [addedTo, List.append_nil]

@[simp] theorem addedTo_addedTo (e : EntityType) (more more' : List Navigation) :
    addedTo (addedTo e more) more' = addedTo e (more ++ more') := by
  rw [addedTo, addedTo, addedTo, List.append_assoc]

@[simp] theorem name_addedTo (e : EntityType) (more : List Navigation) :
    (addedTo e more).name = e.name := rfl

/-- Where names are unique, the first entity type of a name is every one of that name. -/
theorem addNavigation_eq_map {owner : String} {n : Navigation} {entities : List EntityType}
    (h : entities.Pairwise fun e e' => e.name ≠ e'.name) :
    addNavigation owner n entities
      = entities.map fun e => addedTo e (if owner = e.name then [n] else []) := by
  induction entities with
  | nil => rfl
  | cons e rest ih =>
    rw [List.pairwise_cons] at h
    rw [addNavigation, List.map_cons]
    split
    · next howner =>
      obtain rfl : e.name = owner := by simpa using howner
      rw [map_given_eq_self addedTo_nil h.1, if_pos rfl, addedTo]
    · next howner =>
      have hne : owner ≠ e.name := fun he => howner (by simp [he])
      rw [ih h.2, if_neg hne, addedTo_nil]

theorem declares_eq_false_iff {e : EntityType} {name : String} :
    e.declares name = false ↔ (∀ f ∈ e.fields, Text.sameName f.name name = false) ∧
      ∀ n ∈ e.navigations, Text.sameName n.name name = false := by
  rw [EntityType.declares, Bool.or_eq_false_iff, Option.isSome_eq_false_iff,
    Option.isSome_eq_false_iff, Option.isNone_iff_eq_none, Option.isNone_iff_eq_none,
    EntityType.field?, EntityType.navigation?, List.find?_eq_none, List.find?_eq_none]
  simp

theorem declares_addedTo_eq_false_iff {e : EntityType} {more : List Navigation} {name : String} :
    (addedTo e more).declares name = false ↔
      e.declares name = false ∧ ∀ n ∈ more, Text.sameName n.name name = false := by
  rw [declares_eq_false_iff, declares_eq_false_iff, addedTo, List.forall_mem_append, and_assoc]

/-- The navigation property is named, leads to a declared collection, and its name is new to the
entity type it is declared for. -/
def IsKnown (collections : List (String × String)) (entities : List EntityType)
    (p : String × Navigation) : Prop :=
  isName p.2.name = true ∧ (∃ c ∈ collections, c.1 = p.2.collection) ∧
    ∃ e ∈ entities, e.name = p.1 ∧ e.declares p.2.name = false

/-- After a navigation property has been added, a later one is known if it was before and is not
like the one added. -/
theorem isKnown_added_iff {collections : List (String × String)} {entities : List EntityType}
    {owner : String} {n : Navigation} {p : String × Navigation} :
    IsKnown collections
        (entities.map fun e => addedTo e (if owner = e.name then [n] else [])) p ↔
      IsKnown collections entities p ∧
        (owner = p.1 → Text.sameName n.name p.2.name = false) := by
  rw [IsKnown, IsKnown, and_assoc, and_assoc, and_congr_right_iff]
  intro _
  rw [and_congr_right_iff]
  intro _
  simp only [List.mem_map, exists_exists_and_eq_and, name_addedTo, declares_addedTo_eq_false_iff,
    forall_mem_given]
  exact exists_name_and_iff

/-- Navigation properties are accepted if each is known and no two of one owner are named alike;
then every entity type has gained its own. -/
theorem addNavigations_eq_ok_iff {collections : List (String × String)}
    {entities result : List EntityType} {declared : List (String × Navigation)}
    (h : entities.Pairwise fun e e' => e.name ≠ e'.name) :
    addNavigations collections entities declared = .ok result ↔
      (∀ p ∈ declared, IsKnown collections entities p) ∧
      declared.Pairwise (fun p q => p.1 = q.1 → Text.sameName p.2.name q.2.name = false) ∧
      result = entities.map fun e => addedTo e (navigationsOf collections e.name declared) := by
  induction declared generalizing entities with
  | nil =>
    have hkept : entities.map (fun e => addedTo e (navigationsOf collections e.name []))
        = entities := by simp [navigationsOf]
    rw [hkept, addNavigations, Except.ok.injEq]
    refine ⟨fun h => ⟨by simp, .nil, h.symm⟩, fun h => h.2.2.symm⟩
  | cons p rest ih =>
    obtain ⟨owner, n⟩ := p
    rw [addNavigations, check_bind_eq_ok_iff, checkName_eq_ok_iff, List.forall_mem_cons, IsKnown]
    split
    · next hnone =>
      refine iff_of_false (fun h => nomatch h.2) ?_
      rintro ⟨⟨⟨-, ⟨c, hc, hname⟩, -⟩, -⟩, -⟩
      exact List.find?_eq_none.1 hnone c hc (by simpa using hname)
    · next name target hcollection =>
      have htarget : ∃ c ∈ collections, c.1 = n.collection :=
        ⟨_, List.mem_of_find?_eq_some hcollection, by simpa using List.find?_some hcollection⟩
      split
      · next hnone =>
        refine iff_of_false (fun h => nomatch h.2) ?_
        rintro ⟨⟨⟨-, -, e, he, hname, -⟩, -⟩, -⟩
        exact List.find?_eq_none.1 hnone e he (by simpa using hname)
      · next e howner =>
        rw [exists_name_iff h howner]
        split
        · next hold => simp [hold]
        · next hnew =>
          have hadded := @addNavigation_eq_map owner { n with target := target } _ h
          have hapart : (entities.map fun e =>
              addedTo e (if owner = e.name then [{ n with target := target }] else [])).Pairwise
                fun e e' => e.name ≠ e'.name := List.pairwise_map.2 h
          simp only [hadded, ih hapart, isKnown_added_iff, forall_and, List.pairwise_cons,
            navigationsOf_cons hcollection, List.map_map, Function.comp_def, addedTo_addedTo,
            name_addedTo]
          simp only [htarget, hnew, and_true, and_assoc]

/-! ## Operations -/

/-- The operations declared for a collection, in order. -/
def operationsOf (collection : String) (declared : List (String × Operation)) : List Operation :=
  declared.filterMap fun (name, op) => if name = collection then some op else none

/-- The collection with more operations. -/
def operated (c : Collection) (more : List Operation) : Collection :=
  { c with operations := c.operations ++ more }

@[simp] theorem operated_nil (c : Collection) : operated c [] = c := by
  rw [operated, List.append_nil]

@[simp] theorem operated_operated (c : Collection) (more more' : List Operation) :
    operated (operated c more) more' = operated c (more ++ more') := by
  rw [operated, operated, operated, List.append_assoc]

@[simp] theorem name_operated (c : Collection) (more : List Operation) :
    (operated c more).name = c.name := rfl

theorem operationsOf_cons (name collection : String) (op : Operation)
    (rest : List (String × Operation)) :
    operationsOf collection ((name, op) :: rest)
      = (if name = collection then [op] else []) ++ operationsOf collection rest := by
  rw [operationsOf, List.filterMap_cons]
  by_cases hname : name = collection
  · simp [hname, operationsOf]
  · simp [hname, operationsOf]

/-- Where names are unique, the first collection of a name is every one of that name. -/
theorem addOperation_eq_map {name : String} {op : Operation} {collections : List Collection}
    (h : collections.Pairwise fun c c' => c.name ≠ c'.name) :
    addOperation name op collections
      = collections.map fun c => operated c (if name = c.name then [op] else []) := by
  induction collections with
  | nil => rfl
  | cons c rest ih =>
    rw [List.pairwise_cons] at h
    rw [addOperation, List.map_cons]
    split
    · next hname =>
      obtain rfl : c.name = name := by simpa using hname
      rw [map_given_eq_self operated_nil h.1, if_pos rfl, operated]
    · next hname =>
      have hne : name ≠ c.name := fun he => hname (by simp [he])
      rw [ih h.2, if_neg hne, operated_nil]

/-- The operation is the one found by the other's name and binding. -/
def SameOperation (op op' : Operation) : Prop := op.name = op'.name ∧ op.binding = op'.binding

/-- The operation is named, and its name and binding are new to the collection it is declared
for. -/
def IsNew (collections : List Collection) (p : String × Operation) : Prop :=
  isName p.2.name = true ∧
    ∃ c ∈ collections, c.name = p.1 ∧ ∀ op ∈ c.operations, ¬ SameOperation op p.2

theorem operation?_isSome_eq_false_iff {c : Collection} {op : Operation} :
    (c.operation? op.name op.binding).isSome = false ↔
      ∀ op' ∈ c.operations, ¬ SameOperation op' op := by
  rw [Option.isSome_eq_false_iff, Option.isNone_iff_eq_none, Collection.operation?,
    List.find?_eq_none]
  simp [SameOperation, and_comm]

theorem isNew_operated_iff {collections : List Collection} {name : String} {op : Operation}
    {p : String × Operation} :
    IsNew (collections.map fun c => operated c (if name = c.name then [op] else [])) p ↔
      IsNew collections p ∧ (name = p.1 → ¬ SameOperation op p.2) := by
  rw [IsNew, IsNew, and_assoc, and_congr_right_iff]
  intro _
  simp only [List.mem_map, exists_exists_and_eq_and, operated, List.forall_mem_append,
    forall_mem_given]
  exact exists_name_and_iff

/-- Operations are accepted if each is new to a collection and no two of one collection are the
same; then every collection has gained its own. -/
theorem addOperations_eq_ok_iff {collections result : List Collection}
    {declared : List (String × Operation)}
    (h : collections.Pairwise fun c c' => c.name ≠ c'.name) :
    addOperations collections declared = .ok result ↔
      (∀ p ∈ declared, IsNew collections p) ∧
      declared.Pairwise (fun p q => p.1 = q.1 → ¬ SameOperation p.2 q.2) ∧
      result = collections.map fun c => operated c (operationsOf c.name declared) := by
  induction declared generalizing collections with
  | nil =>
    have hkept : collections.map (fun c => operated c (operationsOf c.name [])) = collections := by
      simp [operationsOf]
    rw [hkept, addOperations, Except.ok.injEq]
    exact ⟨fun h => ⟨by simp, .nil, h.symm⟩, fun h => h.2.2.symm⟩
  | cons p rest ih =>
    obtain ⟨name, op⟩ := p
    rw [addOperations, check_bind_eq_ok_iff, checkName_eq_ok_iff, List.forall_mem_cons, IsNew]
    split
    · next hnone =>
      refine iff_of_false (fun h => nomatch h.2) ?_
      rintro ⟨⟨⟨-, c, hc, hname, -⟩, -⟩, -⟩
      exact List.find?_eq_none.1 hnone c hc (by simpa using hname)
    · next c hfound =>
      rw [exists_name_iff h hfound, ← operation?_isSome_eq_false_iff]
      split
      · next hold => simp [hold]
      · next hnew =>
        have hapart : (collections.map fun c =>
            operated c (if name = c.name then [op] else [])).Pairwise
              fun c c' => c.name ≠ c'.name := List.pairwise_map.2 h
        simp only [addOperation_eq_map h, ih hapart, isNew_operated_iff, forall_and,
          List.pairwise_cons, operationsOf_cons, List.map_map, Function.comp_def,
          operated_operated, name_operated]
        simp only [hnew, and_true, and_assoc]

/-! ## The schema -/

/-- The declarations have names, no two of one scope have the same, and every name that is referred
to is declared. Inherited navigation properties take names from the declared ones and are asked
nothing themselves. -/
structure IsConsistent (d : Draft) : Prop where
  entityNames : ∀ e ∈ d.entities, isName e.name = true
  fieldNames : ∀ e ∈ d.entities, ∀ f ∈ e.fields, isName f.name = true
  collectionNames : ∀ c ∈ d.collections, isName c.1 = true
  navigationNames : ∀ p ∈ d.navigations, isName p.2.name = true
  operationNames : ∀ p ∈ d.operations, isName p.2.name = true
  entities : d.entities.Pairwise fun e e' => e.name ≠ e'.name
  fields : ∀ e ∈ d.entities, e.fields.Pairwise fun f g => Text.sameName f.name g.name = false
  keys : ∀ e ∈ d.entities, ∃ f ∈ e.fields, Text.sameName f.name e.key = true
  collections : d.collections.Pairwise fun c c' => c.1 ≠ c'.1
  types : ∀ c ∈ d.collections, ∃ e ∈ d.entities, e.name = c.2
  targets : ∀ p ∈ d.navigations, ∃ c ∈ d.collections, c.1 = p.2.collection
  owners : ∀ p ∈ d.navigations, ∃ e ∈ d.entities, e.name = p.1 ∧
    (∀ f ∈ e.fields, Text.sameName f.name p.2.name = false) ∧
    ∀ n ∈ e.inherited, Text.sameName n.name p.2.name = false
  navigations : d.navigations.Pairwise fun p q =>
    p.1 = q.1 → Text.sameName p.2.name q.2.name = false
  operated : ∀ p ∈ d.operations, ∃ c ∈ d.collections, c.1 = p.1
  operations : d.operations.Pairwise fun p q => p.1 = q.1 → ¬ SameOperation p.2 q.2

/-- The entity types with the navigation properties declared for them. -/
def linkedEntities (d : Draft) : List EntityType :=
  d.entities.map fun e => addedTo e.bare (navigationsOf d.collections e.name d.navigations)

/-- The schema of the declarations. -/
def linked (d : Draft) : Schema where
  nameSpace := d.nameSpace
  entities := d.linkedEntities
  collections := (resolveCollections d.linkedEntities d.collections).map fun c =>
    operated c (operationsOf c.name d.operations)

/-- A declared entity type has its fields and the navigation properties that it has inherited. -/
theorem isKnown_declared_iff {d : Draft} {p : String × Navigation} :
    IsKnown d.collections (d.entities.map (·.bare)) p ↔
      isName p.2.name = true ∧ (∃ c ∈ d.collections, c.1 = p.2.collection) ∧
        ∃ e ∈ d.entities, e.name = p.1 ∧ (∀ f ∈ e.fields, Text.sameName f.name p.2.name = false) ∧
          ∀ n ∈ e.inherited, Text.sameName n.name p.2.name = false := by
  simp only [IsKnown, List.mem_map, exists_exists_and_eq_and, declares_eq_false_iff,
    EntityDeclaration.bare]

/-- The entity types of the collections have not lost their names. -/
theorem types_linkedEntities {d : Draft} (h : ∀ c ∈ d.collections, ∃ e ∈ d.entities, e.name = c.2) :
    ∀ c ∈ d.collections, ∃ e ∈ d.linkedEntities, e.name = c.2 := by
  intro c hc
  obtain ⟨e, he, hname⟩ := h c hc
  exact ⟨_, List.mem_map_of_mem he, hname⟩

/-- A resolved collection has no operations yet. -/
theorem isNew_resolved_iff {d : Draft} (h : ∀ c ∈ d.collections, ∃ e ∈ d.entities, e.name = c.2)
    {p : String × Operation} :
    IsNew (resolveCollections d.linkedEntities d.collections) p ↔
      isName p.2.name = true ∧ ∃ c ∈ d.collections, c.1 = p.1 := by
  obtain ⟨hviews, hmembers⟩ := resolveCollections_spec (types_linkedEntities h)
  rw [IsNew, and_congr_right_iff]
  intro _
  constructor
  · rintro ⟨c, hc, hname, -⟩
    refine ⟨(c.name, c.entity.name), ?_, hname⟩
    rw [← hviews]
    exact List.mem_map_of_mem (f := fun c => (c.name, c.entity.name)) hc
  · rintro ⟨c, hc, hname⟩
    rw [← hviews] at hc
    obtain ⟨c', hc', rfl⟩ := List.mem_map.1 hc
    exact ⟨c', hc', hname, by simp [(hmembers c' hc').2]⟩

theorem pairwise_resolved {d : Draft} (h : ∀ c ∈ d.collections, ∃ e ∈ d.entities, e.name = c.2)
    (hnames : d.collections.Pairwise fun c c' => c.1 ≠ c'.1) :
    (resolveCollections d.linkedEntities d.collections).Pairwise fun c c' => c.name ≠ c'.name := by
  rw [← (resolveCollections_spec (types_linkedEntities h)).1, List.pairwise_map] at hnames
  exact hnames

/-- A draft is built if it is consistent, and then to the schema of its declarations. -/
theorem build_eq_ok_iff {d : Draft} {s : Schema} :
    d.build = .ok s ↔ d.IsConsistent ∧ s = d.linked := by
  rw [build, check_bind_eq_ok_iff, checkEntities_eq_ok_iff .nil, check_bind_eq_ok_iff,
    checkCollections_eq_ok_iff .nil, List.nil_append, List.nil_append, List.forall_mem_map,
    List.pairwise_map]
  have hlinked : d.linkedEntities = (d.entities.map (·.bare)).map fun e =>
      addedTo e (navigationsOf d.collections e.name d.navigations) := by
    rw [linkedEntities, List.map_map]
    rfl
  constructor
  · rintro ⟨⟨hdeclares, hentities⟩, ⟨hdeclared, hcollections⟩, h⟩
    have htypes : ∀ c ∈ d.collections, ∃ e ∈ d.entities, e.name = c.2 := by
      intro c hc
      obtain ⟨e, he, hname⟩ := (hdeclared c hc).2
      obtain ⟨declaration, hmem, rfl⟩ := List.mem_map.1 he
      exact ⟨declaration, hmem, hname⟩
    obtain ⟨entities, hadded, h⟩ := bind_eq_ok_iff.1 h
    obtain ⟨hknown, hnavigations, rfl⟩ :=
      (addNavigations_eq_ok_iff (List.pairwise_map.2 hentities)).1 hadded
    obtain ⟨collections, hadded, h⟩ := bind_eq_ok_iff.1 h
    rw [← hlinked] at hadded h
    obtain ⟨hnew, hoperations, rfl⟩ :=
      (addOperations_eq_ok_iff (pairwise_resolved htypes hcollections)).1 hadded
    cases h
    have hknown := fun p hp => isKnown_declared_iff.1 (hknown p hp)
    have hnew := fun p hp => (isNew_resolved_iff htypes).1 (hnew p hp)
    exact ⟨{
      entityNames := fun e he => (hdeclares e he).1
      fieldNames := fun e he => (hdeclares e he).2.1
      collectionNames := fun c hc => (hdeclared c hc).1
      navigationNames := fun p hp => (hknown p hp).1
      operationNames := fun p hp => (hnew p hp).1
      entities := hentities
      fields := fun e he => (hdeclares e he).2.2.1
      keys := fun e he => (hdeclares e he).2.2.2
      collections := hcollections
      types := htypes
      targets := fun p hp => (hknown p hp).2.1
      owners := fun p hp => (hknown p hp).2.2
      navigations := hnavigations
      operated := fun p hp => (hnew p hp).2
      operations := hoperations }, rfl⟩
  · rintro ⟨h, rfl⟩
    refine ⟨⟨fun e he => ⟨h.entityNames e he, h.fieldNames e he, h.fields e he, h.keys e he⟩,
      h.entities⟩, ⟨fun c hc => ⟨h.collectionNames c hc, ?_⟩, h.collections⟩, ?_⟩
    · obtain ⟨e, he, hname⟩ := h.types c hc
      exact ⟨_, List.mem_map_of_mem he, hname⟩
    · have hknown := fun p hp => isKnown_declared_iff.2
        ⟨h.navigationNames p hp, h.targets p hp, h.owners p hp⟩
      have hnew := fun p hp => (isNew_resolved_iff h.types).2
        ⟨h.operationNames p hp, h.operated p hp⟩
      rw [(addNavigations_eq_ok_iff (List.pairwise_map.2 h.entities)).2
        ⟨hknown, h.navigations, hlinked⟩, ok_bind,
        (addOperations_eq_ok_iff (pairwise_resolved h.types h.collections)).2
          ⟨hnew, h.operations, rfl⟩, ok_bind]
      rfl

/-! ## What the schema of the declarations holds -/

/-- A navigation property of an entity type is a declared one that leads to the entity type of a
declared collection. -/
theorem mem_navigationsOf {collections : List (String × String)} {owner : String}
    {declared : List (String × Navigation)} {n : Navigation}
    (h : n ∈ navigationsOf collections owner declared) :
    ∃ p ∈ declared, p.1 = owner ∧
      ∃ c ∈ collections, c.1 = p.2.collection ∧ n = { p.2 with target := c.2 } := by
  obtain ⟨p, hp, hn⟩ := List.mem_filterMap.1 h
  obtain ⟨hname, hn⟩ := Option.ite_none_right_eq_some.1 hn
  obtain ⟨c, hc, rfl⟩ := Option.map_eq_some_iff.1 hn
  exact ⟨p, hp, hname, c, List.mem_of_find?_eq_some hc, by simpa using List.find?_some hc, rfl⟩

/-- The collections are those declared, by name and entity type. -/
theorem views_linked {d : Draft} (h : d.IsConsistent) :
    d.linked.collections.map (fun c => (c.name, c.entity.name)) = d.collections := by
  have hresolved := (resolveCollections_spec (types_linkedEntities h.types)).1
  rw [linked, List.map_map]
  exact hresolved

/-- Every collection holds an entity type of the schema itself. -/
theorem entity_mem_linked {d : Draft} (h : d.IsConsistent) {c : Collection}
    (hc : c ∈ d.linked.collections) : c.entity ∈ d.linked.entities := by
  obtain ⟨c', hc', rfl⟩ := List.mem_map.1 hc
  exact ((resolveCollections_spec (types_linkedEntities h.types)).2 c' hc').1

end Draft

end ODataEngine
