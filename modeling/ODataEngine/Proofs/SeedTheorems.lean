import ODataEngine.Proofs.BodyTheorems
import ODataEngine.Settings.SchemaSection

/-!
# Stores that begin with records

A collection of the settings may list records to begin with. They come into the store as they are
written, past the bodies of requests.

- `CollectionSection.checkSeed_eq_ok_iff`: what is checked is that every member is named like a
  field, in any case, and has a value for it.
- `EntityType.Fit` says what the records need besides: the declared spelling, keys, and no key twice.
- `Store.holds_new_iff` and `Store.addBodies_eq_iff`: of checked records, just those that fit make a
  store that holds entities, and just those could have been added one after another.
- `SchemaSection.build_seeds` says so for all stores that a section is built to.
-/

namespace ODataEngine

/-! ## Records that fit -/

/-- The member is named like a field, in any case, and its value may stand in that. -/
def EntityType.IsChecked (e : EntityType) (m : String × Json) : Prop :=
  ∃ f, e.field? m.1 = some f ∧ f.accepts m.2 = true

/-- The members of the records are spelled as declared, and each record has a key of its own. -/
structure EntityType.Fit (e : EntityType) (records : List Record) : Prop where
  spelled : ∀ r ∈ records, ∀ m ∈ r, m.1 ∈ e.fieldNames
  keyed : ∀ r ∈ records, (r.valueOf e.key).isNull = false
  distinct : records.Pairwise fun r r' => (r.valueOf e.key).sameKey (r'.valueOf e.key) = false

/-- The store after records are sent as bodies, one after another, and added; none if one of them is
refused. -/
def Store.addBodies (s : Store) (e : EntityType) (fresh : String) : List Record → Option Store
  | [] => some s
  | r :: rest =>
    match e.ofBody (some (.object r)) with
    | .error _ => none
    | .ok body =>
      match s.add fresh body with
      | .error _ => none
      | .ok (_, s) => addBodies s e fresh rest

/-- The store begins with checked records. It holds entities just if they fit, and just then, where no
name is that of an annotation, it is what adding them makes of a store without records. -/
structure Store.BeginsWith (s : Store) (e : EntityType) (records : List Record) : Prop where
  store : s = .new e records
  checked : ∀ r ∈ records, ∀ m ∈ r, e.IsChecked m
  body : ∀ r ∈ records, e.ofBody (some (.object r)) = .ok r ↔
    ∀ m ∈ r, m.1 ∈ e.fieldNames ∧ isAnnotationName m.1 = false
  holds : s.Holds e ↔ e.Fit records
  added : (∀ r ∈ records, ∀ m ∈ r, isAnnotationName m.1 = false) → ∀ fresh,
    (Store.new e []).addBodies e fresh records = some s ↔ e.Fit records

/-! ## Members that were checked -/

namespace EntityType

variable {e : EntityType}

/-- A member that was checked is one of the entity type if it is spelled as declared. -/
theorem Sound.hasMember_iff (hsound : e.Sound) {m : String × Json} (hm : e.IsChecked m) :
    e.HasMember m ↔ m.1 ∈ e.fieldNames := by
  constructor
  · intro h
    obtain ⟨f, hf, hname, -⟩ := h
    exact List.mem_map.2 ⟨f, hf, hname⟩
  · intro h
    obtain ⟨f, hf, hname⟩ := List.mem_map.1 h
    obtain ⟨g, hg, haccepts⟩ := hm
    have hfound := hsound.field?_eq_some hf (Text.sameName_refl f.name)
    rw [hname, hg] at hfound
    cases hfound
    exact ⟨f, hf, hname, haccepts⟩

/-- Members in the declared spelling are set as they are. -/
theorem Sound.addMembers_eq (hsound : e.Sound) {members : Record}
    (h : ∀ m ∈ members, e.HasMember m ∧ isAnnotationName m.1 = false) (r : Record) :
    e.addMembers r members = .ok (r.insertAll members) := by
  induction members generalizing r with
  | nil => rfl
  | cons m rest ih =>
    obtain ⟨⟨hmember, hplain⟩, hrest⟩ := List.forall_mem_cons.1 h
    obtain ⟨f, hf, hname, haccepts⟩ := hmember
    have hfound : e.field? m.1 = some f := by
      apply hsound.field?_eq_some hf
      rw [hname]
      exact Text.sameName_refl m.1
    have hadd : e.addMember r m.1 m.2 = .ok (r.insert m.1 m.2) :=
      addMember_eq_ok_iff.2 ⟨f, hfound, haccepts, by rw [hname]⟩
    show (if m.1.toList.head? = some '@' then e.addMembers r rest
      else e.addMember r m.1 m.2 >>= fun r => e.addMembers r rest) = _
    rw [if_neg (beq_eq_false_iff_ne.1 hplain), hadd, ok_bind, ih hrest]
    rfl

/-- A body of checked members gives itself as the record if its names are spelled as declared and
none is that of an annotation. -/
theorem Sound.ofBody_self_iff (hsound : e.Sound) {r : Record} (hnames : r.names.Nodup)
    (hchecked : ∀ m ∈ r, e.IsChecked m) :
    e.ofBody (some (.object r)) = .ok r ↔
      ∀ m ∈ r, m.1 ∈ e.fieldNames ∧ isAnnotationName m.1 = false := by
  constructor
  · intro h m hm
    have hspelled : ∀ m ∈ r, m.1 ∈ e.fieldNames := fun m hm =>
      (hsound.hasMember_iff (hchecked m hm)).1 ((ofBody_spec h).1 m hm)
    refine ⟨hspelled m hm, ?_⟩
    have hget := hsound.get?_ofBody h m.1
    rw [(Record.get?_eq_some_iff hnames).2 hm, if_pos (hspelled m hm)] at hget
    obtain ⟨m', hlast, -⟩ := Option.map_eq_some_iff.1 hget.symm
    obtain ⟨hm', hgives⟩ := List.mem_filter.1 (List.mem_of_getLast? hlast)
    rw [Record.gives, Bool.and_eq_true, Bool.not_eq_true'] at hgives
    -- both names are declared, and declared names differ in more than case
    obtain ⟨f, hf, hfname⟩ := List.mem_map.1 (hspelled m hm)
    obtain ⟨f', hf', hfname'⟩ := List.mem_map.1 (hspelled m' hm')
    have hsame : Text.sameName f'.name f.name = true := by
      rw [hfname, hfname']
      exact hgives.2
    have hname : m'.1 = m.1 := by
      rw [← hfname, ← hfname', eq_of_sameName hsound.fields hf' hf hsame]
    rw [← hname]
    exact hgives.1
  · intro h
    have hmembers : ∀ m ∈ r, e.HasMember m ∧ isAnnotationName m.1 = false := fun m hm =>
      ⟨(hsound.hasMember_iff (hchecked m hm)).2 (h m hm).1, (h m hm).2⟩
    show e.addMembers [] r = .ok r
    rw [hsound.addMembers_eq hmembers, Record.insertAll_nil hnames]

end EntityType

/-! ## Stores of checked records -/

namespace Store

variable {s s' : Store} {e : EntityType} {records : List Record}

/-- A store of checked records holds entities if and only if the records fit. -/
theorem holds_new_iff (hsound : e.Sound) (hchecked : ∀ r ∈ records, ∀ m ∈ r, e.IsChecked m) :
    (Store.new e records).Holds e ↔ e.Fit records := by
  have hdistinct : ((records.map (Store.new e records).keyOf).Pairwise
      fun a b => a.order? b ≠ some .eq) ↔
        records.Pairwise fun r r' => (r.valueOf e.key).sameKey (r'.valueOf e.key) = false := by
    rw [List.pairwise_map]
    apply List.Pairwise.iff
    intro r r'
    exact beq_eq_false_iff_ne.symm
  constructor
  · intro h
    refine ⟨?_, ?_, hdistinct.1 h.distinct⟩
    · intro r hr m hm
      exact (hsound.hasMember_iff (hchecked r hr m hm)).1 (h.members r hr m hm)
    · intro r hr
      obtain ⟨v, hv, hnull⟩ := h.keyed r hr
      rw [Record.valueOf_of_get? hv]
      exact hnull
  · intro h
    refine ⟨rfl, rfl, ?_, ?_, hdistinct.2 h.distinct⟩
    · intro r hr m hm
      exact (hsound.hasMember_iff (hchecked r hr m hm)).2 (h.spelled r hr m hm)
    · intro r hr
      exact ⟨_, Record.get?_of_valueOf (h.keyed r hr), h.keyed r hr⟩

/-- A record with a key that is new is added as it is. -/
theorem add_of_keyed {r : Record} (hkeyed : (r.valueOf e.key).isNull = false)
    (hnew : (Store.new e records).lookup? (r.valueOf e.key) = none) (fresh : String) :
    (Store.new e records).add fresh r = .ok (r, .new e (records ++ [r])) := by
  have hkeep : r.insert e.key (r.valueOf e.key) = r :=
    Record.insert_get? (Record.get?_of_valueOf hkeyed)
  have hkey : (Store.new e records).keyFor fresh r = .ok (r.valueOf e.key) :=
    @keyFor_of_not_isNull (Store.new e records) r hkeyed fresh
  rw [add_eq, guarded_of_not_refused rfl, hkey, ok_bind]
  show (if ((Store.new e records).lookup? (r.valueOf e.key)).isSome then _
    else Except.ok (r.insert e.key (r.valueOf e.key),
      Store.new e (records ++ [r.insert e.key (r.valueOf e.key)]))) = _
  rw [hnew, hkeep]
  rfl

/-- Records that are bodies of themselves are added as they are, if each has a key of its own. -/
theorem addBodies_new {before : List Record} (hself : ∀ r ∈ records, e.ofBody (some (.object r)) = .ok r)
    (hkeyed : ∀ r ∈ records, (r.valueOf e.key).isNull = false)
    (hdistinct : (before ++ records).Pairwise
      fun r r' => (r.valueOf e.key).sameKey (r'.valueOf e.key) = false) (fresh : String) :
    (Store.new e before).addBodies e fresh records = some (.new e (before ++ records)) := by
  induction records generalizing before with
  | nil =>
    rw [List.append_nil]
    rfl
  | cons r rest ih =>
    obtain ⟨hbody, hself⟩ := List.forall_mem_cons.1 hself
    obtain ⟨hkey, hkeyed⟩ := List.forall_mem_cons.1 hkeyed
    have hnew : (Store.new e before).lookup? (r.valueOf e.key) = none := by
      apply lookup?_eq_none_iff.2
      intro r' hr'
      exact (List.pairwise_append.1 hdistinct).2.2 r' hr' r List.mem_cons_self
    rw [← List.singleton_append, ← List.append_assoc] at hdistinct
    have hrest := ih hself hkeyed hdistinct
    rw [List.append_assoc, List.singleton_append] at hrest
    rw [addBodies, hbody]
    show (match (Store.new e before).add fresh r with
      | .error _ => none
      | .ok (_, s) => addBodies s e fresh rest) = _
    rw [add_of_keyed hkey hnew]
    exact hrest

/-- A store that holds entities holds entities after bodies are added to it. -/
theorem Holds.addBodies (hs : s.Holds e) (hsound : e.Sound) (hkeyField : e.HasKeyField)
    {fresh : String} (h : s.addBodies e fresh records = some s') : s'.Holds e := by
  induction records generalizing s with
  | nil =>
    cases h
    exact hs
  | cons r rest ih =>
    unfold Store.addBodies at h
    split at h
    · cases h
    · next body hbody =>
      split at h
      · cases h
      · next stored s₁ hadd => exact ih (hs.add hsound hkeyField hbody hadd) h

/-- Checked records without annotations are what a store begins with after they are added one after
another, if and only if they fit. -/
theorem addBodies_eq_iff (hsound : e.Sound) (hkeyField : e.HasKeyField)
    (hnames : ∀ r ∈ records, r.names.Nodup) (hchecked : ∀ r ∈ records, ∀ m ∈ r, e.IsChecked m)
    (hplain : ∀ r ∈ records, ∀ m ∈ r, isAnnotationName m.1 = false) (fresh : String) :
    (Store.new e []).addBodies e fresh records = some (.new e records) ↔ e.Fit records := by
  constructor
  · intro h
    exact (holds_new_iff hsound hchecked).1 ((holds_new e).addBodies hsound hkeyField h)
  · intro h
    have hself : ∀ r ∈ records, e.ofBody (some (.object r)) = .ok r := by
      intro r hr
      apply (hsound.ofBody_self_iff (hnames r hr) (hchecked r hr)).2
      intro m hm
      exact ⟨h.spelled r hr m hm, hplain r hr m hm⟩
    have hadded := @addBodies_new e records [] hself h.keyed h.distinct fresh
    exact hadded

end Store

/-! ## Stores of a section -/

namespace CollectionSection

theorem memberFault?_eq_none_iff {e : EntityType} {m : String × Json} :
    memberFault? e m = none ↔ e.IsChecked m := by
  unfold memberFault? EntityType.IsChecked
  obtain ⟨name, value⟩ := m
  cases hfound : e.field? name with
  | none => simp [hfound]
  | some f => simp [hfound]

/-- The records that a collection begins with are accepted if every member is checked. -/
theorem checkSeed_eq_ok_iff {e : EntityType} {collection : String} {i : Nat}
    {records : List Record} :
    checkSeed e collection i records = .ok () ↔ ∀ r ∈ records, ∀ m ∈ r, e.IsChecked m := by
  induction records generalizing i with
  | nil => exact iff_of_true rfl nofun
  | cons r rest ih =>
    have hnone : r.findSome? (memberFault? e) = none ↔ ∀ m ∈ r, e.IsChecked m := by
      rw [List.findSome?_eq_none_iff]
      exact forall₂_congr fun m _ => memberFault?_eq_none_iff
    rw [List.forall_mem_cons, ← hnone, ← ih (i := i + 1), checkSeed]
    cases hfault : r.findSome? (memberFault? e) with
    | none => simp
    | some fault => simp

/-- A store is filled with the records that a collection lists, once they are checked. -/
theorem store_eq_ok_iff {entities : List EntityDeclaration} {c : CollectionSection}
    {filled : String × Store} :
    c.store entities = .ok filled ↔ ∃ e, entities.find? (·.name == c.entity) = some e ∧
      (∀ r ∈ c.seed, ∀ m ∈ r, e.bare.IsChecked m) ∧ filled = (c.name, .new e.bare c.seed) := by
  unfold store
  cases hfound : entities.find? (·.name == c.entity) with
  | none => simp
  | some e =>
    show checkSeed e.bare c.name 0 c.seed >>= (fun _ => _) = _ ↔ _
    rw [check_bind_eq_ok_iff, checkSeed_eq_ok_iff]
    constructor
    · intro h
      obtain ⟨hchecked, hfilled⟩ := h
      cases hfilled
      exact ⟨e, rfl, hchecked, rfl⟩
    · intro h
      obtain ⟨e', he', hchecked, hfilled⟩ := h
      cases he'
      exact ⟨hchecked, by rw [hfilled]; rfl⟩

end CollectionSection

namespace SchemaSection

variable {sec : SchemaSection} {s : Schema} {stores : Stores}

/-- A section is built to a schema of its declarations and a filled store for each collection. -/
theorem exists_of_build (h : sec.build = .ok (s, stores)) :
    ∃ entities, (sec.draft entities).build = .ok s ∧
      List.Forall₂ (fun c filled => c.store entities = .ok filled) sec.collections stores := by
  obtain ⟨entities, -, h⟩ := bind_eq_ok_iff.1 h
  obtain ⟨filled, hfilled, h⟩ := bind_eq_ok_iff.1 h
  split at h
  · next schema hschema =>
    cases h
    exact ⟨entities, hschema, forall₂_of_mapM hfilled⟩
  · cases h

/-- The stores stand under the names of the collections. -/
theorem map_fst_of_forall₂ {entities : List EntityDeclaration}
    (h : List.Forall₂ (fun c filled => c.store entities = .ok filled) sec.collections stores) :
    stores.map Prod.fst = sec.collections.map (·.name) := by
  have hnames : List.Forall₂ (· = ·) (sec.collections.map (·.name)) (stores.map Prod.fst) := by
    rw [List.forall₂_map_left_iff, List.forall₂_map_right_iff]
    apply h.imp
    intro c filled hfilled
    obtain ⟨e, -, -, rfl⟩ := CollectionSection.store_eq_ok_iff.1 hfilled
    rfl
  rw [List.forall₂_eq_eq_eq] at hnames
  exact hnames.symm

theorem map_name_of_build {entities : List EntityDeclaration}
    (hbuild : (sec.draft entities).build = .ok s) :
    s.collections.map (·.name) = sec.collections.map (·.name) := by
  obtain ⟨hconsistent, rfl⟩ := Draft.build_eq_ok_iff.1 hbuild
  have hdeclared : (sec.draft entities).collections.map Prod.fst =
      sec.collections.map (·.name) := List.map_map
  rw [← hdeclared, ← Draft.views_linked hconsistent, List.map_map]
  rfl

/-- A collection of the schema has the entity type that is declared for it, but for the navigation
properties. -/
theorem exists_collection {entities : List EntityDeclaration}
    (hbuild : (sec.draft entities).build = .ok s) {c : CollectionSection}
    (hc : c ∈ sec.collections) {e : EntityDeclaration}
    (he : entities.find? (·.name == c.entity) = some e) :
    ∃ col ∈ s.collections, col.name = c.name ∧ col.entity.name = c.entity ∧
      ∃ navigations, col.entity = { e.bare with navigations := navigations } := by
  obtain ⟨hconsistent, rfl⟩ := Draft.build_eq_ok_iff.1 hbuild
  have hview : (c.name, c.entity) ∈ (sec.draft entities).collections := List.mem_map_of_mem hc
  rw [← Draft.views_linked hconsistent] at hview
  obtain ⟨col, hcol, heq⟩ := List.mem_map.1 hview
  obtain ⟨hname, hentity⟩ := Prod.mk.inj heq
  refine ⟨col, hcol, hname, hentity, ?_⟩
  obtain ⟨declaration, hdeclared, hlinked⟩ :=
    List.mem_map.1 (Draft.entity_mem_linked hconsistent hcol)
  have hdeclaredName : declaration.name = c.entity := by
    rw [← hentity, ← hlinked]
    rfl
  have hfound := find?_name_eq_some (List.pairwise_map.2 hconsistent.entities) hdeclared
  rw [hdeclaredName] at hfound
  obtain rfl : e = declaration := Option.some.inj (he.symm.trans hfound)
  exact ⟨_, hlinked.symm⟩

/-- Every store that an accepted section is built to begins with the listed records as they are
written. Whether that is a store that writing could have led to depends on the records: just if they
fit it holds entities, as all stores do that requests fill. -/
theorem build_seeds (hbuild : sec.build = .ok (s, stores)) (hkeys : ∀ e ∈ s.entities, e.HasKeyField)
    (hnames : ∀ c ∈ sec.collections, ∀ r ∈ c.seed, r.names.Nodup) :
    stores.map Prod.fst = sec.collections.map (·.name) ∧
      ∀ c ∈ sec.collections, ∃ col ∈ s.collections, col.name = c.name ∧
        col.entity.name = c.entity ∧
        ∃ store, stores.store? c.name = some store ∧ store.BeginsWith col.entity c.seed := by
  obtain ⟨entities, hschema, hstores⟩ := exists_of_build hbuild
  have hsound := Schema.sound_of_build hschema
  have hstoreNames := map_fst_of_forall₂ hstores
  refine ⟨hstoreNames, ?_⟩
  intro c hc
  obtain ⟨filled, hfilled, hstore⟩ := exists_of_forall₂ hstores hc
  obtain ⟨e, he, hchecked, rfl⟩ := CollectionSection.store_eq_ok_iff.1 hstore
  obtain ⟨col, hcol, hname, hentity, navigations, htype⟩ := exists_collection hschema hc he
  have hmem := (hsound.collections col hcol).2
  have hentitySound := hsound.entities col.entity hmem
  -- neither the store nor the check of its records asks for the navigation properties
  have hchecked : ∀ r ∈ c.seed, ∀ m ∈ r, col.entity.IsChecked m := by
    rw [htype]
    exact hchecked
  have hnew : Store.new e.bare c.seed = Store.new col.entity c.seed := by
    rw [htype]
    rfl
  rw [hnew] at hfilled
  refine ⟨col, hcol, hname, hentity, Store.new col.entity c.seed, ?_, ?_⟩
  · apply lookup_eq_some_of_mem ?_ hfilled
    rw [hstoreNames, ← map_name_of_build hschema]
    exact hsound.collectionNames
  · exact {
      store := rfl
      checked := hchecked
      body := fun r hr => hentitySound.ofBody_self_iff (hnames c hc r hr) (hchecked r hr)
      holds := Store.holds_new_iff hentitySound hchecked
      added := Store.addBodies_eq_iff hentitySound (hkeys col.entity hmem) (hnames c hc) hchecked }

end SchemaSection

/-! ## Maps to begin with -/

namespace Archive

/-- The fields of maps that have a name. -/
def named : List Field := [⟨"Id", .int32, false⟩, ⟨"Name", .string, false⟩]

/-- The settings of an archive whose maps begin with some records. -/
def settings (seed : List Record) : SchemaSection where
  nameSpace := some "Archive"
  entities := [⟨"Map", "Id", [⟨"Id", "Int32"⟩, ⟨"Name", "Edm.String"⟩], []⟩]
  collections := [⟨"Maps", "Map", seed⟩]

/-- Two maps with keys of their own. -/
def twoMaps : List Record := [
  [("Id", .ofInt 1), ("Name", .string "Alps")],
  [("Name", .string "Andes"), ("Id", .ofInt 2)]]

/-- A map whose members are not spelled as declared. -/
def misspelled : Record := [("ID", .ofInt 1), ("name", .string "Alps")]

/-- Two maps with one key. -/
def clashing : List Record := [
  [("Id", .ofInt 1), ("Name", .string "Alps")],
  [("Id", .ofInt 1), ("Name", .string "Andes")]]

/-- The maps of the archive fit, so they could as well have been added one after another. -/
theorem twoMaps_seeded :
    (settings twoMaps).build =
        .ok (schema named, [("Maps", .new (maps named).entity twoMaps)]) ∧
      (∀ e ∈ (schema named).entities, e.HasKeyField) ∧
      (∀ c ∈ (settings twoMaps).collections, ∀ r ∈ c.seed, r.names.Nodup) ∧
      (Store.new (maps named).entity twoMaps).Holds (maps named).entity ∧
      (Store.new (maps named).entity []).addBodies (maps named).entity "" twoMaps =
        some (.new (maps named).entity twoMaps) := by
  have hbuild : (settings twoMaps).build =
      .ok (schema named, [("Maps", .new (maps named).entity twoMaps)]) := rfl
  have hkeys : ∀ e ∈ (schema named).entities, e.HasKeyField := by
    intro e he
    obtain rfl := List.mem_singleton.1 he
    exact ⟨_, List.mem_cons_self, rfl, rfl⟩
  have hnames : ∀ c ∈ (settings twoMaps).collections, ∀ r ∈ c.seed, r.names.Nodup := by decide
  have hfit : (maps named).entity.Fit twoMaps := by
    refine ⟨by decide, by decide, ?_⟩
    exact .cons (by decide) (.cons nofun .nil)
  obtain ⟨col, hcol, -, -, store, hstore, hbegins⟩ :=
    (SchemaSection.build_seeds hbuild hkeys hnames).2 _ List.mem_cons_self
  obtain rfl := List.mem_singleton.1 hcol
  obtain rfl := hbegins.store
  exact ⟨hbuild, hkeys, hnames, hbegins.holds.2 hfit, (hbegins.added (by decide) "").2 hfit⟩

/-- A map that is not stored as its body would be, and not found by its key; and two maps that could
not both have been added. Both archives are built. -/
theorem seeds_taken_as_written :
    (maps named).entity.HasKeyField ∧
      (settings [misspelled]).build =
        .ok (schema named, [("Maps", .new (maps named).entity [misspelled])]) ∧
      ¬ (Store.new (maps named).entity [misspelled]).Holds (maps named).entity ∧
      (maps named).entity.ofBody (some (.object misspelled)) =
        .ok [("Id", .ofInt 1), ("Name", .string "Alps")] ∧
      (Store.new (maps named).entity [misspelled]).get (.ofInt 1) [] = .ok none ∧
      (settings clashing).build =
        .ok (schema named, [("Maps", .new (maps named).entity clashing)]) ∧
      ¬ (Store.new (maps named).entity clashing).Holds (maps named).entity := by
  refine ⟨⟨_, List.mem_cons_self, rfl, rfl⟩, rfl, ?_, rfl, rfl, rfl, ?_⟩
  · intro h
    obtain ⟨f, hf, hname, -⟩ := h.members _ List.mem_cons_self _ List.mem_cons_self
    have hdeclared : "ID" ∈ (maps named).entity.fieldNames := List.mem_map.2 ⟨f, hf, hname⟩
    revert hdeclared
    decide
  · intro h
    have hapart := (List.pairwise_cons.1 h.distinct).1 _ List.mem_cons_self
    exact hapart rfl

end Archive

end ODataEngine
