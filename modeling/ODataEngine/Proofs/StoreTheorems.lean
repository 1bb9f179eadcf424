import ODataEngine.Proofs.RecordTheorems
import ODataEngine.Proofs.ResultTheorems
import ODataEngine.Proofs.SchemaTheorems
import ODataEngine.Service.Writing

/-!
# What stores hold

A store that holds entities of a type (`Store.Holds`) goes on to do so when one of the calls is made
that a request can lead to (`Store.Step`): adding the record of a body, setting the members of one,
or removing a record.
-/

namespace ODataEngine

/-! ## Stores by name -/

namespace Stores

theorem store?_put_self {stores : Stores} {name : String} {old : Store}
    (h : stores.store? name = some old) (s : Store) : (stores.put name s).store? name = some s := by
  induction stores with
  | nil => cases h
  | cons entry rest ih =>
    obtain ⟨n, t⟩ := entry
    unfold put
    by_cases hn : n = name
    · rw [if_pos hn, hn]
      exact List.lookup_cons_self
    · have hne : (name == n) = false := by simpa using Ne.symm hn
      rw [store?, List.lookup_cons, hne] at h
      rw [if_neg hn, store?, List.lookup_cons, hne]
      exact ih h

theorem store?_put_of_ne (stores : Stores) {name other : String} (h : other ≠ name) (s : Store) :
    (stores.put name s).store? other = stores.store? other := by
  induction stores with
  | nil => rfl
  | cons entry rest ih =>
    obtain ⟨n, t⟩ := entry
    unfold put
    split
    · next hn =>
      have hne : (other == n) = false := by simpa [hn] using h
      rw [store?, store?, List.lookup_cons, List.lookup_cons, hne]
    · unfold store? at ih ⊢
      rw [List.lookup_cons, List.lookup_cons, ih]

end Stores

/-! ## Keys -/

/-- An integer of 64 bits with sign, a text or a boolean. -/
def Json.isPlainKey : Json → Bool
  | .number n => n.int64?.isSome
  | .string _ | .bool _ => true
  | _ => false

theorem Json.isNull_of_isPlainKey {v : Json} (h : v.isPlainKey = true) : v.isNull = false := by
  cases v with
  | null => cases h
  | _ => rfl

/-- Plain keys are the same key only if they are the same value. -/
theorem Json.sameKey_iff {a b : Json} (ha : a.isPlainKey = true) (hb : b.isPlainKey = true) :
    a.sameKey b = true ↔ a = b := by
  cases a with
  | null | array | object => cases ha
  | bool x => cases b <;> simp_all [sameKey, order?, isPlainKey]
  | string x => cases b <;> simp_all [sameKey, order?, isPlainKey]
  | number x =>
    cases b with
    | number y =>
      obtain ⟨i, hi⟩ := Option.isSome_iff_exists.1 ha
      obtain ⟨j, hj⟩ := Option.isSome_iff_exists.1 hb
      rw [(JsonNumber.eq_int_of_int64? hi).1, (JsonNumber.eq_int_of_int64? hj).1] at *
      simp [sameKey, order?, JsonNumber.order, hi, hj]
    | _ => simp_all [sameKey, order?, isPlainKey]

/-! ## Stores of a schema -/

/-- A store for the entities of a type, with some records. -/
def Store.new (e : EntityType) (records : List Record) : Store :=
  { key := e.key, keyType := e.keyType, records := records }

/-- A key addresses a record: the record has it, and no record before it does. -/
structure Store.Addresses (e : EntityType) (key : Json) (before : List Record) (r : Record) :
    Prop where
  missed : ∀ r' ∈ before, (r'.valueOf e.key).sameKey key = false
  hit : (r.valueOf e.key).sameKey key = true

theorem Store.lookup?_eq_some_iff {e : EntityType} {records : List Record} {key : Json}
    {r : Record} : (Store.new e records).lookup? key = some r ↔
      ∃ before after, records = before ++ r :: after ∧ Addresses e key before r := by
  constructor
  · intro h
    obtain ⟨hhit, before, after, rfl, hmissed⟩ := List.find?_eq_some_iff_append.1 h
    exact ⟨before, after, rfl, fun r' hr' => (Bool.not_eq_true' _).mp (hmissed r' hr'), hhit⟩
  · rintro ⟨before, after, rfl, hmissed, hhit⟩
    exact List.find?_eq_some_iff_append.2
      ⟨hhit, before, after, rfl, fun r' hr' => (Bool.not_eq_true' _).mpr (hmissed r' hr')⟩

theorem Store.lookup?_eq_none_iff {e : EntityType} {records : List Record} {key : Json} :
    (Store.new e records).lookup? key = none ↔
      ∀ r ∈ records, (r.valueOf e.key).sameKey key = false :=
  List.find?_eq_none.trans (forall₂_congr fun _ _ => Bool.eq_false_iff.symm)

/-- The stores of a schema, one for each collection, with the records for each name. -/
def Schema.fill (s : Schema) (records : String → List Record) : Stores :=
  s.collections.map fun c => (c.name, Store.new c.entity (records c.name))

/-- Names are unique, so every collection has the store that is listed for it. -/
theorem Schema.Sound.store?_map {s : Schema} (h : s.Sound) (store : Collection → Store)
    {c : Collection} (hc : c ∈ s.collections) :
    Stores.store? (s.collections.map fun c => (c.name, store c)) c.name = some (store c) := by
  have hnames : ((s.collections.map fun c => (c.name, store c)).map Prod.fst).Nodup := by
    rw [List.map_map]
    exact h.collectionNames
  exact lookup_eq_some_of_mem hnames (List.mem_map_of_mem hc)

theorem Schema.Sound.store?_fill {s : Schema} (h : s.Sound) (records : String → List Record)
    {c : Collection} (hc : c ∈ s.collections) :
    (s.fill records).store? c.name = some (Store.new c.entity (records c.name)) :=
  h.store?_map (fun c => Store.new c.entity (records c.name)) hc

/-! ## Records of an entity type -/

/-- The member is a field in its declared spelling, with a value that may stand in it. -/
def EntityType.HasMember (e : EntityType) (m : String × Json) : Prop :=
  ∃ f ∈ e.fields, f.name = m.1 ∧ f.accepts m.2 = true

/-- The key is spelled as a field that holds no list. -/
def EntityType.HasKeyField (e : EntityType) : Prop :=
  ∃ f ∈ e.fields, f.name = e.key ∧ f.isList = false

/-- The store holds entities of a type: records of its fields, each with a key of its own. -/
structure Store.Holds (s : Store) (e : EntityType) : Prop where
  key : s.key = e.key
  keyType : s.keyType = e.keyType
  members : ∀ r ∈ s.records, ∀ m ∈ r, e.HasMember m
  keyed : ∀ r ∈ s.records, ∃ v, r.get? e.key = some v ∧ v.isNull = false
  distinct : (s.records.map s.keyOf).Pairwise fun a b => a.order? b ≠ some .eq

theorem Store.holds_new (e : EntityType) : (Store.new e []).Holds e :=
  ⟨rfl, rfl, nofun, nofun, .nil⟩

/-- A change of a store by a call that a request to one of its entities leads to. -/
inductive Store.Step (e : EntityType) (s : Store) : Store → Prop
  | add {body : Option Json} {r stored : Record} {fresh : String} {s' : Store}
      (hbody : e.ofBody body = .ok r) (h : s.add fresh r = .ok (stored, s')) : Step e s s'
  | update {body : Option Json} {r patch stored : Record} {key : Json} {display : String}
      {replacement : Service.Replacement} {s' : Store} (hbody : e.ofBody body = .ok r)
      (hpatch : Service.patchOf e key display replacement r = .ok patch)
      (h : s.update key patch = .ok (stored, s')) : Step e s s'
  | remove {key : Json} {s' : Store} (h : s.remove key = .ok s') : Step e s s'

/-! ## Bodies -/

namespace EntityType

variable {e : EntityType}

theorem addMember_eq_ok_iff {r r' : Record} {name : String} {value : Json} :
    e.addMember r name value = .ok r' ↔
      ∃ f, e.field? name = some f ∧ f.accepts value = true ∧ r' = r.insert f.name value := by
  unfold addMember
  constructor
  · intro h
    split at h
    · next f hf =>
      split at h
      · next haccepts =>
        cases h
        exact ⟨f, hf, haccepts, rfl⟩
      · cases h
    · split at h <;> cases h
  · rintro ⟨f, hf, haccepts, rfl⟩
    rw [hf]
    exact if_pos haccepts

theorem addMembers_spec {r r' members : Record} (h : e.addMembers r members = .ok r')
    (hr : (∀ m ∈ r, e.HasMember m) ∧ r.names.Nodup) :
    (∀ m ∈ r', e.HasMember m) ∧ r'.names.Nodup := by
  induction members generalizing r with
  | nil =>
    cases h
    exact hr
  | cons member rest ih =>
    unfold addMembers at h
    split at h
    · exact ih h hr
    · obtain ⟨r₁, hadd, h⟩ := bind_eq_ok_iff.1 h
      obtain ⟨f, hf, haccepts, rfl⟩ := addMember_eq_ok_iff.1 hadd
      refine ih h ⟨fun m hm => ?_, Record.nodup_names_insert hr.2 f.name member.2⟩
      rcases Record.mem_insert hm with hm | rfl
      · exact hr.1 m hm
      · exact ⟨f, (mem_of_field? hf).1, rfl, haccepts⟩

/-- The record in a body has fields of the entity type, each once. -/
theorem ofBody_spec {body : Option Json} {r : Record} (h : e.ofBody body = .ok r) :
    (∀ m ∈ r, e.HasMember m) ∧ r.names.Nodup := by
  unfold ofBody at h
  split at h
  · cases h
  · exact addMembers_spec h ⟨by simp, List.nodup_nil⟩
  · cases h

end EntityType

namespace Service

variable {e : EntityType}

theorem withNulls_spec {r : Record} (hr : (∀ m ∈ r, e.HasMember m) ∧ e.key ∉ r.names) :
    (∀ m ∈ withNulls e r, e.HasMember m) ∧ e.key ∉ (withNulls e r).names := by
  unfold withNulls
  suffices hall : ∀ fields : List Field, (∀ f ∈ fields, f ∈ e.fields) → ∀ r : Record,
      (∀ m ∈ r, e.HasMember m) ∧ e.key ∉ r.names →
      let full := fields.foldl (fun (r : Record) f =>
        if f.name = e.key || (r.get? f.name).isSome then r else r.insert f.name .null) r
      (∀ m ∈ full, e.HasMember m) ∧ e.key ∉ full.names from
    hall e.fields (fun _ hf => hf) r hr
  intro fields
  induction fields with
  | nil => exact fun _ _ hr => hr
  | cons f rest ih =>
    intro hfields r hr
    obtain ⟨hf, hrest⟩ := List.forall_mem_cons.1 hfields
    rw [List.foldl_cons]
    apply ih hrest
    split
    · exact hr
    · next hnew =>
      have hkey : e.key ≠ f.name := fun he => hnew (by simp [he])
      refine ⟨fun m hm => ?_, fun hmem => ?_⟩
      · rcases Record.mem_insert hm with hm | rfl
        · exact hr.1 m hm
        · exact ⟨f, hf, rfl, rfl⟩
      · rcases Record.mem_names_insert hmem with hmem | he
        · exact hr.2 hmem
        · exact hkey he

/-- The members that are set on an entity are fields of its type, and the key is none of them. -/
theorem patchOf_spec {key : Json} {display : String} {replacement : Replacement} {r patch : Record}
    (h : patchOf e key display replacement r = .ok patch) (hr : ∀ m ∈ r, e.HasMember m)
    (hnames : r.names.Nodup) : (∀ m ∈ patch, e.HasMember m) ∧ e.key ∉ patch.names := by
  have herased : (∀ m ∈ r.erase e.key, e.HasMember m) ∧ e.key ∉ (r.erase e.key).names :=
    ⟨fun m hm => hr m (Record.mem_of_mem_erase hm), Record.not_mem_names_erase hnames e.key⟩
  unfold patchOf at h
  extract_lets differs at h
  split at h
  · cases h
  · cases replacement with
    | whole =>
      cases h
      exact withNulls_spec herased
    | given =>
      cases h
      exact herased

end Service

/-! ## Calls on a store -/

/-- Sorting rows changes nothing but their order. -/
theorem OrderKey.sort_perm (keys : List OrderKey) (rows : List Record) :
    (sort keys rows).Perm rows := by
  unfold sort
  split
  · exact .refl rows
  · exact stableSort_perm _ rows

namespace Store

variable {s s' : Store} {e : EntityType}

theorem guarded_eq_ok_iff {α : Type} {call : StoreCall} {result : Except StoreError α} {a : α} :
    s.guarded call result = .ok a ↔ s.refuses call = none ∧ result = .ok a := by
  unfold guarded
  split
  · next cause hrefused => simp [hrefused]
  · next haccepted => simp [haccepted]

theorem mem_of_rows {q : Query} {row : Record} (h : row ∈ s.rows { q with select := [] }) :
    row ∈ s.records := by
  unfold rows at h
  obtain ⟨r, hr, hrow⟩ := List.mem_map.1 h
  obtain rfl : r = row := hrow
  have hsorted := (Query.page_sublist _ _).mem hr
  have hfiltered := (OrderKey.sort_perm _ _).mem_iff.1 hsorted
  exact (List.mem_filter.1 hfiltered).1

/-- Whole records that are found are records of the store. -/
theorem mem_of_find {q : Query} {rows : List Record}
    (h : s.find { q with select := [] } = .ok rows) : ∀ row ∈ rows, row ∈ s.records := by
  obtain ⟨-, h⟩ := guarded_eq_ok_iff.1 h
  cases h
  exact fun row hrow => mem_of_rows hrow

theorem order?_ne_eq_of_lookup? {key : Json} (h : s.lookup? key = none) :
    ∀ r ∈ s.records, (s.keyOf r).order? key ≠ some .eq := by
  intro r hr hsame
  have hnone := List.find?_eq_none.1 h r hr
  rw [hasKey, Json.sameKey, hsame] at hnone
  exact hnone rfl

/-- A key that a store makes is one of its type. -/
theorem nextKey_spec {fresh : String} {key : Json} (h : s.nextKey fresh = .ok key) :
    key.isNull = false ∧ ∀ f : Field, f.type = s.keyType → f.isList = false →
      f.accepts key = true := by
  unfold nextKey at h
  split at h
  · next hinteger =>
    split at h
    · cases h
      refine ⟨rfl, fun f htype hlist => ?_⟩
      show (!f.isList && f.type.accepts (.ofInt (s.greatestKey + 1))) = true
      rw [hlist, htype, Json.ofInt, EdmType.accepts, if_pos hinteger]
      rfl
    · cases h
  · split at h
    · next hguid =>
      cases h
      refine ⟨rfl, fun f htype hlist => ?_⟩
      show (!f.isList && f.type.accepts (.string fresh)) = true
      rw [hlist, htype, hguid]
      rfl
    · cases h

/-- The key that a record is added under: its own, or if it has none the next one. -/
def keyFor (s : Store) (fresh : String) (r : Record) : Except StoreError Json :=
  if (s.keyOf r).isNull then s.nextKey fresh else .ok (s.keyOf r)

theorem keyFor_of_isNull {r : Record} (h : (s.keyOf r).isNull = true) (fresh : String) :
    s.keyFor fresh r = s.nextKey fresh := if_pos h

theorem keyFor_of_not_isNull {r : Record} (h : (s.keyOf r).isNull = false) (fresh : String) :
    s.keyFor fresh r = .ok (s.keyOf r) := if_neg (Bool.eq_false_iff.1 h)

/-- A record is added at the end, under the key for it, unless another one has that. -/
theorem add_eq (s : Store) (fresh : String) (r : Record) :
    s.add fresh r = s.guarded (.add r) (s.keyFor fresh r >>= fun key =>
      if (s.lookup? key).isSome then .error (.conflict key.render)
      else .ok (r.insert s.key key, { s with records := s.records ++ [r.insert s.key key] })) := by
  unfold add keyFor
  cases (s.keyOf r).isNull <;> rfl

/-- A record is added at the end, under a key that no other one has: its own, or the next. -/
theorem add_spec {fresh : String} {r stored : Record} (h : s.add fresh r = .ok (stored, s')) :
    ∃ key, (key = s.keyOf r ∧ key.isNull = false ∨ s.nextKey fresh = .ok key) ∧
      s.lookup? key = none ∧ stored = r.insert s.key key ∧
      s' = { s with records := s.records ++ [stored] } := by
  rw [add_eq] at h
  obtain ⟨-, h⟩ := guarded_eq_ok_iff.1 h
  obtain ⟨key, hkey, h⟩ := bind_eq_ok_iff.1 h
  split at h
  · cases h
  · next hfree =>
    cases h
    refine ⟨key, ?_, by simpa using hfree, rfl, rfl⟩
    cases hnull : (s.keyOf r).isNull with
    | true =>
      rw [keyFor_of_isNull hnull] at hkey
      exact .inr hkey
    | false =>
      rw [keyFor_of_not_isNull hnull] at hkey
      cases hkey
      exact .inl ⟨rfl, hnull⟩

theorem mem_changeFirst {test : Record → Bool} {change : Record → Record} {records : List Record}
    {r : Record} (h : r ∈ changeFirst test change records) :
    r ∈ records ∨ ∃ r₀ ∈ records, r = change r₀ := by
  induction records with
  | nil => cases h
  | cons r₀ rest ih =>
    unfold changeFirst at h
    split at h
    · rcases List.mem_cons.1 h with rfl | h
      · exact .inr ⟨r₀, List.mem_cons_self, rfl⟩
      · exact .inl (List.mem_cons_of_mem r₀ h)
    · rcases List.mem_cons.1 h with rfl | h
      · exact .inl List.mem_cons_self
      · rcases ih h with h | ⟨r₁, hr₁, rfl⟩
        · exact .inl (List.mem_cons_of_mem r₀ h)
        · exact .inr ⟨r₁, List.mem_cons_of_mem r₀ hr₁, rfl⟩

/-- What a change keeps of every record, it keeps of the list. -/
theorem map_changeFirst {α : Type} {view : Record → α} {change : Record → Record}
    (h : ∀ r, view (change r) = view r) (test : Record → Bool) (records : List Record) :
    (changeFirst test change records).map view = records.map view := by
  induction records with
  | nil => rfl
  | cons r rest ih =>
    unfold changeFirst
    split
    · rw [List.map_cons, List.map_cons, h]
    · rw [List.map_cons, List.map_cons, ih]

/-- Records that fail the test are passed over. -/
theorem changeFirst_append {test : Record → Bool} {records : List Record}
    (hmisses : ∀ r ∈ records, test r = false) {r : Record} (hhit : test r = true)
    (change : Record → Record) (rest : List Record) :
    changeFirst test change (records ++ r :: rest) = records ++ change r :: rest := by
  induction records with
  | nil => rw [List.nil_append, changeFirst, if_pos hhit, List.nil_append]
  | cons first others ih =>
    obtain ⟨hfirst, hothers⟩ := List.forall_mem_cons.1 hmisses
    rw [List.cons_append, changeFirst, hfirst, if_neg Bool.false_ne_true, ih hothers,
      List.cons_append]

theorem update_spec {key : Json} {patch stored : Record}
    (h : s.update key patch = .ok (stored, s')) :
    s' = { s with records := changeFirst (s.hasKey key) (·.insertAll patch) s.records } := by
  obtain ⟨-, h⟩ := guarded_eq_ok_iff.1 h
  split at h
  · cases h
  · split at h
    · cases h
    · cases h
      rfl

theorem remove_spec {key : Json} (h : s.remove key = .ok s') :
    s' = { s with records := s.records.eraseP (s.hasKey key) } := by
  obtain ⟨-, h⟩ := guarded_eq_ok_iff.1 h
  split at h
  · cases h
  · cases h
    rfl

/-! ## Steps keep what a store holds -/

section

variable (hs : s.Holds e)

include hs

theorem Holds.snoc {r : Record} (hr : ∀ m ∈ r, e.HasMember m)
    (hkeyed : ∃ v, r.get? e.key = some v ∧ v.isNull = false)
    (hfree : ∀ r' ∈ s.records, (s.keyOf r').order? (s.keyOf r) ≠ some .eq) :
    Holds { s with records := s.records ++ [r] } e := by
  refine ⟨hs.key, hs.keyType, ?_, ?_, ?_⟩
  · exact List.forall_mem_append.2 ⟨hs.members, List.forall_mem_singleton.2 hr⟩
  · exact List.forall_mem_append.2 ⟨hs.keyed, List.forall_mem_singleton.2 hkeyed⟩
  · show ((s.records ++ [r]).map s.keyOf).Pairwise fun a b => a.order? b ≠ some .eq
    rw [List.map_append]
    apply pairwise_snoc hs.distinct
    intro a ha
    obtain ⟨r', hr', rfl⟩ := List.mem_map.1 ha
    exact hfree r' hr'

/-- The key that a record is added under is not null and may stand in the key field, whether it was
given or made. -/
theorem Holds.hasMember_key (hsound : e.Sound) (hkeyField : e.HasKeyField) {r : Record}
    (hmembers : ∀ m ∈ r, e.HasMember m) {fresh : String} {key : Json}
    (hkey : key = s.keyOf r ∧ key.isNull = false ∨ s.nextKey fresh = .ok key) :
    key.isNull = false ∧ e.HasMember (e.key, key) := by
  rcases hkey with ⟨rfl, hgiven⟩ | hmade
  · refine ⟨hgiven, ?_⟩
    have hget := Record.get?_of_valueOf hgiven
    rw [hs.key] at hget
    have hmember := hmembers _ (Record.mem_of_get? hget)
    rwa [keyOf, hs.key]
  · obtain ⟨f, hf, hname, hlist⟩ := hkeyField
    obtain ⟨hnull, haccepts⟩ := nextKey_spec hmade
    have htype : f.type = s.keyType := by
      have hsame : Text.sameName f.name e.key = true := by
        rw [hname]
        exact Text.sameName_refl e.key
      have hfield := hsound.field?_eq_some hf hsame
      rw [hs.keyType, EntityType.keyType, EntityType.typeOf?, hfield]
      rfl
    exact ⟨hnull, f, hf, hname, haccepts f htype hlist⟩

/-- Adding the record of a body keeps what a store holds. -/
theorem Holds.add (hsound : e.Sound) (hkeyField : e.HasKeyField) {body : Option Json}
    {fresh : String} {r stored : Record} (hbody : e.ofBody body = .ok r)
    (h : s.add fresh r = .ok (stored, s')) : s'.Holds e := by
  obtain ⟨key, hkey, hfree, rfl, rfl⟩ := add_spec h
  have hmembers := (EntityType.ofBody_spec hbody).1
  have hvalue := hs.hasMember_key hsound hkeyField hmembers hkey
  have hself : (r.insert s.key key).get? s.key = some key := Record.get?_insert_self r s.key key
  apply hs.snoc
  · intro m hm
    rcases Record.mem_insert hm with hm | rfl
    · exact hmembers m hm
    · rw [hs.key]
      exact hvalue.2
  · exact ⟨key, by rw [← hs.key, hself], hvalue.1⟩
  · rw [keyOf, Record.valueOf_of_get? hself]
    exact order?_ne_eq_of_lookup? hfree

/-- Setting the members of a body on a record keeps what a store holds. -/
theorem Holds.update {body : Option Json} {display : String} {replacement : Service.Replacement}
    {key : Json} {r patch stored : Record} (hbody : e.ofBody body = .ok r)
    (hpatch : Service.patchOf e key display replacement r = .ok patch)
    (h : s.update key patch = .ok (stored, s')) : s'.Holds e := by
  obtain rfl := update_spec h
  obtain ⟨hmembers, hnames⟩ := EntityType.ofBody_spec hbody
  obtain ⟨hset, hkey⟩ := Service.patchOf_spec hpatch hmembers hnames
  have hkept : ∀ r : Record, (r.insertAll patch).get? e.key = r.get? e.key :=
    fun r => Record.get?_insertAll_of_not_mem hkey
  refine ⟨hs.key, hs.keyType, ?_, ?_, ?_⟩
  · intro r' hr' m hm
    rcases mem_changeFirst hr' with hr' | ⟨r₀, hr₀, rfl⟩
    · exact hs.members r' hr' m hm
    · exact (Record.mem_insertAll hm).elim (hs.members r₀ hr₀ m) (hset m)
  · intro r' hr'
    rcases mem_changeFirst hr' with hr' | ⟨r₀, hr₀, rfl⟩
    · exact hs.keyed r' hr'
    · rw [hkept r₀]
      exact hs.keyed r₀ hr₀
  · have hkeyOf : ∀ r : Record, s.keyOf (r.insertAll patch) = s.keyOf r := by
      intro r
      rw [keyOf, keyOf, Record.valueOf, Record.valueOf, hs.key, hkept r]
    show ((changeFirst _ _ s.records).map s.keyOf).Pairwise fun a b => a.order? b ≠ some .eq
    rw [map_changeFirst hkeyOf]
    exact hs.distinct

/-- Removing a record keeps what a store holds. -/
theorem Holds.remove {key : Json} (h : s.remove key = .ok s') : s'.Holds e := by
  obtain rfl := remove_spec h
  have hsub : (s.records.eraseP (s.hasKey key)).Sublist s.records := List.eraseP_sublist
  refine ⟨hs.key, hs.keyType, ?_, ?_, ?_⟩
  · exact fun r hr => hs.members r (hsub.subset hr)
  · exact fun r hr => hs.keyed r (hsub.subset hr)
  · exact hs.distinct.sublist (hsub.map s.keyOf)

/-- A store that holds entities of a type holds such entities after every step. -/
theorem Holds.step (hsound : e.Sound) (hkeyField : e.HasKeyField) (h : s.Step e s') :
    s'.Holds e := by
  cases h with
  | add hbody h => exact hs.add hsound hkeyField hbody h
  | update hbody hpatch h => exact hs.update hbody hpatch h
  | remove h => exact hs.remove h

end

end Store

/-- The library at work, with some records in its stores. -/
def Library.service (records : String → List Record) : Service where
  schema := schema
  site := { base := "http://localhost", path := "/odata" }
  stores := schema.fill records
  handlers := fun _ _ => .error []

/-! ## An archive

A schema with one collection, whose fields are left open. -/

namespace Archive

variable (fields : List Field)

/-- Maps with some fields, found by `Id`. -/
def maps : Collection where
  name := "Maps"
  entity := { name := "Map", key := "Id", fields := fields }

/-- The schema of the maps. -/
def schema : Schema where
  nameSpace := "Archive"
  entities := [(maps fields).entity]
  collections := [maps fields]

/-- The declarations of the maps. -/
def draft : Draft where
  nameSpace := "Archive"
  entities := [(maps fields).entity.declaration]
  collections := [("Maps", "Map")]

/-- The maps at work, with some records. -/
def service (records : List Record) : Service where
  schema := schema fields
  site := { base := "http://test", path := "/odata" }
  stores := (schema fields).fill fun _ => records
  handlers := fun _ _ => .error []

end Archive

end ODataEngine
