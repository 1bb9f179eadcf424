import ODataEngine.Proofs.BodyTheorems
import ODataEngine.Proofs.LocationTheorems

/-!
# Keys that bodies give

A body gives its entity a key under the name of the key in any case. The record of the body keeps the
value under the spelling of the field, and a store looks under the spelling of the key. Where the two
are spelled alike the entity has the key that its body gives; where they are not, the value stays in
the field, and the store makes a key of its own (`Service.creates_keyed`).
-/

namespace ODataEngine

/-- A boolean, a number or a text. -/
def Json.isScalar : Json → Bool
  | .bool _ | .number _ | .string _ => true
  | _ => false

theorem Json.isNull_of_isScalar {v : Json} (h : v.isScalar = true) : v.isNull = false := by
  cases v with
  | null => cases h
  | _ => rfl

theorem Json.sameKey_self {v : Json} (h : v.isScalar = true) : v.sameKey v = true := by
  cases v with
  | null | array | object => cases h
  | bool b => cases b <;> rfl
  | number n => exact beq_iff_eq.2 (congrArg some n.order_self)
  | string s => exact beq_iff_eq.2 (congrArg some Std.ReflCmp.compare_self)

namespace Store

theorem isScalar_of_nextKey {s : Store} {fresh : String} {key : Json}
    (h : s.nextKey fresh = .ok key) : key.isScalar = true := by
  unfold nextKey at h
  split at h
  · split at h <;> cases h
    rfl
  · split at h <;> cases h
    rfl

/-- The record at the end is found by its key if no record before it has that. -/
theorem lookup?_concat {e : EntityType} {records : List Record} {key : Json} {r : Record}
    (hfree : (Store.new e records).lookup? key = none) (hkey : r.valueOf e.key = key)
    (hself : key.sameKey key = true) : (Store.new e (records ++ [r])).lookup? key = some r :=
  lookup?_eq_some_iff.2 ⟨records, [], rfl, lookup?_eq_none_iff.1 hfree, by rw [hkey, hself]⟩

end Store

namespace Service

variable {sv : Service} {c : Collection} {records : List Record} {key : Json}

/-! ## Adding under a key -/

/-- A record stands at the end of the store of a collection and is found there by its key, which is
also the one in its address. -/
structure AddedUnder (sv : Service) (c : Collection) (records : List Record) (key : Json)
    (stored : Record) (o : Outcome) : Prop where
  stores : o.2 = sv.stores.put c.name (.new c.entity (records ++ [stored]))
  store : o.2.store? c.name = some (.new c.entity (records ++ [stored]))
  keyOf : (Store.new c.entity (records ++ [stored])).keyOf stored = key
  get : (Store.new c.entity (records ++ [stored])).get key [] = .ok (some stored)
  address : sv.site.entityUrl c.name c.entity stored =
    s!"{sv.site.root}/{c.name}({c.entity.keyType.keyLiteral key})"

/-- A creation under a key: it is a conflict and changes nothing where a record has the key already,
and else the record of the body is added under it. -/
def CreatesUnder (sv : Service) (c : Collection) (records : List Record) (r : Record) (key : Json)
    (o : Outcome) : Prop :=
  if ((Store.new c.entity records).lookup? key).isSome then
    o = (.error (.storage "add" c.name none (.conflict key.render)), sv.stores)
  else sv.AddedUnder c records key (r.insert c.entity.key key) o

/-- A creation goes by the key that the store adds the record of the body under. -/
theorem createsUnder_keyFor (hs : sv.stores.store? c.name = some (.new c.entity records))
    {body : Option Json} {r : Record} (hbody : c.entity.ofBody body = .ok r) {fresh : String}
    (hkey : (Store.new c.entity records).keyFor fresh r = .ok key) (hscalar : key.isScalar = true)
    (q : Query) : sv.CreatesUnder c records r key (sv.create fresh c q body) := by
  unfold CreatesUnder create
  rw [hbody, attempt_ok, storeOf_eq_ok hs, attempt_ok, Store.add_eq,
    Store.guarded_of_not_refused rfl, hkey, ok_bind]
  split
  · rfl
  · next hfree =>
    rw [Option.not_isSome_iff_eq_none] at hfree
    have hvalue : (r.insert c.entity.key key).valueOf c.entity.key = key :=
      Record.valueOf_of_get? (Record.get?_insert_self r c.entity.key key)
    have hlookup := Store.lookup?_concat hfree hvalue (Json.sameKey_self hscalar)
    refine ⟨rfl, Stores.store?_put_self hs _, hvalue, ?_, ?_⟩
    · rw [Store.get, Store.guarded_of_not_refused rfl, hlookup]
      rfl
    · rw [Site.entityUrl, hvalue]

/-- A creation for which there is no key changes nothing. -/
theorem create_eq_error_of_keyFor (hs : sv.stores.store? c.name = some (.new c.entity records))
    {body : Option Json} {r : Record} (hbody : c.entity.ofBody body = .ok r) {fresh : String}
    {cause : StoreError} (hkey : (Store.new c.entity records).keyFor fresh r = .error cause)
    (q : Query) :
    sv.create fresh c q body = (.error (.storage "add" c.name none cause), sv.stores) := by
  unfold create
  rw [hbody, attempt_ok, storeOf_eq_ok hs, attempt_ok, Store.add_eq,
    Store.guarded_of_not_refused rfl, hkey]
  rfl

/-- Where the key is spelled like a field, a creation goes by the key that its body gives. Where it is
not, the value stays in the field, and the creation goes by the next key of the store, or fails where
the store makes none. -/
theorem creates_keyed {d : Draft} (hbuild : d.build = .ok sv.schema)
    (hc : c ∈ sv.schema.collections)
    (hs : sv.stores.store? c.name = some (.new c.entity records)) {members r : Record}
    (hbody : c.entity.ofBody (some (.object members)) = .ok r) {v : Json}
    (hgiven : members.given? c.entity.key = some v) (hscalar : v.isScalar = true)
    (fresh : String) (q : Query) :
    (c.entity.key ∈ c.entity.fieldNames →
        sv.CreatesUnder c records r v (sv.create fresh c q (some (.object members)))) ∧
      (c.entity.key ∉ c.entity.fieldNames →
        (∃ f ∈ c.entity.fields, Text.sameName f.name c.entity.key = true ∧
          r.get? f.name = some v ∧ r.get? c.entity.key = none) ∧
        match (Store.new c.entity records).nextKey fresh with
        | .ok key => sv.CreatesUnder c records r key (sv.create fresh c q (some (.object members)))
        | .error cause => sv.create fresh c q (some (.object members)) =
            (.error (.storage "add" c.name none cause), sv.stores)) := by
  have hsound := Schema.sound_of_build hbuild
  have hentity := hsound.entities c.entity (hsound.collections c hc).2
  refine ⟨fun hspelled => ?_, fun hother => ?_⟩
  · have hget : r.get? c.entity.key = some v := by
      rw [hentity.get?_ofBody hbody, if_pos hspelled, hgiven]
    refine createsUnder_keyFor hs hbody ?_ hscalar q
    have hkey : (Store.new c.entity records).keyOf r = v := Record.valueOf_of_get? hget
    rw [Store.keyFor_of_not_isNull (hkey ▸ Json.isNull_of_isScalar hscalar), hkey]
  · have hnone : r.get? c.entity.key = none := by
      rw [hentity.get?_ofBody hbody, if_neg hother]
    obtain ⟨f, hfield⟩ := Option.isSome_iff_exists.1 hentity.key
    obtain ⟨hf, hsame⟩ := EntityType.mem_of_field? hfield
    have hkey : (Store.new c.entity records).keyFor fresh r =
        (Store.new c.entity records).nextKey fresh := by
      refine Store.keyFor_of_isNull ?_ fresh
      show (r.valueOf c.entity.key).isNull = true
      rw [Record.valueOf, hnone]
      rfl
    refine ⟨⟨f, hf, hsame, ?_, hnone⟩, ?_⟩
    · have hdeclared : f.name ∈ c.entity.fieldNames := List.mem_map_of_mem hf
      rw [hentity.get?_ofBody hbody, if_pos hdeclared, Record.given?_eq_of_sameName hsame, hgiven]
    · split
      · next key hnext =>
        exact createsUnder_keyFor hs hbody (hkey.trans hnext) (Store.isScalar_of_nextKey hnext) q
      · next cause hnext => exact create_eq_error_of_keyFor hs hbody (hkey.trans hnext) q

end Service

namespace Archive

/-- The field of the key in another case than the key, and a name. -/
def lowerKey : List Field := [⟨"id", .int32, false⟩, ⟨"Name", .string, false⟩]

/-- A map with a key. -/
def alps : Record := [("id", .ofInt 7), ("Name", .string "Alps")]

/-- The map is added, under another key than its body gives. -/
theorem alps_added_under_other_key :
    (draft lowerKey).build = .ok (schema lowerKey) ∧
      maps lowerKey ∈ (schema lowerKey).collections ∧
      (service lowerKey []).stores.store? "Maps" = some (.new (maps lowerKey).entity []) ∧
      (maps lowerKey).entity.ofBody (some (.object alps)) = .ok alps ∧
      alps.given? (maps lowerKey).entity.key = some (.ofInt 7) ∧
      ((service lowerKey []).create "" (maps lowerKey) {} (some (.object alps))).2.store? "Maps" =
        some (.new (maps lowerKey).entity [alps.insert "Id" (.ofInt 1)]) ∧
      (Store.new (maps lowerKey).entity [alps.insert "Id" (.ofInt 1)]).get (.ofInt 7) [] =
        .ok none :=
  ⟨rfl, List.mem_singleton_self _, rfl, rfl, rfl, rfl, rfl⟩

end Archive

namespace Library

/-- An author whose key is written twice, in other case than it is declared. -/
def twiceKeyed : Record := [("ID", .ofInt 5), ("@note", .null), ("id", .ofInt 7)]

/-- The author is added under the key written last. -/
theorem twiceKeyed_added :
    draft.build = .ok schema ∧ authors.entity.ofBody (some (.object twiceKeyed)) =
        .ok [("Id", .ofInt 7)] ∧
      (service fun _ => []).AddedUnder authors [] (.ofInt 7) [("Id", .ofInt 7)]
        ((service fun _ => []).create "" authors {} (some (.object twiceKeyed))) := by
  have hbody : authors.entity.ofBody (some (.object twiceKeyed)) = .ok [("Id", .ofInt 7)] := rfl
  refine ⟨build_draft, hbody, ?_⟩
  have hcreates := (@Service.creates_keyed (service fun _ => []) authors [] draft build_draft
    List.mem_cons_self rfl twiceKeyed _ hbody (.ofInt 7) rfl rfl "" {}).1 (by decide)
  exact hcreates

end Library

end ODataEngine
