import ODataEngine.Proofs.BodyTheorems
import ODataEngine.Proofs.EntityViewTheorems
import ODataEngine.Proofs.FailureTheorems

/-!
# Replacing and changing entities

`PUT` and `PATCH` set members of the one record that the path addresses, in its place; every other
record, every other store and the key stay as they are, and asking again changes nothing more
(`Service.answer_rewrite`). What is set on a field is what the body gives to it, and where it gives
nothing a replacement sets null (`EntityType.Rewrites`).
-/

namespace ODataEngine

/-! ## Stores -/

/-- Putting a store where it is already changes nothing. -/
theorem Stores.put_eq_self {stores : Stores} {name : String} {s : Store}
    (h : stores.store? name = some s) : stores.put name s = stores := by
  induction stores with
  | nil => rfl
  | cons entry rest ih =>
    obtain ⟨n, t⟩ := entry
    unfold put
    by_cases hn : n = name
    · rw [if_pos hn]
      rw [store?, hn, List.lookup_cons_self] at h
      rw [Option.some.inj h]
    · rw [store?, List.lookup_cons, beq_eq_false_iff_ne.2 (Ne.symm hn)] at h
      rw [if_neg hn, ih h]

namespace Store

variable {e : EntityType} {before after : List Record} {old : Record} {key : Json}
  {patch : Record}

/-- Setting members of the addressed record, the key not among them. -/
theorem update_eq_ok (h : Addresses e key before old) (hpatch : patch.get? e.key = none)
    (after : List Record) :
    (Store.new e (before ++ old :: after)).update key patch =
      .ok (old.insertAll patch, .new e (before ++ old.insertAll patch :: after)) := by
  have hlookup := lookup?_eq_some_iff.2 ⟨before, after, rfl, h⟩
  have hkept : (patch.get? e.key).any (fun new => !new.sameKey key) = false := by
    rw [hpatch]
    rfl
  rw [update, guarded_of_not_refused rfl, hlookup]
  show (if (patch.get? e.key).any (fun new => !new.sameKey key) then _ else _) = _
  rw [hkept, if_neg Bool.false_ne_true]
  have hchange : changeFirst ((Store.new e (before ++ old :: after)).hasKey key)
      (·.insertAll patch) (before ++ old :: after) = before ++ old.insertAll patch :: after :=
    changeFirst_append h.missed h.hit _ after
  exact congrArg (fun records => Except.ok (_, Store.new e records)) hchange

/-- A key that no record has addresses none to set members of. -/
theorem exists_of_update {records : List Record} {result : Record × Store}
    (h : (Store.new e records).update key patch = .ok result) :
    ∃ before old after, records = before ++ old :: after ∧ Addresses e key before old := by
  obtain ⟨-, h⟩ := guarded_eq_ok_iff.1 h
  split at h
  · cases h
  · next old hold =>
    obtain ⟨before, after, hrecords, haddresses⟩ := lookup?_eq_some_iff.1 hold
    exact ⟨before, old, after, hrecords, haddresses⟩

end Store

/-! ## Records -/

/-- The members of a body rewrite a record: each declared field but the key has what the body gives
to it, and where that is nothing null, if the record is replaced, or else its old value. The key and
members that are not declared stay as they are. -/
structure EntityType.Rewrites (e : EntityType) (members : Record)
    (replacement : Service.Replacement) (old new : Record) : Prop where
  key : new.get? e.key = old.get? e.key
  given : ∀ name ∈ e.fieldNames, name ≠ e.key → ∀ v, members.given? name = some v →
    new.get? name = some v
  missing : ∀ name ∈ e.fieldNames, name ≠ e.key → members.given? name = none →
    new.get? name = match replacement with
      | .whole => some .null
      | .given => old.get? name
  undeclared : ∀ name ∉ e.fieldNames, new.get? name = old.get? name

namespace Service

variable {sv : Service} {c : Collection} {e : EntityType} {members r patch old : Record}
  {replacement : Replacement} {key : Json} {display : String}

theorem rewrites_insertAll (hsound : e.Sound) (hbody : e.ofBody (some (.object members)) = .ok r)
    (hpatch : patchOf e key display replacement r = .ok patch) :
    e.Rewrites members replacement old (old.insertAll patch) := by
  obtain ⟨hnodup, hget⟩ := get?_patchOf hpatch (EntityType.ofBody_spec hbody).2
  constructor
  · rw [Record.get?_insertAll_of_nodup old hnodup, hget, if_pos rfl, Option.none_or]
  · intro name hdeclared hkey v hgiven
    rw [Record.get?_insertAll_of_nodup old hnodup, hget, if_neg hkey, hsound.get?_ofBody hbody,
      if_pos hdeclared, hgiven, Option.some_or, Option.some_or]
  · intro name hdeclared hkey hmissing
    rw [Record.get?_insertAll_of_nodup old hnodup, hget, if_neg hkey, hsound.get?_ofBody hbody,
      if_pos hdeclared, hmissing, Option.none_or, if_pos hdeclared]
    cases replacement with
    | whole => rfl
    | given => rfl
  · intro name hundeclared
    rw [Record.get?_insertAll_of_nodup old hnodup, hget, hsound.get?_ofBody hbody,
      if_neg hundeclared, if_neg hundeclared, Option.none_or, ite_self, Option.none_or]

/-! ## Requests -/

section Write

variable {before after : List Record} {body : Option Json}
  (hbody : c.entity.ofBody body = .ok r)
  (hpatch : patchOf c.entity key display replacement r = .ok patch)

include hbody hpatch

theorem write_eq_ok
    (hs : sv.stores.store? c.name = some (.new c.entity (before ++ old :: after)))
    (h : Store.Addresses c.entity key before old) :
    sv.write c key display body replacement = (.ok .noContent, sv.stores.put c.name
      (.new c.entity (before ++ old.insertAll patch :: after))) := by
  have hkey : patch.get? c.entity.key = none := by
    rw [(get?_patchOf hpatch (EntityType.ofBody_spec hbody).2).2, if_pos rfl]
  rw [write, hbody, attempt_ok, hpatch, attempt_ok, storeOf_eq_ok hs, attempt_ok,
    Store.update_eq_ok h hkey]
  rfl

/-- Writing once more changes nothing more. -/
theorem write_again
    (hs : sv.stores.store? c.name = some (.new c.entity (before ++ old.insertAll patch :: after)))
    (h : Store.Addresses c.entity key before old) :
    sv.write c key display body replacement = (.ok .noContent, sv.stores) := by
  obtain ⟨hnodup, hget⟩ := get?_patchOf hpatch (EntityType.ofBody_spec hbody).2
  have hkey : (old.insertAll patch).valueOf c.entity.key = old.valueOf c.entity.key := by
    rw [Record.valueOf, Record.valueOf, Record.get?_insertAll_of_nodup old hnodup, hget,
      if_pos rfl, Option.none_or]
  have hagain : Store.Addresses c.entity key before (old.insertAll patch) :=
    ⟨h.missed, hkey ▸ h.hit⟩
  rw [write_eq_ok hbody hpatch hs hagain, Record.insertAll_insertAll hnodup,
    Stores.put_eq_self hs]

end Write

/-- A record of the store of a collection is rewritten in its place, and all else stays. -/
structure Rewrote (sv : Service) (c : Collection) (key : Json) (members : Record)
    (replacement : Replacement) (stores : Stores) : Prop where
  record : ∃ before old new after,
    sv.stores.store? c.name = some (.new c.entity (before ++ old :: after)) ∧
    stores.store? c.name = some (.new c.entity (before ++ new :: after)) ∧
    Store.Addresses c.entity key before old ∧ c.entity.Rewrites members replacement old new
  others : ∀ name ≠ c.name, stores.store? name = sv.stores.store? name

/-- Writing to an entity that succeeds rewrites the addressed record, and would do so again. -/
theorem rewrote_of_write (hsound : c.entity.Sound) {records : List Record}
    (hs : sv.stores.store? c.name = some (.new c.entity records)) {body : Option Json}
    {response : Response} {stores : Stores}
    (h : sv.write c key display body replacement = (.ok response, stores)) :
    ∃ members, body = some (.object members) ∧ sv.Rewrote c key members replacement stores ∧
      { sv with stores := stores }.write c key display body replacement
        = (.ok response, stores) := by
  have hwrite := h
  obtain ⟨r, hbody, h⟩ := attempt_eq_ok h
  obtain ⟨patch, hpatch, h⟩ := attempt_eq_ok h
  obtain ⟨s, hstore, h⟩ := attempt_eq_ok h
  obtain rfl := Option.some.inj (hs.symm.trans (store?_of_storeOf hstore))
  obtain ⟨result, hupdate, -⟩ := attempt_eq_ok h
  obtain ⟨before, old, after, rfl, haddresses⟩ :=
    Store.exists_of_update (eq_ok_of_atEntity hupdate)
  obtain ⟨members, rfl, -⟩ := EntityType.exists_of_ofBody hbody
  rw [write_eq_ok hbody hpatch hs haddresses] at hwrite
  cases hwrite
  have hput := Stores.store?_put_self hs (.new c.entity (before ++ old.insertAll patch :: after))
  refine ⟨members, rfl, ⟨⟨before, old, _, after, hs, hput, haddresses,
    rewrites_insertAll hsound hbody hpatch⟩, ?_⟩, ?_⟩
  · exact fun name hname => Stores.store?_put_of_ne sv.stores hname _
  · exact write_again hbody hpatch hput haddresses

/-- The method of requests for a replacement. -/
def Replacement.method : Replacement → String
  | .whole => "PUT"
  | .given => "PATCH"

/-- The endpoint of a replacement. -/
def Replacement.endpoint : Replacement → Endpoint
  | .whole => .replace
  | .given => .patch

theorem eq_endpoint_of_method {endpoint : Endpoint}
    (h : endpoint.method = replacement.method) : endpoint = replacement.endpoint := by
  cases endpoint with
  | invoke op =>
    have hkind : op.kind.method = replacement.method := h
    cases hop : op.kind <;> cases replacement <;> rw [hop] at hkind <;>
      exact absurd hkind (by decide)
  | _ => cases replacement <;> first | rfl | exact absurd h (by decide)

theorem answerAt_endpoint (sv : Service) (fresh : String) (a : Address) (c : Collection)
    (q : Query) (body : Option Json) (replacement : Replacement) :
    sv.answerAt fresh a replacement.endpoint c q body =
      sv.attempt (sv.keyAt a) fun key => sv.write c key a.keyDisplay body replacement := by
  cases replacement <;> rfl

theorem Replacement.isDescription_endpoint (replacement : Replacement) :
    replacement.endpoint.isDescription = false := by
  cases replacement <;> rfl

theorem Replacement.endpoint_ne_create (replacement : Replacement) :
    replacement.endpoint ≠ .create := by
  cases replacement <;> exact nofun

theorem Replacement.endpoint_ne_invoke (replacement : Replacement) (op : Operation) :
    replacement.endpoint ≠ .invoke op := by
  cases replacement <;> exact nofun

/-- In a service with a built schema and stores in memory, a request to replace or change an entity
that fails leaves every store as it was. One that succeeds rewrites the record that its path
addresses, and the same request again succeeds and changes nothing. -/
theorem answer_rewrite {d : Draft} (hbuild : d.build = .ok sv.schema)
    (hstores : sv.HasMemoryStores) {request : Request}
    (hmethod : request.method = replacement.method) (fresh : String) :
    (∀ e stores, sv.answer fresh request = (.error e, stores) → stores = sv.stores) ∧
      ∀ response stores, sv.answer fresh request = (.ok response, stores) →
        ∃ c ∈ sv.schema.collections, ∃ key members,
          (Route.resolve sv.schema sv.site request.method request.path).address.collection
            = some c ∧
          (Route.resolve sv.schema sv.site request.method request.path).address.key = some key ∧
          request.body = some (.object members) ∧
          sv.Rewrote c key members replacement stores ∧
          ∀ fresh', { sv with stores := stores }.answer fresh' request
            = (.ok response, stores) := by
  have hsound := Schema.sound_of_build hbuild
  have hmethods {endpoint : Endpoint}
      (hfound : (Route.resolve sv.schema sv.site request.method request.path).endpoint
        = .ok (some endpoint)) : endpoint = replacement.endpoint :=
    eq_endpoint_of_method ((Route.method_resolve hfound).trans hmethod)
  constructor
  · intro e stores h
    rcases answer_cases sv fresh request with
      ⟨result, hresult⟩ | ⟨a, endpoint, hfound, c, hc, hserves, q, hq, hanswer⟩
    · exact (congrArg Prod.snd ((hresult sv.stores).symm.trans h)).symm
    · obtain rfl := hmethods (congrArg Route.Resolution.endpoint hfound)
      have hkept := kept_answerAt sv fresh a replacement.endpoint_ne_invoke
        replacement.endpoint_ne_create c q request.body e
      rw [← hanswer, h] at hkept
      exact hkept rfl
  · intro response stores h
    rcases answer_ok_cases h with
      ⟨endpoint, document, hfound, hdescription, -⟩ |
        ⟨a, endpoint, hfound, c, hc, hserves, q, hq, hanswer⟩
    · rw [hmethods hfound, description?_eq_none_iff.2 replacement.isDescription_endpoint]
        at hdescription
      cases hdescription
    · obtain rfl := hmethods (congrArg Route.Resolution.endpoint hfound)
      rw [answerAt_endpoint] at hanswer
      obtain ⟨key, hkey, hwrite⟩ := attempt_eq_ok hanswer
      obtain ⟨records, hs⟩ := hstores c hc
      have hentity := hsound.entities c.entity (hsound.collections c hc).2
      obtain ⟨members, hmembers, hrewrote, hagain⟩ := rewrote_of_write hentity hs hwrite
      refine ⟨c, hc, key, members, ?_, ?_, hmembers, hrewrote, fun fresh' => ?_⟩
      · rw [hfound]
        exact hserves.collection
      · rw [hfound]
        exact key_of_keyAt hkey
      · -- the route and the query do not depend on the stores
        have hasked := @answer_eq_answerAt { sv with stores := stores } request a
          replacement.endpoint c q hfound hserves hq fresh'
        have hkey' : { sv with stores := stores }.keyAt a = .ok key := hkey
        rw [hasked, answerAt_endpoint, hkey', attempt_ok, hagain]

end Service

namespace Library

/-- Three authors. -/
def threeAuthors : List Record := [
  [("Id", .ofInt 3), ("Name", .string "Ann")],
  [("Id", .ofInt 7), ("Name", .string "Bob"), ("Favourites", .array [.ofInt 1])],
  [("Id", .ofInt 9), ("Name", .string "Cid")]]

/-- The library with the three authors. -/
def withAuthors : Service :=
  service fun name => if name = "Authors" then threeAuthors else []

/-- An author is replaced; the name is written twice, and the favourites are left out. -/
def replaceBob : Request where
  method := "PUT"
  path := "/odata/Authors(7)"
  body := some (.object [("NAME", .string "Rob"), ("id", .ofInt 7), ("@note", .null),
    ("name", .string "Bo")])

/-- The stores with the author replaced. -/
def withBo : Stores := withAuthors.stores.put "Authors" (Store.new authors.entity [
  [("Id", .ofInt 3), ("Name", .string "Ann")],
  [("Id", .ofInt 7), ("Name", .string "Bo"), ("Favourites", .null)],
  [("Id", .ofInt 9), ("Name", .string "Cid")]])

/-- The author is replaced in place, and once more without effect. -/
theorem replaceBob_rewrote :
    draft.build = .ok withAuthors.schema ∧ withAuthors.HasMemoryStores ∧
      replaceBob.method = Service.Replacement.whole.method ∧
      withAuthors.answer "" replaceBob = (.ok .noContent, withBo) ∧
      { withAuthors with stores := withBo }.answer "" replaceBob = (.ok .noContent, withBo) ∧
      ∃ c ∈ withAuthors.schema.collections, ∃ key members,
        replaceBob.body = some (.object members) ∧
        withAuthors.Rewrote c key members .whole withBo := by
  have hstores : withAuthors.HasMemoryStores := hasMemoryStores
  have hanswer : withAuthors.answer "" replaceBob = (.ok .noContent, withBo) := by
    with_unfolding_all rfl
  obtain ⟨c, hc, key, members, -, -, hbody, hrewrote, hagain⟩ :=
    (@Service.answer_rewrite withAuthors .whole draft build_draft hstores replaceBob rfl "").2 _ _
      hanswer
  exact ⟨build_draft, hstores, rfl, hanswer, hagain "", c, hc, key, members, hbody, hrewrote⟩

end Library

namespace Archive

/-- A key and a field that is named like an annotation. -/
def noted : List Field := [⟨"Id", .int32, false⟩, ⟨"@odata.note", .string, false⟩]

/-- A map with the field. -/
def notedMap : Record := [("Id", .ofInt 1), ("@odata.note", .string "a")]

/-- The field of the map is changed. -/
def changeNote : Request where
  method := "PATCH"
  path := "/odata/Maps(1)"
  body := some (.object [("@odata.note", .string "b")])

/-- The request succeeds, and the field keeps its old value. -/
theorem changeNote_changes_nothing :
    (draft noted).build = .ok (schema noted) ∧ (∀ e ∈ (schema noted).entities, e.HasKeyField) ∧
      (service noted [notedMap]).stores.store? "Maps" =
        some (.new (maps noted).entity [notedMap]) ∧
      "@odata.note" ∈ (maps noted).entity.fieldNames ∧
      (service noted [notedMap]).answer "" changeNote =
        (.ok .noContent, (service noted [notedMap]).stores) := by
  refine ⟨rfl, ?_, rfl, by decide, by with_unfolding_all rfl⟩
  unfold EntityType.HasKeyField
  decide

end Archive

end ODataEngine
