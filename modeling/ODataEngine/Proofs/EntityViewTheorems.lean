import ODataEngine.Proofs.AnswerTheorems
import ODataEngine.Proofs.ShownTheorems

/-!
# One entity in a list, on its own and when it is created

Three requests show an entity: the list of its collection, the request for its key, and the request
that creates it. All three show one document (`listed_and_created_as_got`). Only the member for the
context is put into it, and where an entity type declares a member of that name it is not told
apart from the one of the entity (`Ledger.listed_with_context`).
-/

namespace ODataEngine

/-! ## Keys -/

/-- Each record has a plain key, and no two have the same. -/
structure EntityType.KeysApart (e : EntityType) (records : List Record) : Prop where
  plain : ∀ r ∈ records, (r.valueOf e.key).isPlainKey = true
  distinct : (records.map (·.valueOf e.key)).Nodup

/-- Where keys are apart, the key of a record finds it. -/
theorem EntityType.KeysApart.lookup?_eq_some {e : EntityType} {records : List Record}
    (h : e.KeysApart records) {r : Record} (hr : r ∈ records) :
    (Store.new e records).lookup? (r.valueOf e.key) = some r := by
  refine find?_eq_some_of_unique hr ((Json.sameKey_iff (h.plain r hr) (h.plain r hr)).2 rfl) ?_
  intro r' hr' hsame
  have hkey := (Json.sameKey_iff (h.plain r' hr') (h.plain r hr)).1 hsame
  exact List.inj_on_of_nodup_map h.distinct hr' hr hkey

/-- Records that are numbered have their keys apart. -/
theorem EntityType.KeysApart.of_numbers {e : EntityType} {records : List Record}
    (numbers : List Int) (h : records.map (·.valueOf e.key) = numbers.map .ofInt)
    (hdistinct : numbers.Nodup) (hsmall : ∀ n ∈ numbers, n < Nat.pow 2 63) : e.KeysApart records := by
  constructor
  · intro r hr
    have hkey : r.valueOf e.key ∈ numbers.map Json.ofInt := h ▸ List.mem_map_of_mem hr
    obtain ⟨n, hn, hkey⟩ := List.mem_map.1 hkey
    show (r.valueOf e.key).isPlainKey = true
    rw [← hkey]
    show (if n < Nat.pow 2 63 then some n else none).isSome = true
    rw [if_pos (hsmall n hn)]
    rfl
  · have hinjective : Function.Injective Json.ofInt := by
      intro n m hsame
      cases hsame
      rfl
    rw [h]
    exact List.pairwise_map.2 (hdistinct.imp fun hne hsame => hne (hinjective hsame))

namespace Service

variable {sv : Service} {c : Collection} {q : Query} {r : Record}

/-- Every collection has a store in memory that was made for its entities. -/
def HasMemoryStores (sv : Service) : Prop :=
  ∀ c ∈ sv.schema.collections,
    ∃ records, sv.stores.store? c.name = some (Store.new c.entity records)

/-- The names in a document are declared, but for the one of the address. -/
theorem mem_names_entity (hentity : c.entity.Sound) {document : Record}
    (h : sv.entity c q r = .ok document) : document.names.Nodup ∧
      ∀ name ∈ document.names, name = addressMember ∨ c.entity.declares name = true := by
  rw [entity_eq] at h
  obtain ⟨items, -, h⟩ := bind_eq_ok_iff.1 h
  obtain ⟨found, hfound, h⟩ := bind_eq_ok_iff.1 h
  obtain ⟨added, hadded, h⟩ := bind_eq_ok_iff.1 h
  obtain ⟨-, hadds⟩ := filterMap_added hfound hadded
  cases h
  constructor
  · refine Record.nodup_names_insertAll (Record.nodup_names_insertAll ?_ _) _
    exact List.pairwise_singleton _ _
  · intro name hname
    obtain ⟨m, hm, rfl⟩ := List.mem_map.1 hname
    rcases Record.mem_insertAll hm with hm | hm
    · rcases Record.mem_insertAll hm with hm | hm
      · rw [List.mem_singleton.1 hm]
        exact .inl rfl
      · rw [shown_eq_selected] at hm
        obtain ⟨f, hf, hsame⟩ := exists_field_of_selected hm
        have hfield : (c.entity.field? m.1).isSome = true := by
          rw [hentity.field?_eq_some hf hsame]
          rfl
        exact .inr (Bool.or_eq_true_iff.2 (.inl hfield))
    · rw [hadds] at hm
      obtain ⟨item, -, hitem⟩ := List.mem_filterMap.1 hm
      obtain ⟨n, hn, hname⟩ := (name_of_added hentity hitem).1
      have hnavigation : (c.entity.navigation? m.1).isSome = true := by
        rw [hentity.navigation?_eq_some hn (hname ▸ Text.sameName_refl n.name)]
        rfl
      exact .inr (Bool.or_eq_true_iff.2 (.inr hnavigation))

/-- Of a query the document of an entity depends on what it selects and what it expands. -/
theorem entity_congr {q' : Query} (hselect : q'.select = q.select)
    (hexpand : q'.expand = q.expand) : sv.entity c q' r = sv.entity c q r := by
  have hshown : shown c.entity q' r = shown c.entity q r := by rw [shown, shown, hselect]
  have hitem (f : Navigation × ExpandItem) : expand sv c q' r sv.entity f.1 f.2 =
      expand sv c q r sv.entity f.1 f.2 := by
    unfold expand Query.selects
    rw [hselect]
  rw [entity_eq, entity_eq, hexpand, hshown]
  simp only [hitem]

/-- The entity of a key is shown as its record is. -/
theorem get_eq_ok {records : List Record} {key : Json}
    (hs : sv.stores.store? c.name = some (Store.new c.entity records))
    (hr : (Store.new c.entity records).lookup? key = some r) {document : Record}
    (hdocument : sv.entity c q r = .ok document) (display : String) :
    sv.get c key display q = .ok { payload := .json (sv.entityBody c document) } := by
  have hfetch : sv.fetch c key display = .ok r := by
    unfold fetch
    rw [storeOf_eq_ok hs, ok_bind, Store.get, Store.guarded_of_not_refused rfl, hr]
    rfl
  rw [get, hfetch, ok_bind, hdocument]
  rfl

/-- The body of a single entity is its document with the context put into it. -/
theorem entityBody_without (hentity : c.entity.Sound) {document : Record}
    (hdocument : sv.entity c q r = .ok document) :
    ∃ body : Record, sv.entityBody c document = .object body ∧
      body.without contextMember = document.without contextMember ∧
      (c.entity.declares contextMember = false → body.without contextMember = document) := by
  obtain ⟨hnodup, hnames⟩ := mem_names_entity hentity hdocument
  have hsame := Record.without_insertAll_singleton hnodup contextMember
  refine ⟨_, rfl, hsame _, fun hdeclares => (hsame _).trans (Record.without_eq_self fun hmem => ?_)⟩
  rcases hnames contextMember hmem with haddress | hdeclared
  · exact absurd haddress (by decide)
  · rw [hdeclares] at hdeclared
    cases hdeclared

/-- The response to a list is made of what the store counts and finds. -/
theorem list_of_find {s : Store} (hs : sv.stores.store? c.name = some s) {n : ℕ}
    (hcount : s.count q.filter = .ok n) {rows objects : List Record}
    (hfind : s.find { q with select := [] } = .ok rows)
    (hobjects : rows.mapM (sv.entity c q) = .ok objects) :
    sv.list c q = .ok { payload := .json (.object [
      ("@odata.context", .string s!"{sv.site.metadataUrl}#{c.name}"),
      ("@odata.count", .ofNat n), ("value", .array (objects.map .object))]) } := by
  unfold list
  rw [storeOf_eq_ok hs, ok_bind, hcount, hfind]
  simp only [StoreError.during_ok, ok_bind, hobjects]
  rfl

/-- A list that is answered shows the documents of the records that the store finds. -/
theorem list_eq_ok {s : Store} (hs : sv.stores.store? c.name = some s) {response : Response}
    (h : sv.list c q = .ok response) :
    ∃ n rows objects, s.count q.filter = .ok n ∧ s.find { q with select := [] } = .ok rows ∧
      rows.mapM (sv.entity c q) = .ok objects := by
  unfold list at h
  rw [storeOf_eq_ok hs, ok_bind] at h
  obtain ⟨n, hcount, h⟩ := bind_eq_ok_iff.1 h
  obtain ⟨rows, hfind, h⟩ := bind_eq_ok_iff.1 h
  obtain ⟨objects, hobjects, -⟩ := bind_eq_ok_iff.1 h
  exact ⟨n, rows, objects, eq_ok_of_during hcount, eq_ok_of_during hfind, hobjects⟩

/-- What the request for the key of a record shows when the record has a document. -/
theorem get_of_document (hentity : c.entity.Sound) {records : List Record}
    (hs : sv.stores.store? c.name = some (.new c.entity records))
    (hkeys : c.entity.KeysApart records) (hr : r ∈ records) {object : Record}
    (hobject : sv.entity c q r = .ok object) (display : String) {q' : Query}
    (hselect : q'.select = q.select) (hexpand : q'.expand = q.expand) :
    ∃ body : Record,
      sv.get c (r.valueOf c.entity.key) display q' = .ok { payload := .json (.object body) } ∧
      body.without contextMember = object.without contextMember ∧
      (c.entity.declares contextMember = false → body.without contextMember = object) := by
  obtain ⟨body, hbody, hwithout⟩ := entityBody_without hentity hobject
  have hsame : sv.entity c q' r = .ok object := (entity_congr hselect hexpand).trans hobject
  have hget := get_eq_ok hs (hkeys.lookup?_eq_some hr) hsame display
  exact ⟨body, by rw [hget, hbody], hwithout⟩

/-! ## Creation -/

/-- What a creation that succeeds leaves: the record of its body at the end of the store, which the
response shows and tells the address of. -/
theorem create_eq_ok {records : List Record}
    (hs : sv.stores.store? c.name = some (Store.new c.entity records)) {fresh : String}
    {body : Option Json} {response : Response} {stores : Stores}
    (h : sv.create fresh c q body = (.ok response, stores)) :
    ∃ stored document,
      stores.store? c.name = some (Store.new c.entity (records ++ [stored])) ∧
      { sv with stores := stores }.entity c q stored = .ok document ∧
      response.payload = .json (sv.entityBody c document) ∧
      response.location = some (sv.site.entityUrl c.name c.entity stored) ∧
      ∃ r, c.entity.ofBody body = .ok r ∧ (Store.new c.entity records).add fresh r =
        .ok (stored, Store.new c.entity (records ++ [stored])) := by
  obtain ⟨r, hbody, h⟩ := attempt_eq_ok h
  obtain ⟨s, hstore, h⟩ := attempt_eq_ok h
  obtain rfl : Store.new c.entity records = s :=
    Option.some.inj (hs.symm.trans (store?_of_storeOf hstore))
  obtain ⟨⟨stored, s'⟩, hadd, h⟩ := attempt_eq_ok h
  have hadd := eq_ok_of_during hadd
  obtain ⟨_, -, -, -, hs'⟩ := Store.add_spec hadd
  change ((sv.withStore c s').created c q stored, sv.stores.put c.name s') =
    (.ok response, stores) at h
  obtain ⟨hcreated, hstores⟩ := Prod.mk.inj h
  obtain ⟨document, hdocument, hresponse⟩ := bind_eq_ok_iff.1 hcreated
  refine ⟨stored, document, ?_, ?_, ?_, ?_, r, hbody, ?_⟩
  · rw [← hstores]
    show (sv.stores.put c.name s').store? c.name = _
    rw [Stores.store?_put_self hs, hs']
    rfl
  · rw [← hstores]
    exact hdocument
  · cases hresponse
    rfl
  · cases hresponse
    rfl
  · rw [hadd, hs']
    rfl

/-- Every object in a list that is answered and the response to a creation show what the request for
the key of the entity shows, under one query: the filter, the order and the page of that request do
not matter, and neither does the literal of the key. From a list the context is missing, so it is
left out on both sides; where the entity type declares nothing of its name, the object of the list
has none. -/
theorem listed_and_created_as_got {d : Draft} (hbuild : d.build = .ok sv.schema)
    (hc : c ∈ sv.schema.collections) {records : List Record}
    (hrecords : sv.stores.store? c.name = some (.new c.entity records)) :
    (c.entity.KeysApart records → ∀ response, sv.list c q = .ok response →
      ∃ rows objects context,
      (Store.new c.entity records).find { q with select := [] } = .ok rows ∧
      response = { payload := .json (.object [
        ("@odata.context", context),
        ("@odata.count", .ofNat (records.filter q.filter.holds).length),
        ("value", .array (objects.map .object))]) } ∧
      List.Forall₂ (fun r object => ∀ display (q' : Query), q'.select = q.select →
        q'.expand = q.expand → ∃ body : Record,
          sv.get c (r.valueOf c.entity.key) display q' = .ok { payload := .json (.object body) } ∧
          body.without contextMember = Record.without object contextMember ∧
          (c.entity.declares contextMember = false → body.without contextMember = object))
        rows objects) ∧
    ∀ fresh content response stores, sv.create fresh c q content = (.ok response, stores) →
      ∃ stored, stores.store? c.name = some (.new c.entity (records ++ [stored])) ∧
        (c.entity.KeysApart (records ++ [stored]) → ∀ display,
          { sv with stores := stores }.get c (stored.valueOf c.entity.key) display q =
            .ok { payload := response.payload }) := by
  have hsound := Schema.sound_of_build hbuild
  have hentity := hsound.entities c.entity (hsound.collections c hc).2
  refine ⟨fun hkeys response hlist => ?_, fun fresh content response stores hcreate => ?_⟩
  · obtain ⟨n, rows, objects, hcount, hfind, hobjects⟩ := list_eq_ok hrecords hlist
    have hresponse := Except.ok.inj (hlist.symm.trans (list_of_find hrecords hcount hfind hobjects))
    obtain rfl : (records.filter q.filter.holds).length = n := Except.ok.inj hcount
    refine ⟨rows, objects, _, hfind, hresponse, ?_⟩
    have hmember := Store.mem_of_find hfind
    have hall := (List.forall₂_and_left rows objects).2 ⟨hmember, forall₂_of_mapM hobjects⟩
    refine hall.imp fun r object hobject display q' hselect hexpand => ?_
    exact get_of_document hentity hrecords hkeys hobject.1 hobject.2 display hselect hexpand
  · obtain ⟨stored, document, hafter, hdocument, hpayload, -⟩ := create_eq_ok hrecords hcreate
    refine ⟨stored, hafter, fun hkeys display => ?_⟩
    have hfound := hkeys.lookup?_eq_some (List.mem_append_right records List.mem_cons_self)
    have hget : { sv with stores := stores }.get c (stored.valueOf c.entity.key) display q =
        .ok { payload := .json (sv.entityBody c document) } :=
      get_eq_ok hafter hfound hdocument display
    rw [hget, hpayload]

end Service

namespace Library

theorem hasMemoryStores {records : String → List Record} : (service records).HasMemoryStores :=
  fun c hc => ⟨records c.name, sound_schema.store?_fill records hc⟩

/-- The book that is created. -/
def snow : Record := [("Title", .string "Snow"), ("Id", .ofInt 4)]

/-- Two of three books with the names of their authors. -/
def booksQuery : Query where
  select := ["Id", "Title", "AuthorId"]
  order := [⟨"Title", .desc⟩]
  top := some 2
  expand := "Author($select=Name)"

/-- Two of three books are listed and one is created, and all are shown as their keys show them. -/
theorem books_listed_and_created_as_got :
    Query.ofOptions {} (some schema) books.entity
      [("$orderby", "Title desc"), ("$top", "2"), ("$expand", "Author($select=Name)")] =
        .ok booksQuery ∧
    (∃ rows objects context,
      (Store.new books.entity (records "Books")).find { booksQuery with select := [] } = .ok rows ∧
      (service records).list books booksQuery = .ok { payload := .json (.object [
        ("@odata.context", context), ("@odata.count", .ofNat 3),
        ("value", .array (objects.map .object))]) } ∧
      List.Forall₂ (fun r object => ∃ body : Record,
        (service records).get books (r.valueOf "Id") "" booksQuery =
          .ok { payload := .json (.object body) } ∧
        body.without Service.contextMember = object) rows objects) ∧
    ∃ response stores,
      (service records).create "" books booksQuery (some (.object [("Title", .string "Snow")])) =
        (.ok response, stores) ∧
      { service records with stores := stores }.get books (.ofInt 4) "4" booksQuery =
        .ok { payload := response.payload } := by
  have hread : Query.ofOptions {} (some schema) books.entity
      [("$orderby", "Title desc"), ("$top", "2"), ("$expand", "Author($select=Name)")] =
        .ok booksQuery := by
    with_unfolding_all rfl
  have hkeys : books.entity.KeysApart (records "Books") :=
    .of_numbers [1, 2, 3] rfl (by decide) (by decide)
  have hmore : books.entity.KeysApart (records "Books" ++ [snow]) :=
    .of_numbers [1, 2, 3, 4] rfl (by decide) (by decide)
  obtain ⟨hlisted, hcreated⟩ := @Service.listed_and_created_as_got (service records) books
    booksQuery draft build_draft (by decide) _ rfl
  refine ⟨hread, ?_, ?_⟩
  · have hanswered : ((service records).list books booksQuery).toOption.isSome = true := by
      decide +kernel
    obtain ⟨response, hresponse⟩ := Option.isSome_iff_exists.1 hanswered
    have hlist := eq_ok_of_toOption hresponse
    obtain ⟨rows, objects, context, hfind, rfl, hall⟩ := hlisted hkeys response hlist
    refine ⟨rows, objects, context, hfind, hlist, hall.imp fun r object hobject => ?_⟩
    obtain ⟨body, hget, -, hsame⟩ := hobject "" booksQuery rfl rfl
    exact ⟨body, hget, hsame (by decide)⟩
  · obtain ⟨response, hresponse⟩ : ∃ response, ((service records).create "" books booksQuery
        (some (.object [("Title", .string "Snow")]))).1 = .ok response := by
      have hmade : ((service records).create "" books booksQuery
          (some (.object [("Title", .string "Snow")]))).1.toOption.isSome = true := by
        decide +kernel
      obtain ⟨response, hresponse⟩ := Option.isSome_iff_exists.1 hmade
      exact ⟨response, eq_ok_of_toOption hresponse⟩
    obtain ⟨stored, hafter, hgot⟩ := hcreated "" _ response _ (Prod.ext hresponse rfl)
    have hstored : Store.new books.entity (records "Books" ++ [snow]) =
        Store.new books.entity (records "Books" ++ [stored]) := Option.some.inj hafter
    obtain rfl : snow = stored :=
      List.singleton_inj.1 (List.append_cancel_left (congrArg Store.records hstored))
    exact ⟨response, _, Prod.ext hresponse rfl, hgot hmore "4"⟩

end Library

/-! ## A field named like the context -/

namespace Ledger

/-- Notes with a field that is named like the context of a document. -/
def notes : Collection where
  name := "Notes"
  entity := {
    name := "Note", key := "id"
    fields := [⟨"id", .int32, false⟩, ⟨"@odata.context", .string, false⟩] }

/-- The schema of the notes. -/
def schema : Schema where
  nameSpace := "Ledger"
  entities := [notes.entity]
  collections := [notes]

/-- The declarations of the notes. -/
def draft : Draft where
  nameSpace := "Ledger"
  entities := [notes.entity.declaration]
  collections := [("Notes", "Note")]

/-- One note. -/
def note : Record := [("id", .ofInt 1), ("@odata.context", .string "mine")]

/-- The notes at work. -/
def service : Service where
  schema := schema
  site := { base := "http://test", path := "/odata" }
  stores := schema.fill fun _ => [note]
  handlers := fun _ _ => .error []

/-- In a list the note keeps its own context; the body that its key shows has no other one, and
without that it is not what the list shows. -/
theorem listed_with_context :
    draft.build = .ok schema ∧ service.HasMemoryStores ∧ notes.entity.KeysApart [note] ∧
      ∃ q, Query.ofOptions {} (some schema) notes.entity [] = .ok q ∧ ∃ context object body,
        service.list notes q = .ok { payload := .json (.object [
          ("@odata.context", context), ("@odata.count", .ofNat 1),
          ("value", .array [.object object])]) } ∧
        service.get notes (note.valueOf "id") "1" q = .ok { payload := .json (.object body) } ∧
        Record.without body Service.contextMember ≠ object := by
  have hstores : service.HasMemoryStores := by
    intro c hc
    obtain rfl := List.mem_singleton.1 hc
    exact ⟨[note], rfl⟩
  have hkeys : notes.entity.KeysApart [note] := by
    refine ⟨fun r hr => ?_, List.pairwise_singleton _ _⟩
    obtain rfl := List.mem_singleton.1 hr
    rfl
  have hdiffers : Record.without [("@odata.context", .string "mine"),
        ("@odata.id", .string "http://test/odata/Notes(1)"), ("id", .ofInt 1)]
        Service.contextMember ≠
      [("@odata.id", .string "http://test/odata/Notes(1)"), ("id", .ofInt 1),
        ("@odata.context", .string "mine")] :=
    fun hsame => absurd (congrArg List.length hsame) (by decide)
  exact ⟨rfl, hstores, hkeys, _, rfl, _, _, _, rfl, rfl, hdiffers⟩

end Ledger

end ODataEngine
