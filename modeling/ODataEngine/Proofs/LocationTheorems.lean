import ODataEngine.Proofs.AnswerTheorems
import ODataEngine.Proofs.EntityRouteTheorems
import ODataEngine.Proofs.EntityViewTheorems
import ODataEngine.Proofs.KeyAddressTheorems
import ODataEngine.Proofs.PercentTheorems

/-!
# The address of a new entity

The response to a creation tells the address of the new entity, and the path in it leads back to
that entity (`Service.get_location`), if a path can hold its key: what a field takes is not checked
against what a path can name (`Workshop.part_created_and_not_found`), and the address is written
without percent escapes, though a path is read with them.
-/

namespace ODataEngine

/-! ## Keys as they are read back -/

/-- A path can name the key, and leads to no earlier record: an integer under a type with fractions
is read as the nearest double, which may be the key of one. -/
structure EntityType.Leads (e : EntityType) (records : List Record) (key : Json) : Prop where
  canAddress : e.keyType.CanAddress key
  apart : ∀ n, key = .ofInt n → e.keyType.isFloating = true →
    ∀ r ∈ records, (r.valueOf e.key).sameKey (e.keyType.asWritten key) = false

theorem Binary64.order_self (x : Binary64) : x.order x = .eq := (order_eq_eq_iff x x).2 rfl

theorem JsonNumber.order_toBinary64 (n : JsonNumber) : n.order (.float n.toBinary64) = .eq := by
  have hfloat : (JsonNumber.float n.toBinary64).int64? = none := rfl
  rw [order, hfloat]
  cases n.int64? <;> exact n.toBinary64.order_self

theorem JsonNumber.order_self (n : JsonNumber) : n.order n = .eq := by
  unfold order
  cases n.int64? with
  | some k => simp
  | none => exact n.toBinary64.order_self

namespace EdmType

variable {t : EdmType} {key : Json}

/-- A key and what its literal is read as are the same key. -/
theorem sameKey_asWritten (haccepts : t.accepts key = true) :
    key.sameKey (t.asWritten key) = true := by
  cases key with
  | null => rfl
  | array | object => cases haccepts
  | bool b => cases b <;> rfl
  | string s => simp [asWritten, Json.sameKey, Json.order?]
  | number n =>
    rw [asWritten]
    split
    · simp [Json.sameKey, Json.order?, JsonNumber.order_toBinary64]
    · simp [Json.sameKey, Json.order?, JsonNumber.order_self]

/-- What a path can name and a field takes is accepted by the type of the field: it is no list. -/
theorem accepts_of_field {f : Field} (haccepts : f.accepts key = true)
    (h : f.type.CanAddress key) : f.type.accepts key = true := by
  cases key with
  | null => rfl
  | array | object => cases h
  | bool | number | string => exact (Bool.and_eq_true_iff.1 haccepts).2

/-- Only an integer under a type with fractions is not read as it is. -/
theorem asWritten_eq_or (t : EdmType) (key : Json) :
    t.asWritten key = key ∨ t.isFloating = true ∧ ∃ n, key = .ofInt n := by
  unfold asWritten
  split
  · next n =>
    split
    · next hfloating =>
      cases n with
      | float x => exact .inl rfl
      | int n => exact .inr ⟨hfloating, n, rfl⟩
    · exact .inl rfl
  · exact .inl rfl

end EdmType

/-- The key in a path finds the record that was added under it. -/
theorem EntityType.Leads.lookup?_eq_some {e : EntityType} {records : List Record} {stored : Record}
    (h : e.Leads records (stored.valueOf e.key))
    (haccepts : e.keyType.accepts (stored.valueOf e.key) = true)
    (hfree : (Store.new e records).lookup? (stored.valueOf e.key) = none) :
    (Store.new e (records ++ [stored])).lookup? (e.keyType.asWritten (stored.valueOf e.key))
      = some stored := by
  have hearlier : ∀ r ∈ records,
      (r.valueOf e.key).sameKey (e.keyType.asWritten (stored.valueOf e.key)) = false := by
    rcases e.keyType.asWritten_eq_or (stored.valueOf e.key) with hsame | ⟨hfloating, n, hn⟩
    · rw [hsame]
      exact Store.lookup?_eq_none_iff.1 hfree
    · exact h.apart n hn hfloating
  exact Store.lookup?_eq_some_iff.2
    ⟨records, [], rfl, hearlier, EdmType.sameKey_asWritten haccepts⟩

/-! ## What is added -/

section

variable {e : EntityType} {records : List Record} {body : Option Json} {fresh : String}
  {r stored : Record} {s' : Store} (hsound : e.Sound) (hbody : e.ofBody body = .ok r)
  (hadd : (Store.new e records).add fresh r = .ok (stored, s'))

include hsound hbody hadd

/-- The key that a record is added under, given or made, is accepted by the type of the key where it
is no list, and no earlier record has it. -/
theorem Store.accepts_of_add (h : e.keyType.CanAddress (stored.valueOf e.key)) :
    (stored.valueOf e.key).isNull = false ∧ e.keyType.accepts (stored.valueOf e.key) = true ∧
      (Store.new e records).lookup? (stored.valueOf e.key) = none := by
  obtain ⟨key, hkey, hfree, hstored, -⟩ := Store.add_spec hadd
  have hvalue : stored.valueOf e.key = key := by
    rw [hstored]
    exact Record.valueOf_of_get? (Record.get?_insert_self r e.key key)
  rw [hvalue] at h ⊢
  rcases hkey with ⟨rfl, hgiven⟩ | hmade
  · have hget : r.get? e.key = some (r.valueOf e.key) := Record.get?_of_valueOf hgiven
    obtain ⟨f, hf, hname, haccepts⟩ := (EntityType.ofBody_spec hbody).1 _ (Record.mem_of_get? hget)
    have hsame : Text.sameName f.name e.key = true := by
      rw [hname]
      exact Text.sameName_refl e.key
    have htype : e.keyType = f.type := by
      rw [EntityType.keyType, EntityType.typeOf?, hsound.field?_eq_some hf hsame]
      rfl
    refine ⟨hgiven, ?_, hfree⟩
    rw [htype] at h ⊢
    exact EdmType.accepts_of_field haccepts h
  · obtain ⟨hnull, haccepts⟩ := Store.nextKey_spec hmade
    have hfield := haccepts ⟨"", e.keyType, false⟩ rfl rfl
    exact ⟨hnull, EdmType.accepts_of_field hfield h, hfree⟩

/-- The members of a record that was added are declared, each once. -/
theorem Store.declared_of_add : stored.names.Nodup ∧
    ∀ m ∈ stored, ∃ f ∈ e.fields, Text.sameName f.name m.1 = true := by
  obtain ⟨key, -, -, rfl, -⟩ := Store.add_spec hadd
  obtain ⟨hmembers, hnames⟩ := EntityType.ofBody_spec hbody
  refine ⟨Record.nodup_names_insert hnames _ _, fun m hm => ?_⟩
  rcases Record.mem_insert hm with hm | rfl
  · obtain ⟨f, hf, hname, -⟩ := hmembers m hm
    exact ⟨f, hf, hname ▸ Text.sameName_refl f.name⟩
  · obtain ⟨f, hfield⟩ := Option.isSome_iff_exists.1 hsound.key
    exact ⟨f, EntityType.mem_of_field? hfield⟩

end

namespace Service

variable {sv : Service} {c : Collection} {q : Query} {r : Record}

/-! ## Only creations create -/

/-- The outcome is not that of a creation. -/
def NotCreated (o : Outcome) : Prop := ∀ response, o.1 = .ok response → response.status ≠ .created

theorem notCreated_ok {response : Response} (h : response.status ≠ .created) (stores : Stores) :
    NotCreated (.ok response, stores) := by
  rintro _ ⟨⟩
  exact h

theorem notCreated_shown (payload : Payload) (stores : Stores) :
    NotCreated (.ok { payload := payload }, stores) := notCreated_ok (by nofun) stores

theorem notCreated_noContent (stores : Stores) : NotCreated (.ok .noContent, stores) :=
  notCreated_ok (by nofun) stores

theorem notCreated_attempt {α : Type} {result : Except RequestError α} {next : α → Outcome}
    (h : ∀ a, NotCreated (next a)) : NotCreated (sv.attempt result next) := by
  cases result with
  | ok a => exact h a
  | error e => exact nofun

/-- What reads goes on with a result, or ends with its failure. -/
theorem notCreated_bind {α : Type} {result : Except RequestError α}
    {next : α → Except RequestError Response} (h : ∀ a, NotCreated (sv.unchanged (next a))) :
    NotCreated (sv.unchanged (result >>= next)) := by
  cases result with
  | ok a => exact h a
  | error e => exact nofun

theorem notCreated_list (sv : Service) (c : Collection) (q : Query) :
    NotCreated (sv.unchanged (sv.list c q)) :=
  notCreated_bind fun _ => notCreated_bind fun _ => notCreated_bind fun _ =>
    notCreated_bind fun _ => notCreated_shown _ _

theorem notCreated_count (sv : Service) (c : Collection) (q : Query) :
    NotCreated (sv.unchanged (sv.count c q)) :=
  notCreated_bind fun _ => notCreated_bind fun _ => notCreated_shown _ _

theorem notCreated_get (sv : Service) (c : Collection) (key : Json) (display : String)
    (q : Query) : NotCreated (sv.unchanged (sv.get c key display q)) :=
  notCreated_bind fun _ => notCreated_bind fun _ => notCreated_shown _ _

theorem notCreated_navigate (sv : Service) (a : Address) (c : Collection) (key : Json)
    (display : String) (q : Query) :
    NotCreated (sv.unchanged do sv.navigate c key display (← sv.navigationAt a) q) := by
  refine notCreated_bind fun n => notCreated_bind fun target => notCreated_bind fun _ =>
    notCreated_bind fun _ => notCreated_bind fun _ => ?_
  split
  · exact notCreated_bind fun _ => notCreated_shown _ _
  · exact notCreated_bind fun _ => notCreated_shown _ _
  · exact nofun

theorem notCreated_invoke (sv : Service) (c : Collection) (a : Address) (op : Operation)
    (q : Query) (body : Option Json) : NotCreated (sv.invoke c a op q body) := by
  refine notCreated_attempt fun s => ?_
  split
  · next result s' _ =>
    refine notCreated_ok ?_ _
    unfold resultResponse
    split <;> exact nofun
  · exact nofun

/-- No other endpoint answers as the one of creations does. -/
theorem notCreated_answerAt (sv : Service) (fresh : String) (a : Address) {endpoint : Endpoint}
    (hcreate : endpoint ≠ .create) (c : Collection) (q : Query) (body : Option Json) :
    NotCreated (sv.answerAt fresh a endpoint c q body) := by
  cases endpoint with
  | create => exact absurd rfl hcreate
  | serviceDocument | metadata => exact nofun
  | list => exact notCreated_list sv c q
  | count => exact notCreated_count sv c q
  | get => exact notCreated_attempt fun key => notCreated_get sv c key _ q
  | replace | patch =>
    exact notCreated_attempt fun _ => notCreated_attempt fun _ => notCreated_attempt fun _ =>
      notCreated_attempt fun _ => notCreated_attempt fun _ => notCreated_noContent _
  | delete =>
    exact notCreated_attempt fun _ => notCreated_attempt fun _ => notCreated_attempt fun _ =>
      notCreated_noContent _
  | navigationGet | navigationList =>
    exact notCreated_attempt fun key => notCreated_navigate sv a c key _ q
  | invoke op => exact notCreated_invoke sv c a op q body

/-- A request is answered as a creation only by creating an entity in a collection. -/
theorem create_of_answer {fresh : String} {post : Request} {response : Response} {stores : Stores}
    (h : sv.answer fresh post = (.ok response, stores)) (hcreated : response.status = .created) :
    ∃ c ∈ sv.schema.collections, ∃ q,
      Query.ofString sv.limits sv.schema c.entity post.query = .ok q ∧
      sv.create fresh c q post.body = (.ok response, stores) := by
  rcases answer_ok_cases h with
    ⟨endpoint, document, -, -, rfl⟩ | ⟨a, endpoint, -, c, hc, hserves, q, hq, h⟩
  · cases hcreated
  · have hcreate : endpoint = .create := by
      by_contra hother
      refine notCreated_answerAt sv fresh a hother c q post.body response ?_ hcreated
      rw [h]
    subst hcreate
    exact ⟨c, hc, q, hq, h⟩

/-! ## Following an address -/

/-- A record was added to a collection for a request that created an entity: at the end of its
store, with the members of the body and with a key, given or made. -/
structure Adds (sv : Service) (fresh : String) (post : Request) (c : Collection)
    (records : List Record) (stored : Record) (stores : Stores) : Prop where
  before : sv.stores.store? c.name = some (.new c.entity records)
  after : stores.store? c.name = some (.new c.entity (records ++ [stored]))
  added : ∃ r, c.entity.ofBody post.body = .ok r ∧
    (Store.new c.entity records).add fresh r = .ok (stored, .new c.entity (records ++ [stored]))

/-- The store of the collection is not as it was. -/
theorem Adds.store?_ne {fresh : String} {post : Request} {records : List Record} {stored : Record}
    {stores : Stores} (h : sv.Adds fresh post c records stored stores) :
    sv.stores.store? c.name ≠ stores.store? c.name := by
  intro hsame
  rw [h.before, h.after] at hsame
  have hrecords : records = records ++ [stored] := congrArg Store.records (Option.some.inj hsame)
  exact List.cons_ne_nil _ _ (List.self_eq_append_right.1 hrecords)

/-- The path of the address of an entity: the address without the base. -/
def keyPath (site : Site) (c : Collection) (key : Json) : String :=
  s!"{site.path}/{c.name}({c.entity.keyType.keyLiteral key})"

theorem toList_keyPath (site : Site) (c : Collection) (key : Json) :
    (keyPath site c key).toList = site.path.toList ++
      '/' :: (c.name.toList ++ '(' :: ((c.entity.keyType.keyLiteral key).toList ++ [')'])) := by
  simp [keyPath, toString]

theorem entityUrl_eq (site : Site) (c : Collection) (r : Record) :
    site.entityUrl c.name c.entity r = site.base ++ keyPath site c (r.valueOf c.entity.key) := by
  simp [Site.entityUrl, Site.root, keyPath, toString, String.append_assoc]

/-- The request for the path of a key is answered with the entity of that key. -/
theorem answer_get (hsound : sv.schema.Sound) (hc : c ∈ sv.schema.collections)
    {literal inner : List Char} (hliteral : Route.IsLiteral literal inner) {v : Json}
    (hv : c.entity.keyType.coerce (String.ofList inner) = .ok v) {path query : String}
    (hpath : Text.percentDecode? path
      = some (sv.site.path.toList ++ '/' :: (c.name.toList ++ '(' :: (literal ++ [')']))))
    (hq : Query.ofString sv.limits sv.schema c.entity query = .ok q) (fresh : String) :
    sv.answer fresh { method := "GET", path := path, query := query } =
      (sv.get c v (c.entity.keyType.keyLiteral v) q, sv.stores) := by
  have hresolve : Route.resolve sv.schema sv.site "GET" path = {
      address := { collection := some c, key := some v
                   keyLiteral := some (c.entity.keyType.keyLiteral v) }
      endpoint := .ok (some .get) } :=
    Route.resolve_of_isLiteral hsound hc hliteral hv .bare
      (by simp : ([] : List Char).getLast? ≠ some '/') sv.site "GET" hpath
  have hquery : ∀ a, sv.queryAt a .get c query = .ok q := fun _ => hq
  unfold answer
  simp only [hresolve, attempt_ok, description?, collectionOf, hquery]
  rfl

/-- Whatever the query, the path of a record that was added leads to that record. -/
theorem Adds.answer_get {fresh : String} {post : Request} {records : List Record} {stored : Record}
    {stores : Stores} (h : sv.Adds fresh post c records stored stores) (hsound : sv.schema.Sound)
    (hc : c ∈ sv.schema.collections)
    (hescape : ¬ Text.HasEscape (keyPath sv.site c (stored.valueOf c.entity.key)).toList)
    (hleads : c.entity.Leads records (stored.valueOf c.entity.key)) {query : String}
    {document : Record} (hq : Query.ofString sv.limits sv.schema c.entity query = .ok q)
    (hdocument : { sv with stores := stores }.entity c q stored = .ok document)
    (fresh' : String) :
    { sv with stores := stores }.answer fresh' {
        method := "GET", path := keyPath sv.site c (stored.valueOf c.entity.key), query := query } =
      (.ok { payload := .json (sv.entityBody c document) }, stores) := by
  obtain ⟨r, hbody, hadd⟩ := h.added
  have hentity := hsound.entities c.entity (hsound.collections c hc).2
  obtain ⟨hnull, haccepts, hfree⟩ := Store.accepts_of_add hentity hbody hadd hleads.canAddress
  have hliteral := EdmType.isLiteral_of_accepts haccepts hnull
  have hkey := EdmType.coerce_keyText_of_canAddress haccepts hnull hleads.canAddress
  have hpath := Text.percentDecode?_of_not_hasEscape hescape
  rw [toList_keyPath] at hpath
  have hanswer := @Service.answer_get { sv with stores := stores } c q hsound hc _ _ hliteral _
    hkey _ _ hpath hq fresh'
  have hfound := hleads.lookup?_eq_some haccepts hfree
  rw [get_eq_ok h.after hfound hdocument] at hanswer
  exact hanswer

/-- The body of an entity under a query that asks for nothing in particular holds the members of
its record. -/
theorem get?_entityBody_plain (hdeclared : ∀ m ∈ r, ∃ f ∈ c.entity.fields,
    Text.sameName f.name m.1 = true) (hsound : c.entity.Sound) (hnames : r.names.Nodup) :
    ∃ document body : Record, sv.entity c (.plain c.entity) r = .ok document ∧
      sv.entityBody c document = .object body ∧
      ∀ name v, r.get? name = some v → body.get? name = some v := by
  have hparse : Expand.parse (Query.plain c.entity).expand = .ok [] := by
    with_unfolding_all rfl
  have hshown : shown c.entity (.plain c.entity) r = r := by
    rw [shown_eq_selected]
    refine List.filter_eq_self.2 fun m hm => ?_
    obtain ⟨f, hf, hsame⟩ := hdeclared m hm
    have hfield := hsound.field?_eq_some hf (Text.sameName_refl f.name)
    refine List.any_eq_true.2 ⟨f.name, List.mem_map_of_mem hf, ?_⟩
    rw [hfield, hsame]
    rfl
  have hentity : sv.entity c (.plain c.entity) r =
      .ok (Record.insertAll [(addressMember, .string (sv.site.entityUrl c.name c.entity r))] r) := by
    rw [entity_eq, hparse, hshown]
    rfl
  refine ⟨_, _, hentity, rfl, fun name v hv => ?_⟩
  have hown : (Record.names
      [(addressMember, .string (sv.site.entityUrl c.name c.entity r))]).Nodup :=
    List.pairwise_singleton _ _
  have hdocument := Record.nodup_names_insertAll hown r
  rw [Record.get?_insertAll_of_nodup _ hdocument, Record.get?_insertAll_of_nodup _ hnames, hv]
  rfl

/-- In a service with a built schema and stores in memory, a request that is answered as a creation
adds a record and tells its address. If the path of the address holds no percent escape and a path
can name the key, then the request for that path under the same query shows what the creation
showed, and without a query it shows every member of the record, the key included. -/
theorem get_location {d : Draft} (hbuild : d.build = .ok sv.schema) (hstores : sv.HasMemoryStores)
    {fresh : String} {post : Request} {response : Response} {stores : Stores}
    (hpost : sv.answer fresh post = (.ok response, stores))
    (hcreated : response.status = .created) :
    ∃ c ∈ sv.schema.collections, ∃ records stored path,
      sv.Adds fresh post c records stored stores ∧
      response.location = some (sv.site.base ++ path) ∧
      (¬ Text.HasEscape path.toList → c.entity.Leads records (stored.valueOf c.entity.key) →
        ∀ fresh',
          { sv with stores := stores }.answer fresh'
              { method := "GET", path := path, query := post.query } =
            (.ok { payload := response.payload }, stores) ∧
          ∃ body : Record, { sv with stores := stores }.answer fresh'
              { method := "GET", path := path } = (.ok { payload := .json (.object body) }, stores) ∧
            ∀ name v, stored.get? name = some v → body.get? name = some v) := by
  have hsound := Schema.sound_of_build hbuild
  obtain ⟨c, hc, q, hq, hcreate⟩ := create_of_answer hpost hcreated
  obtain ⟨records, hrecords⟩ := hstores c hc
  obtain ⟨stored, document, hafter, hdocument, hpayload, hlocation, r, hbody, hadd⟩ :=
    create_eq_ok hrecords hcreate
  have hadds : sv.Adds fresh post c records stored stores := ⟨hrecords, hafter, r, hbody, hadd⟩
  refine ⟨c, hc, records, stored, keyPath sv.site c (stored.valueOf c.entity.key), hadds, ?_,
    fun hescape hleads fresh' => ⟨?_, ?_⟩⟩
  · rw [hlocation, entityUrl_eq]
  · rw [hpayload]
    exact hadds.answer_get hsound hc hescape hleads hq hdocument fresh'
  · have hentity := hsound.entities c.entity (hsound.collections c hc).2
    obtain ⟨hnames, hdeclared⟩ := Store.declared_of_add hentity hbody hadd
    obtain ⟨document, body, hdocument, hobject, hmembers⟩ :=
      @get?_entityBody_plain { sv with stores := stores } c stored hdeclared hentity hnames
    have hplain : Query.ofString sv.limits sv.schema c.entity "" = .ok (.plain c.entity) := rfl
    have hget := hadds.answer_get hsound hc hescape hleads hplain hdocument fresh'
    exact ⟨body, hobject ▸ hget, hmembers⟩

end Service

namespace Library

/-- A new shelf with one book, under a label with quotes, brackets, a slash and blanks. -/
def newShelf : Request where
  method := "POST"
  path := "/odata/Shelves"
  query := "$expand=Books"
  body := some (.object [("Label", .string "O'Neil (a/b), c=d)"), ("BookIds", .array [.ofInt 2])])

/-- The record of the new shelf. -/
def shelf : Record :=
  [("Label", .string "O'Neil (a/b), c=d)"), ("BookIds", .array [.ofInt 2])]

/-- The stores with the new shelf. -/
def withShelf : Stores := (service records).stores.put "Shelves" (Store.new shelves.entity [shelf])

/-- The path that leads to the new shelf. -/
def shelfPath : String := "/odata/Shelves('O''Neil (a/b), c=d)')"

/-- The new shelf with its book, as a document. -/
def shelfDocument : Payload := .json (.object [
  ("@odata.context", .string "http://localhost/odata/$metadata#Shelves/$entity"),
  ("@odata.id", .string "http://localhost/odata/Shelves('O''Neil (a/b), c=d)')"),
  ("Label", .string "O'Neil (a/b), c=d)"), ("BookIds", .array [.ofInt 2]),
  ("Books", .array [.object [
    ("@odata.id", .string "http://localhost/odata/Books(2)"), ("Id", .ofInt 2),
    ("Title", .string "Sand"), ("AuthorId", .ofInt 1)]])])

theorem answer_newShelf : (service records).answer "" newShelf = (.ok {
    status := .created, payload := shelfDocument
    location := some ("http://localhost" ++ shelfPath) }, withShelf) := by
  with_unfolding_all rfl

/-- The new shelf is found where the response says, with its book as in the response, and with its
label and the number of its book where nothing is asked for. -/
theorem newShelf_location :
    (service records).answer "" newShelf = (.ok {
      status := .created, payload := shelfDocument
      location := some ("http://localhost" ++ shelfPath) }, withShelf) ∧
    { service records with stores := withShelf }.answer ""
      { method := "GET", path := shelfPath, query := "$expand=Books" } =
        (.ok { payload := shelfDocument }, withShelf) ∧
    ∃ body : Record, { service records with stores := withShelf }.answer ""
        { method := "GET", path := shelfPath } =
          (.ok { payload := .json (.object body) }, withShelf) ∧
      body.get? "Label" = some (.string "O'Neil (a/b), c=d)") ∧
      body.get? "BookIds" = some (.array [.ofInt 2]) := by
  obtain ⟨c, hc, before, stored, path, hadds, hlocation, hfound⟩ :=
    Service.get_location build_draft hasMemoryStores answer_newShelf rfl
  have hshelves : c = shelves := by
    obtain rfl | rfl | rfl : c = authors ∨ c = books ∨ c = shelves := by
      simpa [service, schema, collections] using hc
    · exact absurd rfl hadds.store?_ne
    · exact absurd rfl hadds.store?_ne
    · rfl
  subst hshelves
  have hpath : shelfPath = path := (String.append_right_inj _).1 (Option.some.inj hlocation)
  subst hpath
  have hbefore : before = [] := congrArg Store.records (Option.some.inj hadds.before).symm
  subst hbefore
  have hstored : stored = shelf :=
    List.singleton_inj.1 (congrArg Store.records (Option.some.inj hadds.after).symm)
  subst hstored
  have hleads : shelves.entity.Leads [] (shelf.valueOf "Label") := ⟨nofun, nofun⟩
  obtain ⟨hsame, body, hplain, hmembers⟩ :=
    hfound (Text.not_hasEscape_of_not_mem (by decide)) hleads ""
  exact ⟨answer_newShelf, hsame, body, hplain, hmembers _ _ rfl, hmembers _ _ rfl⟩

end Library

/-! ## A number that no path can name -/

namespace Workshop

/-- Parts with small numbers. -/
def parts : Collection where
  name := "Parts"
  entity := { name := "Part", key := "Id", fields := [⟨"Id", .int16, false⟩] }

/-- The schema of the parts. -/
def schema : Schema where
  nameSpace := "Workshop"
  entities := [parts.entity]
  collections := [parts]

/-- The declarations of the parts. -/
def draft : Draft where
  nameSpace := "Workshop"
  entities := [parts.entity.declaration]
  collections := [("Parts", "Part")]

/-- The parts at work. -/
def service : Service where
  schema := schema
  site := { base := "http://test", path := "/odata" }
  stores := schema.fill fun _ => []
  handlers := fun _ _ => .error []

/-- A part with a number beyond those of its type. -/
def part : Request where
  method := "POST"
  path := "/odata/Parts"
  body := some (.object [("Id", .ofInt 40000)])

/-- The stores with the part. -/
def withPart : Stores :=
  service.stores.put "Parts" (Store.new parts.entity [[("Id", .ofInt 40000)]])

/-- The part is created, and the path in its address does not lead to it. -/
theorem part_created_and_not_found :
    draft.build = .ok schema ∧ service.HasMemoryStores ∧
      service.answer "" part = (.ok {
        status := .created
        payload := .json (.object [
          ("@odata.context", .string "http://test/odata/$metadata#Parts/$entity"),
          ("@odata.id", .string "http://test/odata/Parts(40000)"), ("Id", .ofInt 40000)])
        location := some ("http://test" ++ "/odata/Parts(40000)") }, withPart) ∧
      ∃ e, { service with stores := withPart }.answer ""
        { method := "GET", path := "/odata/Parts(40000)" } = (.error e, withPart) := by
  have hstores : service.HasMemoryStores := by
    intro c hc
    obtain rfl := List.mem_singleton.1 hc
    exact ⟨[], rfl⟩
  have hcreated : service.answer "" part = (.ok {
      status := .created
      payload := .json (.object [
        ("@odata.context", .string "http://test/odata/$metadata#Parts/$entity"),
        ("@odata.id", .string "http://test/odata/Parts(40000)"), ("Id", .ofInt 40000)])
      location := some ("http://test" ++ "/odata/Parts(40000)") }, withPart) := by
    with_unfolding_all rfl
  have hget : { service with stores := withPart }.answer ""
      { method := "GET", path := "/odata/Parts(40000)" } =
        (.error (.invalidKey "Parts" "40000" "cannot read '40000' as Edm.Int16"), withPart) := by
    with_unfolding_all rfl
  exact ⟨rfl, hstores, hcreated, _, hget⟩

end Workshop
end ODataEngine
