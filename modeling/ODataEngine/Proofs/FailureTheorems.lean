import ODataEngine.Proofs.RunTheorems

/-!
# What a failed request leaves behind

Stores may refuse any call, and a request makes several. Reading changes nothing, and replacing,
changing and deleting an entity end with the one call that changes the store. Creating an entity
goes on after its change, to the expansions of the response, and nothing undoes the change when one
of these fails: when a store refuses it, or when the query strays and its fault is met there.

- `Service.kept_answerAt`: at every built-in endpoint but that of creations, a failure has changed
  nothing.
- `Service.create_eq_error`: a creation that failed has changed nothing, or added the record it
  could not show.
- `Service.error_keeps_stores` puts the two together for requests.
-/

namespace ODataEngine.Service

variable {sv : Service} {c : Collection} {q : Query} {r : Record}

/-- Every collection has a store. -/
def HasStores (sv : Service) : Prop :=
  ∀ c ∈ sv.schema.collections, ∃ s, sv.stores.store? c.name = some s

/-! ## Endpoints that end with their change -/

theorem attempt_eq_error {α : Type} {result : Except RequestError α} {next : α → Outcome}
    {e : RequestError} {stores : Stores} (h : sv.attempt result next = (.error e, stores)) :
    stores = sv.stores ∨ ∃ a, result = .ok a ∧ next a = (.error e, stores) := by
  cases result with
  | ok a => exact .inr ⟨a, rfl, h⟩
  | error e' => exact .inl (congrArg Prod.snd h).symm

/-- An outcome that is a failure leaves the stores as they are. -/
def KeptOnError (sv : Service) (o : Outcome) : Prop := ∀ e, o.1 = .error e → o.2 = sv.stores

theorem kept_unchanged (sv : Service) (result : Except RequestError Response) :
    sv.KeptOnError (sv.unchanged result) := fun _ _ => rfl

theorem kept_ok (sv : Service) (response : Response) (stores : Stores) :
    sv.KeptOnError (.ok response, stores) := nofun

theorem kept_attempt {α : Type} {result : Except RequestError α} {next : α → Outcome}
    (h : ∀ a, result = .ok a → sv.KeptOnError (next a)) :
    sv.KeptOnError (sv.attempt result next) := by
  cases result with
  | ok a => exact h a rfl
  | error e => exact kept_unchanged sv (.error e)

theorem kept_write (sv : Service) (c : Collection) (key : Json) (display : String)
    (body : Option Json) (replacement : Replacement) :
    sv.KeptOnError (sv.write c key display body replacement) :=
  kept_attempt fun _ _ => kept_attempt fun _ _ => kept_attempt fun _ _ => kept_attempt fun _ _ =>
    kept_ok sv _ _

theorem kept_delete (sv : Service) (c : Collection) (key : Json) (display : String) :
    sv.KeptOnError (sv.delete c key display) :=
  kept_attempt fun _ _ => kept_attempt fun _ _ => kept_ok sv _ _

/-- Where nothing is created and no operation invoked, a failure has changed nothing. -/
theorem kept_answerAt (sv : Service) (fresh : String) (a : Address) {endpoint : Endpoint}
    (hbuiltIn : ∀ op, endpoint ≠ .invoke op) (hcreate : endpoint ≠ .create) (c : Collection)
    (q : Query) (body : Option Json) :
    sv.KeptOnError (sv.answerAt fresh a endpoint c q body) := by
  cases endpoint with
  | serviceDocument | metadata | list | count => exact kept_unchanged sv _
  | create => exact absurd rfl hcreate
  | get | navigationGet | navigationList => exact kept_attempt fun _ _ => kept_unchanged sv _
  | replace | patch => exact kept_attempt fun key _ => kept_write sv c key _ body _
  | delete => exact kept_attempt fun key _ => kept_delete sv c key _
  | invoke op => exact absurd rfl (hbuiltIn op)

/-! ## Creations -/

theorem entity_eq_error_of_created {e : RequestError} (h : sv.created c q r = .error e) :
    sv.entity c q r = .error e := by
  unfold created at h
  cases hentity : sv.entity c q r with
  | ok document =>
    rw [hentity] at h
    cases h
  | error e' =>
    rw [hentity] at h
    cases h
    rfl

/-- A creation that failed did so before the store was changed, or when it showed the record that
the store had added. -/
theorem create_eq_error {fresh : String} {body : Option Json} {e : RequestError} {stores : Stores}
    (h : sv.create fresh c q body = (.error e, stores)) :
    stores = sv.stores ∨ ∃ s r stored,
      sv.stores.store? c.name = some s ∧ c.entity.ofBody body = .ok r ∧
      s.add fresh r = .ok (stored, { s with records := s.records ++ [stored] }) ∧
      stores = sv.stores.put c.name { s with records := s.records ++ [stored] } ∧
      (sv.withStore c { s with records := s.records ++ [stored] }).entity c q stored = .error e := by
  rcases attempt_eq_error h with hsame | ⟨r, hbody, h⟩
  · exact .inl hsame
  rcases attempt_eq_error h with hsame | ⟨s, hstore, h⟩
  · exact .inl hsame
  rcases attempt_eq_error h with hsame | ⟨⟨stored, s'⟩, hadd, h⟩
  · exact .inl hsame
  have hadd := eq_ok_of_during hadd
  obtain ⟨-, -, -, -, rfl⟩ := Store.add_spec hadd
  obtain ⟨hshown, rfl⟩ := Prod.ext_iff.1 h
  exact .inr ⟨s, r, stored, store?_of_storeOf hstore, hbody, hadd, rfl,
    entity_eq_error_of_created hshown⟩

/-! ## Failures of the response to a creation -/

/-- Showing an entity fails only in an expansion. -/
theorem expands_of_entity_eq_error {e : RequestError} {items : List ExpandItem}
    (hparse : Expand.parse q.expand = .ok items) (h : sv.entity c q r = .error e) : items ≠ [] := by
  rintro rfl
  rw [entity_eq, hparse] at h
  cases h

/-- The failure to expand what the store of a collection refuses to find. -/
def RefusedExpand (sv : Service) (e : RequestError) : Prop :=
  ∃ target ∈ sv.schema.collections, ∃ s call cause key,
    sv.stores.store? target.name = some s ∧ s.refuses call = some cause ∧
      e = .storage "expand" target.name key cause

/-- Adding a record changes no store's mind about the calls it refuses. -/
theorem refusedExpand_of_withStore (hstores : sv.HasStores) {s : Store} {records : List Record}
    (hs : sv.stores.store? c.name = some s) {e : RequestError}
    (h : (sv.withStore c { s with records := records }).FailsInStore e) : sv.RefusedExpand e := by
  obtain ⟨target, htarget, hfails⟩ := h
  by_cases hname : target.name = c.name
  · have hput : (sv.stores.put c.name { s with records := records }).store? target.name
        = some { s with records := records } := hname ▸ Stores.store?_put_self hs _
    rcases hfails with ⟨hnone, -⟩ | ⟨t, call, cause, key, ht, hrefused, rfl⟩
    · cases hput.symm.trans hnone
    · obtain rfl := Option.some.inj (hput.symm.trans ht)
      exact ⟨target, htarget, s, call, cause, key, hname ▸ hs, hrefused, rfl⟩
  · have hput := Stores.store?_put_of_ne sv.stores hname { s with records := records }
    rcases hfails with ⟨hnone, -⟩ | ⟨t, call, cause, key, ht, hrefused, rfl⟩
    · obtain ⟨t, ht⟩ := hstores target htarget
      cases ht.symm.trans (hput.symm.trans hnone)
    · exact ⟨target, htarget, t, call, cause, key, hput.symm.trans ht, hrefused, rfl⟩

/-! ## Requests -/

/-- The request created an entity in a collection and failed when it expanded the new entity for the
response: the new record stays at the end of the store of the collection, and nothing else has
changed. Either a store refused to find what was to be expanded, or the query strays and has a fault
where it does. -/
structure LeftCreated (sv : Service) (fresh : String) (request : Request) (c : Collection)
    (e : RequestError) (stores : Stores) : Prop where
  endpoint : (Route.resolve sv.schema sv.site request.method request.path).endpoint
    = .ok (some .create)
  collection : (Route.resolve sv.schema sv.site request.method request.path).address.collection
    = some c
  added : ∃ s r stored, sv.stores.store? c.name = some s ∧ c.entity.ofBody request.body = .ok r ∧
    s.add fresh r = .ok (stored, { s with records := s.records ++ [stored] }) ∧
    stores = sv.stores.put c.name { s with records := s.records ++ [stored] }
  expands : ∃ q items, Query.ofString sv.limits sv.schema c.entity request.query = .ok q ∧
    Expand.parse q.expand = .ok items ∧ items ≠ [] ∧
    (sv.RefusedExpand e ∨ q.Strays sv.limits sv.schema c.entity ∧ e.isQueryFault = true)

/-- In a service with a built schema, whose stores may refuse any call, a request to a built-in
operation that fails leaves every store as it was, but for one case: the record of a new entity
stays when the response cannot show what it was to expand. -/
theorem error_keeps_stores {d : Draft} (hbuild : d.build = .ok sv.schema) (hstores : sv.HasStores)
    {fresh : String} {request : Request} (hbuiltIn : sv.invokes request = false) {e : RequestError}
    {stores : Stores} (h : sv.answer fresh request = (.error e, stores)) :
    stores = sv.stores ∨ ∃ c ∈ sv.schema.collections, sv.LeftCreated fresh request c e stores := by
  have hsound := Schema.sound_of_build hbuild
  rcases answer_cases sv fresh request with
    ⟨result, hresult⟩ | ⟨a, endpoint, hfound, c, hc, hserves, q, hq, hanswer⟩
  · have hsame : sv.answer fresh request = (result, sv.stores) := hresult sv.stores
    exact .inl (congrArg Prod.snd (hsame.symm.trans h)).symm
  have hoperation : ∀ op, endpoint ≠ .invoke op := by
    rintro op rfl
    rw [invokes, hfound] at hbuiltIn
    cases hbuiltIn
  rw [hanswer] at h
  by_cases hcreate : endpoint = .create
  · subst hcreate
    rcases create_eq_error h with hsame | ⟨s, r, stored, hs, hbody, hadd, rfl, hshown⟩
    · exact .inl hsame
    obtain ⟨items, hparse, -⟩ := Query.expandsWithin_of_ofOptions hq
    have hfails := @failsOnly_entity_of_read
      (sv.withStore c { s with records := s.records ++ [stored] }) c q hsound _ hq stored e hshown
    exact .inr ⟨c, hc, {
      endpoint := by rw [hfound]
      collection := by rw [hfound, hserves.collection]
      added := ⟨s, r, stored, hs, hbody, hadd, rfl⟩
      expands := ⟨q, items, hq, hparse, expands_of_entity_eq_error hparse hshown,
        hfails.imp_left (refusedExpand_of_withStore hstores hs)⟩ }⟩
  · have hkept := kept_answerAt sv fresh a hoperation hcreate c q request.body e
    rw [h] at hkept
    exact .inl (hkept rfl)

end ODataEngine.Service

namespace ODataEngine.Library

/-! ## A library that cannot find its authors -/

/-- A store of authors that answers no searches. -/
def lostAuthors : Store :=
  { Store.new authors.entity [] with
    refuses := fun call =>
      match call with
      | .find _ => some (.backend ["down"])
      | _ => none }

/-- The empty library, with a store of authors that answers no searches. -/
def withoutAuthors : Service :=
  (service fun _ => []).withStore authors lostAuthors

/-- A new book, to be shown with its author. -/
def bookWithAuthor : Request where
  method := "POST"
  path := "/odata/Books"
  query := "$expand=Author"
  body := some (.object [("Title", .string "Snow"), ("AuthorId", .ofInt 1)])

theorem hasStores_withoutAuthors : withoutAuthors.HasStores := by
  intro c hc
  have hall : collections.all fun c => (withoutAuthors.stores.store? c.name).isSome := by decide
  exact Option.isSome_iff_exists.1 (List.all_eq_true.1 hall c hc)

/-- The store of the books with the new one. -/
def withBook : Stores :=
  withoutAuthors.stores.put "Books" (Store.new books.entity
    [[("Title", .string "Snow"), ("AuthorId", .ofInt 1), ("Id", .ofInt 1)]])

theorem answer_bookWithAuthor : withoutAuthors.answer "" bookWithAuthor =
    (.error (.storage "expand" "Authors" (some "1") (.backend ["down"])), withBook) := by
  with_unfolding_all rfl

/-- The creation of the book fails, and the book is there. -/
theorem bookWithAuthor_created_and_failed :
    draft.build = .ok withoutAuthors.schema ∧ withoutAuthors.invokes bookWithAuthor = false ∧
      ∃ e stores, withoutAuthors.answer "" bookWithAuthor = (.error e, stores) ∧
        (withoutAuthors.stores.store? "Books").map (·.records.length) = some 0 ∧
        (stores.store? "Books").map (·.records.length) = some 1 :=
  ⟨build_draft, by decide +kernel, _, _, answer_bookWithAuthor, rfl, rfl⟩

/-- What the failed creation leaves is the book. -/
theorem bookWithAuthor_leftCreated :
    ∃ e stores, withoutAuthors.answer "" bookWithAuthor = (.error e, stores) ∧
      ∃ c ∈ withoutAuthors.schema.collections,
        withoutAuthors.LeftCreated "" bookWithAuthor c e stores := by
  refine ⟨_, _, answer_bookWithAuthor, ?_⟩
  rcases Service.error_keeps_stores build_draft hasStores_withoutAuthors (by decide +kernel)
    answer_bookWithAuthor with hsame | hleft
  · have hlengths := congrArg (fun stores => (stores.store? "Books").map (·.records.length)) hsame
    exact absurd hlengths (by decide)
  · exact hleft

end ODataEngine.Library
