import ODataEngine.Proofs.AnswerTheorems
import ODataEngine.Proofs.DocumentTheorems

/-!
# Runs of requests

A service answers one request after the other, each with the stores that the ones before it left.
A request to a built-in operation changes one store at most, by a step of `Store.Step`
(`wrote_answer`); so stores that hold the entities of their collections hold such entities after any
run of requests (`holdsEntities_afterAll`).
-/

namespace ODataEngine.Service

variable {sv : Service} {c : Collection}

/-! ## Runs -/

/-- The service after it has answered a request. -/
def after (sv : Service) (fresh : String) (request : Request) : Service :=
  { sv with stores := (sv.answer fresh request).2 }

/-- The service after it has answered some requests in order, each with its fresh identifier. -/
def afterAll (sv : Service) (requests : List (String × Request)) : Service :=
  requests.foldl (fun sv (fresh, request) => sv.after fresh request) sv

/-- The request invokes an operation that is not built in. -/
def invokes (sv : Service) (request : Request) : Bool :=
  match (Route.resolve sv.schema sv.site request.method request.path).endpoint with
  | .ok (some (.invoke _)) => true
  | _ => false

theorem ne_invoke_of_resolve {a : Address} {endpoint : Endpoint} {request : Request}
    (h : sv.invokes request = false) (hfound : Route.resolve sv.schema sv.site request.method
      request.path = { address := a, endpoint := .ok (some endpoint) }) (op : Operation) :
    endpoint ≠ .invoke op := by
  rintro rfl
  rw [invokes, hfound] at h
  cases h

/-- Every collection has a store, which holds entities of the collection's type. -/
def HoldsEntities (sv : Service) : Prop :=
  ∀ c ∈ sv.schema.collections, ∃ s, sv.stores.store? c.name = some s ∧ s.Holds c.entity

/-- Stores that are made for a schema hold entities of its collections: none yet. -/
theorem holdsEntities_fill (hsound : sv.schema.Sound) :
    HoldsEntities { sv with stores := sv.schema.fill fun _ => [] } :=
  fun c hc => ⟨_, hsound.store?_fill (fun _ => []) hc, Store.holds_new c.entity⟩

/-! ## What a request changes -/

/-- The stores are those of the service, but for a step of the one of a collection. -/
def Wrote (sv : Service) (c : Collection) (stores : Stores) : Prop :=
  stores = sv.stores ∨
    ∃ s s', sv.stores.store? c.name = some s ∧ s.Step c.entity s' ∧
      stores = sv.stores.put c.name s'

theorem wrote_attempt {α : Type} {result : Except RequestError α} {next : α → Outcome}
    (h : ∀ a, result = .ok a → sv.Wrote c (next a).2) : sv.Wrote c (sv.attempt result next).2 :=
  @keeps_attempt sv (sv.Wrote c) (.inl rfl) _ _ _ h

theorem wrote_create (sv : Service) (fresh : String) (c : Collection) (q : Query)
    (body : Option Json) : sv.Wrote c (sv.create fresh c q body).2 := by
  refine wrote_attempt fun r hr => wrote_attempt fun s hs => ?_
  refine wrote_attempt fun (stored, s') hadd => ?_
  exact .inr ⟨s, s', store?_of_storeOf hs, .add hr (eq_ok_of_during hadd), rfl⟩

theorem wrote_write (sv : Service) (c : Collection) (key : Json) (display : String)
    (body : Option Json) (replacement : Replacement) :
    sv.Wrote c (sv.write c key display body replacement).2 := by
  refine wrote_attempt fun r hr => wrote_attempt fun patch hpatch => ?_
  refine wrote_attempt fun s hs => wrote_attempt fun (stored, s') hupdate => ?_
  exact .inr ⟨s, s', store?_of_storeOf hs, .update hr hpatch (eq_ok_of_atEntity hupdate), rfl⟩

theorem wrote_delete (sv : Service) (c : Collection) (key : Json) (display : String) :
    sv.Wrote c (sv.delete c key display).2 := by
  refine wrote_attempt fun s hs => wrote_attempt fun s' hremove => ?_
  exact .inr ⟨s, s', store?_of_storeOf hs, .remove (eq_ok_of_atEntity hremove), rfl⟩

/-- A built-in endpoint changes at most the store of its collection, by a step. -/
theorem wrote_answerAt (sv : Service) (fresh : String) (a : Address) {endpoint : Endpoint}
    (hbuiltIn : ∀ op, endpoint ≠ .invoke op) (c : Collection) (q : Query) (body : Option Json) :
    sv.Wrote c (sv.answerAt fresh a endpoint c q body).2 := by
  cases endpoint with
  | serviceDocument | metadata | list | count => exact .inl rfl
  | create => exact wrote_create sv fresh c q body
  | get | navigationGet | navigationList => exact wrote_attempt fun key _ => .inl rfl
  | replace | patch => exact wrote_attempt fun key _ => wrote_write sv c key _ body _
  | delete => exact wrote_attempt fun key _ => wrote_delete sv c key _
  | invoke op => exact absurd rfl (hbuiltIn op)

/-- A request to a built-in operation changes nothing, or the store of one collection by a step. -/
theorem wrote_answer (fresh : String) {request : Request} (h : sv.invokes request = false) :
    (sv.answer fresh request).2 = sv.stores ∨
      ∃ c ∈ sv.schema.collections, sv.Wrote c (sv.answer fresh request).2 := by
  rcases answer_cases sv fresh request with
    ⟨result, hresult⟩ | ⟨a, endpoint, hfound, c, hc, -, q, -, hanswer⟩
  · have hsame : sv.answer fresh request = (result, sv.stores) := hresult sv.stores
    rw [hsame]
    exact .inl rfl
  · rw [hanswer]
    exact .inr ⟨c, hc, wrote_answerAt sv fresh a (ne_invoke_of_resolve h hfound) c q _⟩

/-! ## What the stores hold -/

/-- A step of the store of one collection keeps what the stores of all hold. -/
theorem HoldsEntities.wrote (h : sv.HoldsEntities) (hsound : sv.schema.Sound)
    (hkeys : ∀ e ∈ sv.schema.entities, e.HasKeyField) (hc : c ∈ sv.schema.collections)
    {stores : Stores} (hwrote : sv.Wrote c stores) :
    HoldsEntities { sv with stores := stores } := by
  rcases hwrote with rfl | ⟨s, s', hs, hstep, rfl⟩
  · exact h
  intro c' hc'
  have hentity := (hsound.collections c hc).2
  by_cases hname : c'.name = c.name
  · obtain ⟨t, ht, hholds⟩ := h c hc
    have hts : t = s := Option.some.inj (ht.symm.trans hs)
    rw [hts] at hholds
    rw [hsound.eq_of_name_eq hc' hc hname]
    exact ⟨s', Stores.store?_put_self hs s',
      hholds.step (hsound.entities c.entity hentity) (hkeys c.entity hentity) hstep⟩
  · obtain ⟨t, ht, hholds⟩ := h c' hc'
    exact ⟨t, (Stores.store?_put_of_ne sv.stores hname s').trans ht, hholds⟩

/-- A request to a built-in operation keeps what the stores hold, whatever comes of it. -/
theorem HoldsEntities.after (h : sv.HoldsEntities) (hsound : sv.schema.Sound)
    (hkeys : ∀ e ∈ sv.schema.entities, e.HasKeyField) (fresh : String) {request : Request}
    (hbuiltIn : sv.invokes request = false) : (sv.after fresh request).HoldsEntities := by
  rcases wrote_answer fresh hbuiltIn with hsame | ⟨c, hc, hwrote⟩
  · unfold Service.after
    rw [hsame]
    exact h
  · exact h.wrote hsound hkeys hc hwrote

/-- In a service with a built schema whose keys are fields, stores that hold the entities of their
collections do so after every run of requests to built-in operations: each record has declared
members only, with values that may stand in them, and a key that is not null and differs from the
keys of all other records. -/
theorem holdsEntities_afterAll {d : Draft} (hbuild : d.build = .ok sv.schema)
    (hkeys : ∀ e ∈ sv.schema.entities, e.HasKeyField) (hstores : sv.HoldsEntities)
    (requests : List (String × Request)) (hbuiltIn : ∀ r ∈ requests, sv.invokes r.2 = false) :
    (sv.afterAll requests).HoldsEntities := by
  have hsound := Schema.sound_of_build hbuild
  clear hbuild
  -- the schema and the site stay as they are from request to request
  induction requests generalizing sv with
  | nil => exact hstores
  | cons r rest ih =>
    obtain ⟨hr, hrest⟩ := List.forall_mem_cons.1 hbuiltIn
    have hafter := hstores.after hsound hkeys r.1 hr
    exact @ih (sv.after r.1 r.2) hkeys hafter hrest hsound

/-- Two authors are created, the first without a key and the second under a name in another case;
the second is replaced, the first deleted. -/
def libraryRun : List (String × Request) := [
  ("", { method := "POST", path := "/odata/Authors"
         body := some (.object [("name", .string "Ann"), ("@odata.type", .null)]) }),
  ("", { method := "POST", path := "/odata/Authors"
         body := some (.object [("ID", .ofInt 7), ("Favourites", .array [.ofInt 1])]) }),
  ("", { method := "PUT", path := "/odata/Authors(7)"
         body := some (.object [("id", .ofInt 7), ("Name", .string "Bob")]) }),
  ("", { method := "DELETE", path := "/odata/Authors(1)" })]

theorem holdsEntities_afterAll_library :
    ((Library.service fun _ => []).afterAll libraryRun).HoldsEntities ∧
      (((Library.service fun _ => []).afterAll libraryRun).stores.store? "Authors").map
        (·.records.length) = some 1 := by
  refine ⟨?_, by decide +kernel⟩
  refine @holdsEntities_afterAll (Library.service fun _ => []) Library.draft Library.build_draft
    ?_ ?_ libraryRun (by decide +kernel)
  · unfold EntityType.HasKeyField
    decide
  · exact @holdsEntities_fill (Library.service fun _ => []) Library.sound_schema

end ODataEngine.Service
