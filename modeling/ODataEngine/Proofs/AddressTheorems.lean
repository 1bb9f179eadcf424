import ODataEngine.Proofs.FailureTheorems
import ODataEngine.Proofs.FaultTheorems

/-!
# Requests that lead nowhere

Parts of a path that an endpoint needs are read from the address, and a part that is not there would
count as a path that leads nowhere. It never comes to that: an address holds what its endpoint needs
(`Route.serves_resolve`), so only a request whose method and path ask for nothing is told that there
is no route (`Service.resolve_binds_endpoint`).
-/

namespace ODataEngine

/-- The failure of a request that leads nowhere. -/
def RequestError.IsNoRoute (e : RequestError) : Prop :=
  ∃ method path, e = .routeNotFound method path

namespace Service

variable {sv : Service} {c : Collection} {a : Address} {method : String} {endpoint : Endpoint}

theorem not_isNoRoute_of_isQueryFault {e : RequestError} (h : e.isQueryFault = true) :
    ¬ e.IsNoRoute := by
  rintro ⟨method, path, rfl⟩
  cases h

/-- Once a query was read, no request leads nowhere if every collection has a store. -/
theorem LateFailure.not_isNoRoute (hstores : sv.HasStores) {text : String} {e : RequestError}
    (h : sv.LateFailure text e) : ¬ e.IsNoRoute := by
  rintro ⟨method, path, hnoRoute⟩
  cases h with
  | body | entity | storage | operation => cases hnoRoute
  | noStore hc hnone =>
    obtain ⟨s, hs⟩ := hstores _ hc
    cases hs.symm.trans hnone
  | strayed _ hfault => exact not_isNoRoute_of_isQueryFault hfault ⟨method, path, hnoRoute⟩

/-- An address that serves an endpoint holds what its query is read for. -/
theorem failsOnly_queryAt (ha : a.Serves c method endpoint) (query : String) :
    FailsOnly (¬ ·.IsNoRoute) (sv.queryAt a endpoint c query) := by
  have hread : ∀ e, FailsOnly (¬ ·.IsNoRoute) (Query.ofString sv.limits sv.schema e query) :=
    fun e => (Query.faultsOnly_ofOptions _ _ e _).mono fun _ => not_isNoRoute_of_isQueryFault
  have hnavigation : endpoint.isOfNavigation = true → FailsOnly (¬ ·.IsNoRoute) (do
      let target ← sv.targetOf c.entity (← sv.navigationAt a)
      Query.ofString sv.limits sv.schema target.entity query) := by
    intro hof
    obtain ⟨n, hn⟩ := navigationAt_of_serves ha sv hof
    rw [hn, ok_bind]
    refine .bind ?_ fun target _ => hread target.entity
    unfold targetOf
    split
    · exact .ok _
    · exact .error (not_isNoRoute_of_isQueryFault rfl)
  cases endpoint with
  | navigationGet | navigationList => exact hnavigation rfl
  | serviceDocument | metadata | list | count | create | get | replace | patch | delete | invoke =>
    exact hread c.entity

/-- A request for something is never told that there is no route. -/
theorem not_isNoRoute_of_resolve (hsound : sv.schema.Sound) (hstores : sv.HasStores)
    (fresh : String) {request : Request}
    (h : (Route.resolve sv.schema sv.site request.method request.path).endpoint ≠ .ok none) :
    FailsOnly (¬ ·.IsNoRoute) (sv.answer fresh request).1 := by
  unfold answer
  extract_lets found
  refine failsOnly_attempt ?_ fun endpoint hendpoint => ?_
  · refine (Route.failsOnly_resolve _ _ _ _).mono ?_
    rintro _ ⟨collection, literal, reason, rfl⟩ ⟨method, path, hnoRoute⟩
    cases hnoRoute
  · cases endpoint with
    | none => exact absurd hendpoint h
    | some endpoint =>
      rcases Route.serves_resolve hendpoint with hdescribes | ⟨c, hc, hserves⟩
      · cases endpoint <;> first | exact .ok _ | cases hdescribes
      · have hcollection : sv.collectionOf found.address = .ok c :=
          collectionOf_of_serves hserves sv
        simp only [description?_eq_none_iff.2 hserves.inCollection, hcollection, attempt_ok]
        refine failsOnly_attempt (failsOnly_queryAt hserves request.query) fun q hq => ?_
        have hlate := failsLate_answerAt hsound hc hserves hq fresh request.body
        exact hlate.mono fun _ hfails => hfails.not_isNoRoute hstores

/-- In a service with a built schema and a store for every collection, an endpoint that a method and
a path lead to finds at its address what it needs: a collection with its store, and there a key, a
navigation property or an operation that fit the collection and the endpoint. So a request is told
that there is no route just if its method and path ask for nothing. -/
theorem resolve_binds_endpoint {d : Draft} (hbuild : d.build = .ok sv.schema)
    (hstores : sv.HasStores) (request : Request) :
    (∀ endpoint,
      (Route.resolve sv.schema sv.site request.method request.path).endpoint = .ok (some endpoint) →
        endpoint.isDescription = true ∨
        ∃ c ∈ sv.schema.collections,
          (∃ s, sv.storeOf c = .ok s ∧ sv.stores.store? c.name = some s) ∧
          (Route.resolve sv.schema sv.site request.method request.path).address.Serves c
            request.method endpoint) ∧
      ∀ fresh method path, (sv.answer fresh request).1 = .error (.routeNotFound method path) ↔
        (Route.resolve sv.schema sv.site request.method request.path).endpoint = .ok none ∧
          method = request.method ∧ path = request.path := by
  refine ⟨fun endpoint hendpoint => ?_, fun fresh method path => ?_⟩
  · refine (Route.serves_resolve hendpoint).imp_right ?_
    rintro ⟨c, hc, hserves⟩
    obtain ⟨s, hs⟩ := hstores c hc
    exact ⟨c, hc, ⟨s, by rw [storeOf, hs], hs⟩, hserves⟩
  · have hnone : (Route.resolve sv.schema sv.site request.method request.path).endpoint = .ok none →
        (sv.answer fresh request).1 = .error (.routeNotFound request.method request.path) := by
      intro h
      simp only [answer, h, attempt_ok]
      rfl
    constructor
    · intro h
      by_cases hendpoint :
          (Route.resolve sv.schema sv.site request.method request.path).endpoint = .ok none
      · obtain ⟨hmethod, hpath⟩ :=
          RequestError.routeNotFound.inj (Except.error.inj (h.symm.trans (hnone hendpoint)))
        exact ⟨hendpoint, hmethod, hpath⟩
      · have hsound := Schema.sound_of_build hbuild
        exact absurd ⟨method, path, rfl⟩
          (not_isNoRoute_of_resolve hsound hstores fresh hendpoint _ h)
    · rintro ⟨hendpoint, rfl, rfl⟩
      exact hnone hendpoint

end Service

namespace Library

/-! ## A library that lends its books -/

/-- Lending a book. -/
def lend : Operation := { name := "Lend", kind := .action, binding := .entity, handler := "lend" }

/-- The library with an operation on its books. -/
def lendingDraft : Draft := { draft with operations := [("Books", lend)] }

/-- The schema of the lending library. -/
def lendingSchema : Schema :=
  { schema with collections := [authors, { books with operations := [lend] }, shelves] }

/-- The lending library, empty. -/
def lending : Service := { service fun _ => [] with schema := lendingSchema }

theorem build_lendingDraft : lendingDraft.build = .ok lendingSchema := rfl

theorem hasStores_lending : lending.HasStores := by
  intro c hc
  have hall : lendingSchema.collections.all fun c => (lending.stores.store? c.name).isSome := by
    decide
  exact Option.isSome_iff_exists.1 (List.all_eq_true.1 hall c hc)

/-- A book is lent at its address, and what is no part of it is not found there. -/
theorem lend_bound :
    (∃ c ∈ lending.schema.collections, (∃ s, lending.storeOf c = .ok s) ∧
      Address.Serves
        (Route.resolve lending.schema lending.site "POST" "/odata/Books(1)/Library.Lend()").address
        c "POST" (.invoke lend)) ∧
      (lending.answer "" { method := "GET", path := "/odata/Books(1)/Lend" }).1
        = .error (.routeNotFound "GET" "/odata/Books(1)/Lend") := by
  have hbinds := @Service.resolve_binds_endpoint lending lendingDraft build_lendingDraft
    hasStores_lending
  constructor
  · rcases (hbinds { method := "POST", path := "/odata/Books(1)/Library.Lend()" }).1
      (.invoke lend) (by decide +kernel) with hdescribes | ⟨c, hc, ⟨s, hs, -⟩, hserves⟩
    · cases hdescribes
    · exact ⟨c, hc, ⟨s, hs⟩, hserves⟩
  · exact ((hbinds _).2 "" _ _).2 ⟨by decide +kernel, rfl, rfl⟩

end Library

end ODataEngine
