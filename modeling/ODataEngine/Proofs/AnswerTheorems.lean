import ODataEngine.Proofs.RouteTheorems
import ODataEngine.Service.Answer

/-!
# How a request is answered

Routing a request and reading its query come first and need no store. `Service.answer_cases` splits
the answers there: either the request is settled by then, in the same way for all stores, or an
endpoint is asked at a collection of the schema with a query that was read.
-/

namespace ODataEngine.Service

variable {sv : Service}

theorem attempt_error {α : Type} (sv : Service) (e : RequestError) (next : α → Outcome) :
    sv.attempt (.error e) next = (.error e, sv.stores) := rfl

theorem attempt_ok {α : Type} (sv : Service) (a : α) (next : α → Outcome) :
    sv.attempt (.ok a) next = next a := rfl

theorem attempt_eq_ok {α : Type} {result : Except RequestError α} {next : α → Outcome}
    {response : Response} {stores : Stores} (h : sv.attempt result next = (.ok response, stores)) :
    ∃ a, result = .ok a ∧ next a = (.ok response, stores) := by
  cases result with
  | ok a => exact ⟨a, rfl, h⟩
  | error e => cases h

/-- What holds of the stores before an attempt holds after it, if what is done with a result keeps
it: a failure changes nothing. -/
theorem keeps_attempt {P : Stores → Prop} (h : P sv.stores) {α : Type}
    {result : Except RequestError α} {next : α → Outcome}
    (hnext : ∀ a, result = .ok a → P (next a).2) : P (sv.attempt result next).2 := by
  cases result with
  | ok a => exact hnext a rfl
  | error e => exact h

/-- The documents in which the service describes itself are made at their endpoints only. -/
theorem description?_eq_none_iff {endpoint : Endpoint} :
    sv.description? endpoint = none ↔ endpoint.isDescription = false := by
  cases endpoint <;> simp [description?, Endpoint.isDescription]

theorem key_of_keyAt {a : Address} {key : Json} (h : sv.keyAt a = .ok key) : a.key = some key := by
  unfold keyAt at h
  split at h
  · next found =>
    cases h
    exact found
  · cases h

section

variable {a : Address} {c : Collection} {method : String} {endpoint : Endpoint}
  (h : a.Serves c method endpoint)

include h

/-! No part of the path that an endpoint needs is missing where the address serves it. -/

theorem collectionOf_of_serves (sv : Service) : sv.collectionOf a = .ok c := by
  rw [collectionOf, h.collection]

theorem keyAt_of_serves (sv : Service) (hof : endpoint.isOfEntity = true) :
    ∃ key, sv.keyAt a = .ok key := by
  obtain ⟨-, key, -, hbound⟩ := h.key hof
  exact ⟨key, by rw [keyAt, hbound]⟩

theorem navigationAt_of_serves (sv : Service) (hof : endpoint.isOfNavigation = true) :
    ∃ n, sv.navigationAt a = .ok n := by
  obtain ⟨n, -, hbound, -⟩ := h.navigation hof
  exact ⟨n, by rw [navigationAt, hbound]⟩

end

/-- Where the route is found and the query read, the endpoint is asked. -/
theorem answer_eq_answerAt {request : Request} {a : Address} {endpoint : Endpoint} {c : Collection}
    {q : Query} (hfound : Route.resolve sv.schema sv.site request.method request.path
      = { address := a, endpoint := .ok (some endpoint) })
    (hserves : a.Serves c request.method endpoint)
    (hq : sv.queryAt a endpoint c request.query = .ok q) (fresh : String) :
    sv.answer fresh request = sv.answerAt fresh a endpoint c q request.body := by
  have hnone : sv.description? endpoint = none := description?_eq_none_iff.2 hserves.inCollection
  simp only [answer, hfound, attempt_ok, hnone, collectionOf_of_serves hserves, hq]

/-- A request is settled before any store is asked, or an endpoint is asked with a query at an
address that holds what it needs. -/
theorem answer_cases (sv : Service) (fresh : String) (request : Request) :
    (∃ result, ∀ stores, { sv with stores := stores }.answer fresh request = (result, stores)) ∨
      ∃ a endpoint, Route.resolve sv.schema sv.site request.method request.path
          = { address := a, endpoint := .ok (some endpoint) } ∧
        ∃ c ∈ sv.schema.collections, a.Serves c request.method endpoint ∧
          ∃ q, sv.queryAt a endpoint c request.query = .ok q ∧
            sv.answer fresh request = sv.answerAt fresh a endpoint c q request.body := by
  cases hfound : Route.resolve sv.schema sv.site request.method request.path with
  | mk a endpoint =>
  rcases endpoint with e | _ | endpoint
  · exact .inl ⟨.error e, fun stores => by simp only [answer, hfound, attempt_error]⟩
  · exact .inl ⟨_, fun stores => by simp only [answer, hfound, attempt_ok]; rfl⟩
  have hendpoint := Route.serves_resolve (congrArg Route.Resolution.endpoint hfound)
  rw [hfound] at hendpoint
  rcases hendpoint with hdescribes | ⟨c, hc, hserves⟩
  · cases hdescription : sv.description? endpoint with
    | none =>
      rw [description?_eq_none_iff.1 hdescription] at hdescribes
      cases hdescribes
    | some document =>
      have hsame : ∀ stores, ({ sv with stores := stores } : Service).description? endpoint
          = some document := fun _ => hdescription
      exact .inl ⟨_, fun stores => by simp only [answer, hfound, attempt_ok, hsame]; rfl⟩
  · have hnone : ∀ stores, ({ sv with stores := stores } : Service).description? endpoint = none :=
      fun _ => description?_eq_none_iff.2 hserves.inCollection
    cases hquery : sv.queryAt a endpoint c request.query with
    | error e =>
      have hsame : ∀ stores, ({ sv with stores := stores } : Service).queryAt a endpoint c
          request.query = .error e := fun _ => hquery
      exact .inl ⟨.error e, fun stores => by
        simp only [answer, hfound, attempt_ok, hnone, collectionOf_of_serves hserves, hsame,
          attempt_error]⟩
    | ok q =>
      exact .inr ⟨a, endpoint, rfl, c, hc, hserves, q, hquery,
        answer_eq_answerAt hfound hserves hquery fresh⟩

/-- A request that succeeds asked for a document of the service itself, or it asked an endpoint. -/
theorem answer_ok_cases {fresh : String} {request : Request} {response : Response} {stores : Stores}
    (h : sv.answer fresh request = (.ok response, stores)) :
    (∃ endpoint document, (Route.resolve sv.schema sv.site request.method request.path).endpoint
        = .ok (some endpoint) ∧ sv.description? endpoint = some document ∧
        response = { payload := .json document }) ∨
      ∃ a endpoint, Route.resolve sv.schema sv.site request.method request.path
          = { address := a, endpoint := .ok (some endpoint) } ∧
        ∃ c ∈ sv.schema.collections, a.Serves c request.method endpoint ∧
          ∃ q, sv.queryAt a endpoint c request.query = .ok q ∧
            sv.answerAt fresh a endpoint c q request.body = (.ok response, stores) := by
  unfold answer at h
  extract_lets found at h
  obtain ⟨endpoint, hfound, h⟩ := attempt_eq_ok h
  cases endpoint with
  | none => cases h
  | some endpoint =>
    cases hdescription : sv.description? endpoint with
    | some document =>
      simp only [hdescription] at h
      cases h
      exact .inl ⟨endpoint, document, hfound, hdescription, rfl⟩
    | none =>
      simp only [hdescription] at h
      obtain ⟨c, hcollection, h⟩ := attempt_eq_ok h
      obtain ⟨q, hq, h⟩ := attempt_eq_ok h
      have hserves := Route.serves_resolve hfound
      rw [description?_eq_none_iff.1 hdescription] at hserves
      obtain ⟨c', hc', hserves⟩ := hserves.resolve_left Bool.false_ne_true
      obtain rfl := Except.ok.inj ((collectionOf_of_serves hserves sv).symm.trans hcollection)
      have hresolution : found = { address := found.address, endpoint := .ok (some endpoint) } := by
        rw [← hfound]
      exact .inr ⟨found.address, endpoint, hresolution, c', hc', hserves, q, hq, h⟩

end ODataEngine.Service
