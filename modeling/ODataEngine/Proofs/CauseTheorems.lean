import ODataEngine.Http.Respond
import ODataEngine.Proofs.AddressTheorems
import ODataEngine.Proofs.NavigationTheorems

/-!
# What clients are not told

A store may fail for reasons of its own and an operation for any reason; the causes behind such
failures stay in the server. That is a statement about two runs: services that differ only in these
causes go through every request in the same way, up to the failure they end with, and a problem
document does not show in which causes two failures differ. So the responses are the same, on every
route and at every depth of expansion (`Http.respond_alike`).

Operations are handed a store and meet its failures themselves. They differ only in causes if both
succeed in the same way or both fail, when called with stores that differ only in causes.
-/

namespace ODataEngine

/-! ## Failures without their causes -/

/-- The store error without the causes behind it. -/
def StoreError.withoutCauses : StoreError → StoreError
  | backend _ => backend []
  | e => e

/-- The store errors differ at most in the causes behind them. -/
def StoreError.Alike (e e' : StoreError) : Prop := e.withoutCauses = e'.withoutCauses

/-- The failure without the causes behind it. -/
def RequestError.withoutCauses : RequestError → RequestError
  | storage call collection key cause => storage call collection key cause.withoutCauses
  | operationFailed name _ => operationFailed name []
  | e => e

/-- The failures differ at most in the causes behind them. -/
def RequestError.Alike (e e' : RequestError) : Prop := e.withoutCauses = e'.withoutCauses

instance : Std.Refl StoreError.Alike := ⟨fun _ => rfl⟩

instance : Std.Refl RequestError.Alike := ⟨fun _ => rfl⟩

/-- The causes behind a failure do not show in its problem document. -/
theorem Problem.ofError_withoutCauses (e : RequestError) (path : String) (trace : Option String) :
    Problem.ofError e.withoutCauses path trace = Problem.ofError e path trace := by
  cases e with
  | storage call collection key cause => cases cause <;> rfl
  | _ => rfl

theorem Problem.ofError_alike {e e' : RequestError} (h : e.Alike e') (path : String)
    (trace : Option String) : Problem.ofError e path trace = Problem.ofError e' path trace := by
  rw [← ofError_withoutCauses e, h, ofError_withoutCauses]

/-! ## Stores -/

/-- The stores differ at most in the causes of their refusals. -/
inductive Store.Alike (s : Store) : Store → Prop where
  | intro {refuses : StoreCall → Option StoreError}
    (h : ∀ call, (s.refuses call).map (·.withoutCauses) = (refuses call).map (·.withoutCauses)) :
    Alike s { s with refuses := refuses }

namespace Store

variable {s s' : Store}

/-- A result with a store after it: the results are the same and the stores alike. -/
def DoneAlike {α : Type} (done done' : α × Store) : Prop := done.1 = done'.1 ∧ done.2.Alike done'.2

theorem Alike.guarded {α β : Type} {S : α → β → Prop} (h : s.Alike s') (call : StoreCall)
    {x : Except StoreError α} {y : Except StoreError β} (hxy : Paired StoreError.Alike S x y) :
    Paired StoreError.Alike S (s.guarded call x) (s'.guarded call y) := by
  cases h with
  | @intro refuses hrefuses =>
    have hcall := hrefuses call
    unfold Store.guarded
    cases hs : s.refuses call with
    | none =>
      rw [hs] at hcall
      simp only [Option.map_eq_none_iff.1 hcall.symm]
      exact hxy
    | some e =>
      rw [hs] at hcall
      obtain ⟨e', he', hsame⟩ := Option.map_eq_some_iff.1 hcall.symm
      simp only [he']
      exact .error hsame.symm

theorem Alike.find (h : s.Alike s') (q : Query) :
    Paired StoreError.Alike Eq (s.find q) (s'.find q) :=
  h.guarded (.find q) (.ok (by cases h; rfl))

theorem Alike.count (h : s.Alike s') (p : Predicate) :
    Paired StoreError.Alike Eq (s.count p) (s'.count p) :=
  h.guarded (.count p) (.ok (by cases h; rfl))

theorem Alike.get (h : s.Alike s') (key : Json) (select : List String) :
    Paired StoreError.Alike Eq (s.get key select) (s'.get key select) :=
  h.guarded (.get key select) (.ok (by cases h; rfl))

theorem Alike.add (h : s.Alike s') (fresh : String) (r : Record) :
    Paired StoreError.Alike DoneAlike (s.add fresh r) (s'.add fresh r) := by
  refine h.guarded (.add r) ?_
  cases h with
  | intro hrefuses =>
    -- the key is that of the record or the next one, the same in both stores
    refine .ite (.bind_eq (.refl _) fun key => ?_) (.bind_eq (.refl _) fun key => ?_)
    · exact .ite (.error rfl) (.ok ⟨rfl, .intro hrefuses⟩)
    · exact .ite (.error rfl) (.ok ⟨rfl, .intro hrefuses⟩)

theorem Alike.lookup? (h : s.Alike s') (key : Json) : s'.lookup? key = s.lookup? key := by
  cases h
  rfl

theorem Alike.update (h : s.Alike s') (key : Json) (patch : Record) :
    Paired StoreError.Alike DoneAlike (s.update key patch) (s'.update key patch) := by
  refine h.guarded (.update key patch) ?_
  rw [h.lookup? key]
  cases s.lookup? key with
  | none => exact .error rfl
  | some r =>
    cases h with
    | intro hrefuses => exact .ite (.error rfl) (.ok ⟨rfl, .intro hrefuses⟩)

theorem Alike.remove (h : s.Alike s') (key : Json) :
    Paired StoreError.Alike Alike (s.remove key) (s'.remove key) := by
  refine h.guarded (.remove key) ?_
  rw [h.lookup? key]
  cases s.lookup? key with
  | none => exact .error rfl
  | some r =>
    cases h with
    | intro hrefuses => exact .ok (.intro hrefuses)

end Store

/-- Following a link asks for the same records. -/
theorem Navigation.follow_alike {s s' : Store} (h : s.Alike s') (n : Navigation) (base : Record)
    (q : Query) : Paired StoreError.Alike Eq (n.follow base s q) (n.follow base s' q) := by
  unfold Navigation.follow Link.resolve
  cases n.link.condition? base with
  | none => exact .ok rfl
  | some p => exact (h.find { q with filter := p.conj q.filter }).map _

namespace Stores

/-- Stores of the same collections that are alike, one by one. -/
def Alike (stores stores' : Stores) : Prop :=
  List.Forall₂ (fun entry entry' => entry.1 = entry'.1 ∧ entry.2.Alike entry'.2) stores stores'

variable {stores stores' : Stores}

theorem Alike.refl (stores : Stores) : stores.Alike stores :=
  List.forall₂_same.2 fun _ _ => ⟨rfl, .intro fun _ => rfl⟩

theorem Alike.store? (h : stores.Alike stores') (name : String) :
    Option.Rel Store.Alike (stores.store? name) (stores'.store? name) := by
  induction h with
  | nil => exact .none
  | @cons entry entry' rest rest' hentry hrest ih =>
    obtain ⟨n, s⟩ := entry
    obtain ⟨n', s'⟩ := entry'
    obtain ⟨rfl, hs⟩ := hentry
    unfold Stores.store? at ih ⊢
    rw [List.lookup_cons, List.lookup_cons]
    cases name == n with
    | true => exact .some hs
    | false => exact ih

theorem Alike.put (h : stores.Alike stores') (name : String) {s s' : Store} (hs : s.Alike s') :
    Alike (stores.put name s) (stores'.put name s') := by
  induction h with
  | nil => exact .nil
  | @cons entry entry' rest rest' hentry hrest ih =>
    obtain ⟨n, t⟩ := entry
    obtain ⟨n', t'⟩ := entry'
    obtain ⟨rfl, ht⟩ := hentry
    unfold Stores.put
    by_cases hname : n = name
    · rw [if_pos hname, if_pos hname]
      exact .cons ⟨rfl, hs⟩ hrest
    · rw [if_neg hname, if_neg hname]
      exact .cons ⟨rfl, ht⟩ ih

end Stores

/-! ## Services -/

/-- The handlers of operations differ at most in the causes of their failures: called with stores
that are alike, both succeed in the same way or both fail. -/
def HandlersAlike (handlers handlers' : String → Handler) : Prop :=
  ∀ name (invocation : Invocation) store', invocation.store.Alike store' →
    Paired (fun _ _ => True) Store.DoneAlike (handlers name invocation)
      (handlers' name { invocation with store := store' })

/-- The service with other stores and other handlers. -/
def Service.withParts (sv : Service) (stores : Stores) (handlers : String → Handler) : Service :=
  { sv with stores := stores, handlers := handlers }

/-- The services differ at most in the causes of the failures of their stores and operations. -/
inductive Service.Alike (sv : Service) : Service → Prop where
  | intro {stores : Stores} {handlers : String → Handler} (hstores : sv.stores.Alike stores)
    (hhandlers : HandlersAlike sv.handlers handlers) : Alike sv (sv.withParts stores handlers)

/-- A step of a request that goes the same way in both services. -/
abbrev StepsAlike {α : Type} (x y : Except RequestError α) : Prop :=
  Paired RequestError.Alike Eq x y

theorem StoreError.during_alike {α β : Type} {S : α → β → Prop} {x : Except StoreError α}
    {y : Except StoreError β} (h : Paired StoreError.Alike S x y) (call collection : String)
    (key : Option String) :
    Paired RequestError.Alike S (during call collection key x) (during call collection key y) := by
  cases h with
  | ok h => exact .ok h
  | error h => exact .error (congrArg (RequestError.storage call collection key) h)

theorem StoreError.atEntity_alike {α β : Type} {S : α → β → Prop} {x : Except StoreError α}
    {y : Except StoreError β} (h : Paired StoreError.Alike S x y) (call collection key : String) :
    Paired RequestError.Alike S (atEntity call collection key x)
      (atEntity call collection key y) := by
  cases h with
  | ok h => exact .ok h
  | @error e e' h =>
    cases e <;> cases e' <;> first
      | exact .error rfl
      | exact .error (congrArg (RequestError.storage call collection (some key)) h)
      | cases h

namespace Service

variable {sv : Service} {stores : Stores} {handlers : String → Handler}

section

variable (hstores : sv.stores.Alike stores)

include hstores

theorem storeOf_alike (c : Collection) :
    Paired RequestError.Alike Store.Alike (sv.storeOf c)
      ((sv.withParts stores handlers).storeOf c) := by
  have hfound := hstores.store? c.name
  simp only [storeOf, withParts]
  generalize sv.stores.store? c.name = found at hfound ⊢
  generalize stores.store? c.name = found' at hfound ⊢
  cases hfound with
  | none => exact .error rfl
  | some hs => exact .ok hs

/-! ## Reading -/

theorem expand_alike (c : Collection) (q : Query) (r : Record) (n : Navigation) (item : ExpandItem)
    {document document' : Collection → Query → Record → Except RequestError Record}
    (hdocument : ∀ target sub row,
      StepsAlike (document target sub row) (document' target sub row)) :
    StepsAlike (expand sv c q r document n item)
      (expand (sv.withParts stores handlers) c q r document' n item) := by
  refine .bind_eq (.refl _) fun target => .bind_eq (.refl _) fun sub => ?_
  refine .bind (storeOf_alike hstores target) fun s s' hs => ?_
  refine .bind_eq (StoreError.during_alike (n.follow_alike hs r _) _ _ _) fun rows => ?_
  exact .bind_eq (.mapM (hdocument target sub) rows) fun entities => .refl _

theorem entityDocument_alike (levels : Nat) (c : Collection) (q : Query) (r : Record) :
    StepsAlike (sv.entityDocument levels c q r)
      ((sv.withParts stores handlers).entityDocument levels c q r) := by
  induction levels generalizing c q r with
  | zero => exact .ok rfl
  | succ levels ih =>
    refine .bind_eq (.refl _) fun items => .bind_eq (.refl _) fun found => ?_
    exact .bind_eq (.mapM (fun f => expand_alike hstores c q r f.1 f.2 ih) found) fun _ => .refl _

theorem entity_alike (c : Collection) (q : Query) (r : Record) :
    StepsAlike (sv.entity c q r) ((sv.withParts stores handlers).entity c q r) :=
  entityDocument_alike hstores _ c q r

theorem list_alike (c : Collection) (q : Query) :
    StepsAlike (sv.list c q) ((sv.withParts stores handlers).list c q) := by
  refine .bind (storeOf_alike hstores c) fun s s' hs => ?_
  refine .bind_eq (StoreError.during_alike (hs.count q.filter) _ _ _) fun count => ?_
  refine .bind_eq (StoreError.during_alike (hs.find _) _ _ _) fun rows => ?_
  exact .bind_eq (.mapM (entity_alike hstores c q) rows) fun _ => .refl _

theorem count_alike (c : Collection) (q : Query) :
    StepsAlike (sv.count c q) ((sv.withParts stores handlers).count c q) := by
  refine .bind (storeOf_alike hstores c) fun s s' hs => ?_
  exact .bind_eq (StoreError.during_alike (hs.count q.filter) _ _ _) fun _ => .refl _

theorem fetch_alike (c : Collection) (key : Json) (display : String) :
    StepsAlike (sv.fetch c key display) ((sv.withParts stores handlers).fetch c key display) := by
  refine .bind (storeOf_alike hstores c) fun s s' hs => ?_
  exact .bind_eq (StoreError.atEntity_alike (hs.get key []) _ _ _) fun _ => .refl _

theorem get_alike (c : Collection) (key : Json) (display : String) (q : Query) :
    StepsAlike (sv.get c key display q) ((sv.withParts stores handlers).get c key display q) :=
  .bind_eq (fetch_alike hstores c key display) fun r =>
    .bind_eq (entity_alike hstores c q r) fun _ => .refl _

theorem navigate_alike (c : Collection) (key : Json) (display : String) (n : Navigation)
    (q : Query) :
    StepsAlike (sv.navigate c key display n q)
      ((sv.withParts stores handlers).navigate c key display n q) := by
  refine .bind_eq (.refl _) fun target => ?_
  refine .bind_eq (fetch_alike hstores c key display) fun base => ?_
  refine .bind (storeOf_alike hstores target) fun s s' hs => ?_
  refine .bind_eq (StoreError.during_alike (n.follow_alike hs base _) _ _ _) fun rows => ?_
  split
  · exact .bind_eq (.mapM (entity_alike hstores target q) _) fun _ => .refl _
  · exact .bind_eq (entity_alike hstores target q _) fun _ => .refl _
  · exact .refl _

theorem created_alike (c : Collection) (q : Query) (r : Record) :
    StepsAlike (sv.created c q r) ((sv.withParts stores handlers).created c q r) :=
  .bind_eq (entity_alike hstores c q r) fun _ => .refl _

end

end Service

/-! ## Outcomes -/

/-- The outcomes are the same but for the causes of a failure, and leave stores that are alike. -/
structure Outcome.Alike (o o' : Outcome) : Prop where
  result : StepsAlike o.1 o'.1
  stores : o.2.Alike o'.2

namespace Service

variable {sv : Service} {stores : Stores} {handlers : String → Handler}

section

variable (hstores : sv.stores.Alike stores)

include hstores

theorem unchanged_alike {x y : Except RequestError Response} (h : StepsAlike x y) :
    (sv.unchanged x).Alike ((sv.withParts stores handlers).unchanged y) := ⟨h, hstores⟩

theorem attempt_alike {α β : Type} {S : α → β → Prop} {x : Except RequestError α}
    {y : Except RequestError β} {next : α → Outcome} {next' : β → Outcome}
    (h : Paired RequestError.Alike S x y)
    (hnext : ∀ a b, S a b → (next a).Alike (next' b)) :
    (sv.attempt x next).Alike ((sv.withParts stores handlers).attempt y next') := by
  cases h with
  | ok h => exact hnext _ _ h
  | error h => exact ⟨.error h, hstores⟩

theorem attempt_eq_alike {α : Type} {x y : Except RequestError α} {next next' : α → Outcome}
    (h : StepsAlike x y) (hnext : ∀ a, (next a).Alike (next' a)) :
    (sv.attempt x next).Alike ((sv.withParts stores handlers).attempt y next') := by
  refine attempt_alike hstores h fun a b hab => ?_
  subst hab
  exact hnext a

/-! ## Writing -/

theorem create_alike (fresh : String) (c : Collection) (q : Query) (body : Option Json) :
    (sv.create fresh c q body).Alike ((sv.withParts stores handlers).create fresh c q body) := by
  refine attempt_eq_alike hstores (.refl _) fun r => ?_
  refine attempt_alike hstores (storeOf_alike hstores c) fun s s' hs => ?_
  refine attempt_alike hstores (StoreError.during_alike (hs.add fresh r) _ _ _) ?_
  rintro ⟨r, t⟩ ⟨r', t'⟩ ⟨rfl, ht⟩
  -- the new entity is shown with the stores as they are by then
  have hput : (sv.withStore c t).stores.Alike (stores.put c.name t') := hstores.put c.name ht
  exact unchanged_alike hput (created_alike hput c q r)

theorem write_alike (c : Collection) (key : Json) (display : String) (body : Option Json)
    (replacement : Replacement) :
    (sv.write c key display body replacement).Alike
      ((sv.withParts stores handlers).write c key display body replacement) := by
  refine attempt_eq_alike hstores (.refl _) fun r => ?_
  refine attempt_eq_alike hstores (.refl _) fun patch => ?_
  refine attempt_alike hstores (storeOf_alike hstores c) fun s s' hs => ?_
  refine attempt_alike hstores (StoreError.atEntity_alike (hs.update key patch) _ _ _) ?_
  rintro ⟨r, t⟩ ⟨r', t'⟩ ⟨-, ht⟩
  exact ⟨.refl _, hstores.put c.name ht⟩

theorem delete_alike (c : Collection) (key : Json) (display : String) :
    (sv.delete c key display).Alike ((sv.withParts stores handlers).delete c key display) := by
  refine attempt_alike hstores (storeOf_alike hstores c) fun s s' hs => ?_
  refine attempt_alike hstores (StoreError.atEntity_alike (hs.remove key) _ _ _) fun t t' ht => ?_
  exact ⟨.refl _, hstores.put c.name ht⟩

theorem invoke_alike (hhandlers : HandlersAlike sv.handlers handlers) (c : Collection) (a : Address)
    (op : Operation) (q : Query) (body : Option Json) :
    (sv.invoke c a op q body).Alike ((sv.withParts stores handlers).invoke c a op q body) := by
  refine attempt_alike hstores (storeOf_alike hstores c) fun s s' hs => ?_
  have hdone := hhandlers op.handler
    { site := sv.site, limits := sv.limits, address := a, query := q, body := body, store := s }
    s' hs
  simp only [withParts]
  generalize sv.handlers op.handler _ = x at hdone ⊢
  generalize handlers op.handler _ = y at hdone ⊢
  cases hdone with
  | @ok done done' h =>
    obtain ⟨result, t⟩ := done
    obtain ⟨result', t'⟩ := done'
    obtain ⟨rfl, ht⟩ := h
    exact ⟨.refl _, hstores.put c.name ht⟩
  | error _ => exact ⟨.error rfl, hstores⟩

/-! ## Requests -/

theorem answerAt_alike (hhandlers : HandlersAlike sv.handlers handlers) (fresh : String)
    (a : Address) (endpoint : Endpoint) (c : Collection) (q : Query) (body : Option Json) :
    (sv.answerAt fresh a endpoint c q body).Alike
      ((sv.withParts stores handlers).answerAt fresh a endpoint c q body) := by
  cases endpoint with
  | serviceDocument | metadata => exact unchanged_alike hstores (.refl _)
  | list => exact unchanged_alike hstores (list_alike hstores c q)
  | count => exact unchanged_alike hstores (count_alike hstores c q)
  | create => exact create_alike hstores fresh c q body
  | get =>
    exact attempt_eq_alike hstores (.refl _) fun key =>
      unchanged_alike hstores (get_alike hstores c key _ q)
  | replace | patch =>
    exact attempt_eq_alike hstores (.refl _) fun key => write_alike hstores c key _ body _
  | delete => exact attempt_eq_alike hstores (.refl _) fun key => delete_alike hstores c key _
  | navigationGet | navigationList =>
    refine attempt_eq_alike hstores (.refl _) fun key => unchanged_alike hstores ?_
    exact .bind_eq (.refl _) fun n => navigate_alike hstores c key _ n q
  | invoke op => exact invoke_alike hstores hhandlers c a op q body

theorem answer_alike (hhandlers : HandlersAlike sv.handlers handlers) (fresh : String)
    (request : Request) :
    (sv.answer fresh request).Alike ((sv.withParts stores handlers).answer fresh request) := by
  refine attempt_eq_alike hstores (.refl _) fun endpoint => ?_
  cases endpoint with
  | none => exact unchanged_alike hstores (.refl _)
  | some endpoint =>
    have hsame : (sv.withParts stores handlers).description? endpoint
        = sv.description? endpoint := rfl
    simp only [hsame]
    cases sv.description? endpoint with
    | some document => exact unchanged_alike hstores (.refl _)
    | none =>
      refine attempt_eq_alike hstores (.refl _) fun c => ?_
      refine attempt_eq_alike hstores (.refl _) fun q => ?_
      exact answerAt_alike hstores hhandlers fresh _ endpoint c q request.body

end

end Service

namespace Http

variable {sv sv' : Service}

theorem outcome_alike (h : sv.Alike sv') (fresh : String) (request : Request) :
    (outcome sv fresh request).Alike (outcome sv' fresh request) := by
  cases h with
  | intro hstores hhandlers =>
    exact Service.attempt_eq_alike hstores (.refl _) fun body =>
      Service.answer_alike hstores hhandlers fresh _

/-- Outcomes that are alike make the same message. -/
theorem outcomeResponse_alike {x y : Except RequestError ODataEngine.Response} (h : StepsAlike x y)
    (request : Request) (trace : Option String) :
    outcomeResponse request trace x = outcomeResponse request trace y := by
  cases h with
  | ok h => rw [h]
  | error h =>
    exact congrArg problemResponse (Problem.ofError_alike h request.uri.path trace)

/-- Services that differ at most in the causes of failures respond to a request in the same way, and
such services they stay. -/
theorem respond_step (h : sv.Alike sv') (origins : List String) (fresh : String)
    (trace : Option String) (request : Request) :
    (respond sv origins fresh trace request).1 = (respond sv' origins fresh trace request).1 ∧
      { sv with stores := (respond sv origins fresh trace request).2 }.Alike
        { sv' with stores := (respond sv' origins fresh trace request).2 } := by
  have houtcome := outcome_alike h fresh request
  have hresponse := outcomeResponse_alike houtcome.result request trace
  cases h with
  | intro hstores hhandlers =>
    unfold respond
    split
    · exact ⟨rfl, .intro hstores hhandlers⟩
    · exact ⟨by simp only [hresponse], .intro houtcome.stores hhandlers⟩

/-- The responses to requests that come in one after the other, each with its fresh identifier and
its name in problem documents. -/
def responses (sv : Service) (origins : List String) :
    List (String × Option String × Request) → List Response
  | [] => []
  | (fresh, trace, request) :: rest =>
    let responded := respond sv origins fresh trace request
    responded.1 :: responses { sv with stores := responded.2 } origins rest

theorem responses_eq (h : sv.Alike sv') (origins : List String)
    (requests : List (String × Option String × Request)) :
    responses sv origins requests = responses sv' origins requests := by
  induction requests generalizing sv sv' with
  | nil => rfl
  | cons first rest ih =>
    obtain ⟨fresh, trace, request⟩ := first
    obtain ⟨hresponse, hafter⟩ := respond_step h origins fresh trace request
    exact congrArg₂ List.cons hresponse (ih hafter)

/-- Services that differ at most in the causes behind the failures of their stores and operations
cannot be told apart: they make the same message of a request, respond to it in the same way, and
so on through any run of requests. No cause of such a failure reaches a client. -/
theorem respond_alike (h : sv.Alike sv') (origins : List String) :
    (∀ fresh trace request,
      outcomeResponse request trace (outcome sv fresh request).1
          = outcomeResponse request trace (outcome sv' fresh request).1 ∧
        (respond sv origins fresh trace request).1 = (respond sv' origins fresh trace request).1) ∧
      ∀ requests, responses sv origins requests = responses sv' origins requests := by
  refine ⟨fun fresh trace request => ⟨?_, ?_⟩, responses_eq h origins⟩
  · exact outcomeResponse_alike (outcome_alike h fresh request).result request trace
  · exact (respond_step h origins fresh trace request).1

end Http

namespace Library

/-! ## A library in trouble -/

/-- The store of the authors, where no author can be found. -/
def lostTo (causes : CauseChain) : Store :=
  { Store.new authors.entity (records "Authors") with
    refuses := fun call =>
      match call with
      | .find _ => some (.backend causes)
      | _ => none }

/-- The lending library where no author can be found and no book be lent, each for its causes. -/
def troubled (lost unlent : CauseChain) : Service where
  schema := lendingSchema
  site := { base := "http://localhost", path := "/odata" }
  stores := Stores.put (schema.fill records) "Authors" (lostTo lost)
  handlers := fun _ _ => .error unlent

theorem alike_troubled (lost lost' unlent unlent' : CauseChain) :
    (troubled lost unlent).Alike (troubled lost' unlent') := by
  have hlost : (lostTo lost).Alike (lostTo lost') := .intro fun call => by cases call <;> rfl
  exact .intro ((Stores.Alike.refl _).put "Authors" hlost) fun _ _ _ _ => .error trivial

/-- A book with its author is asked for, then the book is to be lent. -/
def troubles : List (String × Option String × Http.Request) := [
  ("", none, { method := "GET", uri := ⟨"/odata/Books(1)", some "$expand=Author"⟩ }),
  ("", some "t-1", { method := "POST", uri := ⟨"/odata/Books(1)/Lend", none⟩ })]

/-- Both requests fail in the server, and no client learns why. -/
theorem responses_troubles :
    Http.responses (troubled ["down"] ["no cards left"]) [] troubles
        = Http.responses (troubled ["timeout", "socket closed"] []) [] troubles ∧
      (Http.responses (troubled ["down"] ["no cards left"]) [] troubles).map (·.status)
        = [.internalServerError, .internalServerError] :=
  ⟨(Http.respond_alike (alike_troubled _ _ _ _) []).2 troubles, by decide +kernel⟩

end Library

end ODataEngine
