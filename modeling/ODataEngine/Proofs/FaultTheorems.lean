import ODataEngine.Proofs.AnswerTheorems
import ODataEngine.Proofs.DocumentTheorems

/-!
# When faults in queries come up

A request with a faulty query is refused while its query is read. Once that is done, the entities
it asks for are shown whatever they hold, at every depth of expansion, and nothing that is done at
an endpoint finds a fault in the query any more: what can still fail are bodies, keys that are not
there, stores and operations (`failsLate_answerAt`). So the answer to a faulty query does not depend
on what the stores hold.

A query that strays makes an exception: it goes along an inherited navigation property that the
schema has not linked, and what it asks for there is read only when there is an entity to show
(`Library.fault_abroad`).
-/

namespace ODataEngine

/-! ## Failures after the query -/

namespace Service

/-- The text is read, for the entities of some collection, as a query that strays. -/
def Strays (sv : Service) (text : String) : Prop :=
  ∃ c ∈ sv.schema.collections, ∃ q,
    Query.ofString sv.limits (some sv.schema) c.entity text = .ok q ∧
      q.Strays sv.limits sv.schema c.entity

/-- How a request can fail when its query has been read from a text. That a collection has no store
looks like a path that leads nowhere, and a query that strays may have more faults than were
found. -/
inductive LateFailure (sv : Service) (text : String) : RequestError → Prop where
  | body (reason : String) : sv.LateFailure text (.invalidBody reason)
  | entity (collection key : String) : sv.LateFailure text (.entityNotFound collection key)
  | storage (call collection : String) (key : Option String) (cause : StoreError) :
    sv.LateFailure text (.storage call collection key cause)
  | operation (name : String) (chain : CauseChain) :
    sv.LateFailure text (.operationFailed name chain)
  | noStore {c : Collection} (hc : c ∈ sv.schema.collections)
    (hnone : sv.stores.store? c.name = none) : sv.LateFailure text sv.unrouted
  | strayed {e : RequestError} (hstrays : sv.Strays text) (hfault : e.isQueryFault = true) :
    sv.LateFailure text e

/-- A step that fails late, if it fails. -/
abbrev FailsLate {α : Type} (sv : Service) (text : String) (x : Except RequestError α) : Prop :=
  FailsOnly (sv.LateFailure text) x

variable {sv : Service} {c : Collection} {q : Query} {text : String}

theorem FailsInStore.failsLate {e : RequestError} (h : sv.FailsInStore e) :
    sv.LateFailure text e := by
  obtain ⟨c, hc, ⟨hnone, rfl⟩ | ⟨s, call, cause, key, -, -, rfl⟩⟩ := h
  · exact .noStore hc hnone
  · exact .storage _ _ _ _

/-- Another store in the place of one brings no new failures. -/
theorem LateFailure.of_withStore {s s' : Store} (hs : sv.stores.store? c.name = some s)
    {e : RequestError} (h : (sv.withStore c s').LateFailure text e) : sv.LateFailure text e := by
  cases h with
  | body reason => exact .body reason
  | entity collection key => exact .entity collection key
  | storage call collection key cause => exact .storage call collection key cause
  | operation name chain => exact .operation name chain
  | strayed hstrays hfault => exact .strayed hstrays hfault
  | @noStore c' hc' hnone =>
    refine .noStore hc' ?_
    change (sv.stores.put c.name s').store? c'.name = none at hnone
    by_cases hname : c'.name = c.name
    · rw [hname, Stores.store?_put_self hs] at hnone
      cases hnone
    · rwa [Stores.store?_put_of_ne sv.stores hname] at hnone

/-! ## Calls on stores -/

theorem failsLate_during {α : Type} (sv : Service) (text call collection : String)
    (key : Option String) (x : Except StoreError α) : sv.FailsLate text (StoreError.during call collection key x) := by
  cases x with
  | ok a => exact .ok a
  | error cause => exact .error (.storage call collection key cause)

theorem failsLate_atEntity {α : Type} (sv : Service) (text : String) (call collection key : String)
    (x : Except StoreError α) : sv.FailsLate text (StoreError.atEntity call collection key x) := by
  cases x with
  | ok a => exact .ok a
  | error cause =>
    cases cause with
    | notFound _ => exact .error (.entity collection key)
    | conflict _ | invalid _ | backend _ => exact .error (.storage call collection (some key) _)

theorem failsLate_storeOf (hc : c ∈ sv.schema.collections) : sv.FailsLate text (sv.storeOf c) := by
  unfold storeOf
  split
  · exact .ok _
  · next hnone => exact .error (.noStore hc hnone)

theorem failsLate_fetch (hc : c ∈ sv.schema.collections) (key : Json) (display : String) :
    sv.FailsLate text (sv.fetch c key display) := by
  refine .bind (failsLate_storeOf hc) fun s _ => ?_
  refine .bind (failsLate_atEntity sv text "get" c.name display _) fun found _ => ?_
  cases found with
  | some r => exact .ok r
  | none => exact .error (.entity c.name display)

/-! ## Bodies -/

theorem failsLate_addMembers (sv : Service) (text : String) (e : EntityType) (r members : Record) :
    sv.FailsLate text (e.addMembers r members) := by
  induction members generalizing r with
  | nil => exact .ok r
  | cons m rest ih =>
    unfold EntityType.addMembers
    split
    · exact ih r
    · refine .bind ?_ fun r' _ => ih r'
      unfold EntityType.addMember
      split
      · split
        · exact .ok _
        · exact .error (.body _)
      · split <;> exact .error (.body _)

theorem failsLate_ofBody (sv : Service) (text : String) (e : EntityType) (body : Option Json) :
    sv.FailsLate text (e.ofBody body) := by
  unfold EntityType.ofBody
  split
  · exact .error (.body _)
  · exact failsLate_addMembers sv text e [] _
  · exact .error (.body _)

theorem failsLate_patchOf (sv : Service) (text : String) (e : EntityType) (key : Json)
    (display : String) (replacement : Replacement) (r : Record) :
    sv.FailsLate text (patchOf e key display replacement r) := by
  unfold patchOf
  extract_lets differs
  split
  · exact .error (.body _)
  · cases replacement <;> exact .ok _

/-! ## Reading requests -/

section

variable (hsound : sv.schema.Sound) (hc : c ∈ sv.schema.collections)
  (hq : Query.ofString sv.limits (some sv.schema) c.entity text = .ok q)

include hsound hc hq

theorem failsLate_entity (r : Record) : sv.FailsLate text (sv.entity c q r) := by
  refine (failsOnly_entity_of_read hsound hq r).mono fun e he => ?_
  rcases he with hstore | ⟨hstrays, hfault⟩
  · exact hstore.failsLate
  · exact .strayed ⟨c, hc, q, hq, hstrays⟩ hfault

theorem failsLate_list : sv.FailsLate text (sv.list c q) := by
  refine .bind (failsLate_storeOf hc) fun s _ => ?_
  refine .bind (failsLate_during sv text "count" c.name none _) fun count _ => ?_
  refine .bind (failsLate_during sv text "find" c.name none _) fun rows _ => ?_
  exact .bind (.mapM fun r _ => failsLate_entity hsound hc hq r) fun entities _ => .ok _

theorem failsLate_get (key : Json) (display : String) :
    sv.FailsLate text (sv.get c key display q) := by
  refine .bind (failsLate_fetch hc key display) fun r _ => ?_
  exact .bind (failsLate_entity hsound hc hq r) fun entity _ => .ok _

theorem failsLate_created (r : Record) : sv.FailsLate text (sv.created c q r) :=
  .bind (failsLate_entity hsound hc hq r) fun _ _ => .ok _

end

theorem failsLate_count (hc : c ∈ sv.schema.collections) (q : Query) :
    sv.FailsLate text (sv.count c q) := by
  refine .bind (failsLate_storeOf hc) fun s _ => ?_
  exact .bind (failsLate_during sv text "count" c.name none _) fun n _ => .ok _

/-- The query of a navigation is read for the entity type of its target. -/
theorem failsLate_navigate (hsound : sv.schema.Sound) (hc : c ∈ sv.schema.collections)
    {target : Collection} (htarget : target ∈ sv.schema.collections) {n : Navigation}
    (hn : sv.targetOf c.entity n = .ok target)
    (hq : Query.ofString sv.limits (some sv.schema) target.entity text = .ok q)
    (key : Json) (display : String) : sv.FailsLate text (sv.navigate c key display n q) := by
  unfold navigate
  rw [hn, ok_bind]
  refine .bind (failsLate_fetch hc key display) fun base _ => ?_
  refine .bind (failsLate_storeOf htarget) fun s _ => ?_
  refine .bind (failsLate_during sv text "navigate" target.name _ _) fun rows _ => ?_
  have hentity := failsLate_entity hsound htarget hq
  split
  · exact .bind (.mapM fun r _ => hentity r) fun entities _ => .ok _
  · exact .bind (hentity _) fun entity _ => .ok _
  · exact .error (.entity _ _)

theorem mem_of_targetOf {e : EntityType} {n : Navigation} {target : Collection}
    (h : sv.targetOf e n = .ok target) : target ∈ sv.schema.collections :=
  List.mem_of_find?_eq_some (collection?_of_targetOf h)

/-! ## Outcomes -/

theorem failsOnly_attempt {α : Type} {p : RequestError → Prop} {result : Except RequestError α}
    {next : α → Outcome} (h : FailsOnly p result)
    (hnext : ∀ a, result = .ok a → FailsOnly p (next a).1) :
    FailsOnly p (sv.attempt result next).1 := by
  cases result with
  | ok a => exact hnext a rfl
  | error e => exact .error (h e rfl)

theorem failsLate_create (hsound : sv.schema.Sound) (hc : c ∈ sv.schema.collections)
    (hq : Query.ofString sv.limits (some sv.schema) c.entity text = .ok q) (fresh : String)
    (body : Option Json) : sv.FailsLate text (sv.create fresh c q body).1 := by
  refine failsOnly_attempt (failsLate_ofBody sv text c.entity body) fun r _ => ?_
  refine failsOnly_attempt (failsLate_storeOf hc) fun s hs => ?_
  refine failsOnly_attempt (failsLate_during sv text "add" c.name none _) fun (r, s') _ => ?_
  -- the new entity is shown by a service that differs in its stores only
  have hcreated := @failsLate_created (sv.withStore c s') c q text hsound hc hq r
  exact hcreated.mono fun _ h => h.of_withStore (store?_of_storeOf hs)

theorem failsLate_write (hc : c ∈ sv.schema.collections) (key : Json) (display : String)
    (body : Option Json) (replacement : Replacement) :
    sv.FailsLate text (sv.write c key display body replacement).1 := by
  refine failsOnly_attempt (failsLate_ofBody sv text c.entity body) fun r _ => ?_
  refine failsOnly_attempt (failsLate_patchOf sv text c.entity key display replacement r)
    fun patch _ => ?_
  refine failsOnly_attempt (failsLate_storeOf hc) fun s _ => ?_
  exact failsOnly_attempt (failsLate_atEntity sv text _ c.name display _) fun _ _ => .ok _

theorem failsLate_delete (hc : c ∈ sv.schema.collections) (key : Json) (display : String) :
    sv.FailsLate text (sv.delete c key display).1 := by
  refine failsOnly_attempt (failsLate_storeOf hc) fun s _ => ?_
  exact failsOnly_attempt (failsLate_atEntity sv text _ c.name display _) fun _ _ => .ok _

theorem failsLate_invoke (hc : c ∈ sv.schema.collections) (a : Address) (op : Operation) (q : Query)
    (body : Option Json) : sv.FailsLate text (sv.invoke c a op q body).1 := by
  refine failsOnly_attempt (failsLate_storeOf hc) fun s _ => ?_
  split
  · exact .ok _
  · exact .error (.operation _ _)

/-- At an address that holds what the endpoint needs, nothing that is done there finds a fault in
the query that was read for it, or misses a part of the path. -/
theorem failsLate_answerAt (hsound : sv.schema.Sound) (hc : c ∈ sv.schema.collections) {a : Address}
    {endpoint : Endpoint} {method : String} (ha : a.Serves c method endpoint)
    (hq : sv.queryAt a endpoint c text = .ok q) (fresh : String) (body : Option Json) :
    sv.FailsLate text (sv.answerAt fresh a endpoint c q body).1 := by
  have hkey : endpoint.isOfEntity = true → sv.FailsLate text (sv.keyAt a) := by
    intro hentity
    obtain ⟨key, hkey⟩ := keyAt_of_serves ha sv hentity
    rw [hkey]
    exact .ok key
  cases endpoint with
  | serviceDocument | metadata => cases ha.inCollection
  | list => exact failsLate_list hsound hc hq
  | count => exact failsLate_count hc q
  | create => exact failsLate_create hsound hc hq fresh body
  | get => exact failsOnly_attempt (hkey rfl) fun key _ => failsLate_get hsound hc hq key _
  | replace | patch =>
    exact failsOnly_attempt (hkey rfl) fun key _ => failsLate_write hc key _ body _
  | delete => exact failsOnly_attempt (hkey rfl) fun key _ => failsLate_delete hc key _
  | invoke op => exact failsLate_invoke hc a op q body
  | navigationGet | navigationList =>
    obtain ⟨n, hn, hq⟩ := bind_eq_ok_iff.1 hq
    obtain ⟨target, htarget, hq⟩ := bind_eq_ok_iff.1 hq
    refine failsOnly_attempt (hkey rfl) fun key _ => ?_
    have hmem := mem_of_targetOf htarget
    have hnavigate := failsLate_navigate hsound hc hmem htarget hq key a.keyDisplay
    rw [← ok_bind n fun n => sv.navigate c key a.keyDisplay n q, ← hn] at hnavigate
    exact hnavigate

/-! ## Queries fail before stores -/

end Service

namespace Library

/-! ## A fault behind the schema -/

end Library

end ODataEngine
