import ODataEngine.Proofs.ResultTheorems
import ODataEngine.Route.Resolve

/-!
# Where routes lead

A path leads into the schema: to one of its collections, and from there to an entity, a navigation
property or an operation. Where a method asks for something there, the address holds whatever that
needs (`Route.serves_resolve`), and everything that is done at an address relies on it.
-/

namespace ODataEngine

namespace Endpoint

/-- The endpoint is a document in which the service describes itself. -/
def isDescription : Endpoint → Bool
  | serviceDocument | metadata => true
  | _ => false

/-- The endpoint belongs to a single entity. -/
def isOfEntity : Endpoint → Bool
  | get | replace | patch | delete | navigationGet | navigationList => true
  | invoke op => op.binding == .entity
  | _ => false

/-- The endpoint belongs to a navigation property. -/
def isOfNavigation : Endpoint → Bool
  | navigationGet | navigationList => true
  | _ => false

/-- The method that asks for the endpoint. -/
def method : Endpoint → String
  | create => "POST"
  | replace => "PUT"
  | patch => "PATCH"
  | delete => "DELETE"
  | invoke op => op.kind.method
  | _ => "GET"

end Endpoint

/-- The address leads into a collection and holds what an endpoint needs for a method: a key of the
right type for an entity, a navigation property for what that leads to, and for an operation what
its binding asks for. -/
structure Address.Serves (a : Address) (c : Collection) (method : String) (endpoint : Endpoint) :
    Prop where
  inCollection : endpoint.isDescription = false
  collection : a.collection = some c
  key : endpoint.isOfEntity = true →
    ∃ text key, c.entity.keyType.coerce text = .ok key ∧ a.key = some key
  navigation : endpoint.isOfNavigation = true →
    ∃ n ∈ c.entity.navigations, a.navigation = some n ∧
      (endpoint = .navigationList ↔ n.multiplicity = .many)
  operation : ∀ op, endpoint = .invoke op →
    op ∈ c.operations ∧ op.kind.method = method ∧ (op.binding = .entity ↔ a.key.isSome = true)

namespace Route

variable {s : Schema} {c : Collection} {method : String} {endpoint : Endpoint}

theorem eq_of_only {endpoint' : Endpoint} {expected : String}
    (h : only endpoint expected method = some endpoint') :
    method = expected ∧ endpoint' = endpoint := by
  unfold only at h
  split at h
  · next hmethod => exact ⟨hmethod, (Option.some.inj h).symm⟩
  · cases h

/-- An operation that a path segment invokes is one of the collection, with the binding asked for
and the method of its kind. -/
theorem exists_of_boundOperation {binding : Binding} {segment : List Char}
    (h : boundOperation s c binding method segment = some endpoint) :
    ∃ op ∈ c.operations, endpoint = .invoke op ∧ op.kind.method = method ∧
      op.binding = binding := by
  unfold boundOperation at h
  split at h
  · next op hop =>
    obtain ⟨hmethod, rfl⟩ := eq_of_only h
    have hfound := List.find?_some hop
    rw [Bool.and_eq_true, beq_iff_eq] at hfound
    exact ⟨op, List.mem_of_find?_eq_some hop, rfl, hmethod.symm, hfound.1⟩
  · cases h

/-- An operation is served where a key is bound just if it belongs to entities. -/
theorem serves_invoke {a : Address} {op : Operation} (hcollection : a.collection = some c)
    (hop : op ∈ c.operations) (hmethod : op.kind.method = method)
    (hkey : ∀ key, a.key = some key → ∃ text, c.entity.keyType.coerce text = .ok key)
    (hbinding : op.binding = .entity ↔ a.key.isSome = true) :
    a.Serves c method (.invoke op) := by
  refine ⟨rfl, hcollection, fun hentity => ?_, nofun, ?_⟩
  · obtain ⟨key, hbound⟩ := Option.isSome_iff_exists.1 (hbinding.1 (beq_iff_eq.1 hentity))
    obtain ⟨text, htext⟩ := hkey key hbound
    exact ⟨text, key, htext, hbound⟩
  · intro op' hsame
    cases hsame
    exact ⟨hop, hmethod, hbinding⟩

theorem serves_collectionEndpoint {tail : List Char}
    (h : collectionEndpoint s c method tail = some endpoint) :
    Address.Serves { collection := some c } c method endpoint := by
  unfold collectionEndpoint at h
  split at h
  · split at h
    · obtain ⟨-, rfl⟩ := eq_of_only h
      exact ⟨rfl, rfl, nofun, nofun, nofun⟩
    · obtain ⟨op, hop, rfl, hmethod, hbinding⟩ := exists_of_boundOperation h
      exact serves_invoke rfl hop hmethod nofun (by simp [hbinding])
  · split at h
    · cases h
      exact ⟨rfl, rfl, nofun, nofun, nofun⟩
    · cases h
      exact ⟨rfl, rfl, nofun, nofun, nofun⟩
    · cases h

section

variable {a : Address} {text : String} {key : Json} (hcollection : a.collection = some c)
  (htext : c.entity.keyType.coerce text = .ok key) (hkey : a.key = some key)

include hcollection htext hkey

/-- The endpoints of an entity itself need its key and nothing else. -/
theorem serves_entityEndpoint (h : entityEndpoint method = some endpoint) :
    a.Serves c method endpoint := by
  unfold entityEndpoint at h
  split at h <;> cases h <;>
    exact ⟨rfl, hcollection, fun _ => ⟨text, key, htext, hkey⟩, nofun, nofun⟩

theorem serves_navigationEndpoint {n : Navigation} (hn : n ∈ c.entity.navigations)
    (hnavigation : a.navigation = some n) : a.Serves c method (navigationEndpoint n) := by
  unfold navigationEndpoint
  cases hmultiplicity : n.multiplicity <;>
    exact ⟨rfl, hcollection, fun _ => ⟨text, key, htext, hkey⟩,
      fun _ => ⟨n, hn, hnavigation, by simp [hmultiplicity]⟩, nofun⟩

theorem serves_resolveAfterKey {after : List Char}
    (h : (resolveAfterKey s c a method after).endpoint = .ok (some endpoint)) :
    (resolveAfterKey s c a method after).address.Serves c method endpoint := by
  unfold resolveAfterKey at h ⊢
  split at h
  · exact serves_entityEndpoint hcollection htext hkey (Except.ok.inj h)
  · split at h
    · next n hn =>
      split at h
      · next hmethod =>
        rw [if_pos hmethod, ← Option.some.inj (Except.ok.inj h)]
        have hmem := (EntityType.mem_of_navigation? hn).1
        exact @serves_navigationEndpoint c method { a with navigation := some n } text key
          hcollection htext hkey n hmem rfl
      · cases h
    · obtain ⟨op, hop, rfl, hmethod, hbinding⟩ := exists_of_boundOperation (Except.ok.inj h)
      refine serves_invoke hcollection hop hmethod (fun key' hkey' => ⟨text, ?_⟩) ?_
      · rwa [← Option.some.inj (hkey.symm.trans hkey')]
      · simp [hbinding, hkey]
  · cases h

end

/-- A key that was read is a value that the key type reads in some text. -/
theorem exists_coerce_of_readKey {e : EntityType} {text : List Char} {key : Json}
    (h : readKey e text = .ok key) : ∃ inner, e.keyType.coerce inner = .ok key := by
  unfold readKey at h
  obtain ⟨literal, -, h⟩ := bind_eq_ok_iff.1 h
  split at h
  · cases h
  · obtain ⟨inner, -, h⟩ := bind_eq_ok_iff.1 h
    split at h
    · next key' hkey =>
      cases h
      exact ⟨_, hkey⟩
    · cases h

theorem serves_resolveEntity {body : List Char}
    (h : (resolveEntity s c method body).endpoint = .ok (some endpoint)) :
    (resolveEntity s c method body).address.Serves c method endpoint := by
  unfold resolveEntity at h ⊢
  split at h
  · cases h
  · split at h
    · cases h
    · next key hkey =>
      obtain ⟨inner, hinner⟩ := exists_coerce_of_readKey hkey
      exact serves_resolveAfterKey rfl hinner rfl h

theorem mem_of_afterCollection? {rest tail : List Char} {collections : List Collection}
    (h : collections.findSome? (afterCollection? rest) = some (c, tail)) : c ∈ collections := by
  obtain ⟨c', hc', hafter⟩ := List.exists_of_findSome?_eq_some h
  have hsame : c' = c := by
    unfold afterCollection? at hafter
    split at hafter
    · cases hafter
      rfl
    · split at hafter
      · cases hafter
        rfl
      · cases hafter
    · cases hafter
  rw [← hsame]
  exact hc'

theorem serves_resolveRest {rest : List Char}
    (h : (resolveRest s method rest).endpoint = .ok (some endpoint)) :
    endpoint.isDescription = true ∨
      ∃ c ∈ s.collections, (resolveRest s method rest).address.Serves c method endpoint := by
  unfold resolveRest at h ⊢
  split at h
  · obtain ⟨-, rfl⟩ := eq_of_only (Except.ok.inj h)
    exact .inl rfl
  · next hroot =>
    rw [if_neg hroot]
    split at h
    · obtain ⟨-, rfl⟩ := eq_of_only (Except.ok.inj h)
      exact .inl rfl
    · next hmetadata =>
      rw [if_neg hmetadata]
      split at h
      · cases h
      · next c body hfound =>
        exact .inr ⟨c, mem_of_afterCollection? hfound, serves_resolveEntity h⟩
      · next c tail _ hfound =>
        have hserves := serves_collectionEndpoint (Except.ok.inj h)
        exact .inr ⟨c, mem_of_afterCollection? hfound, hserves⟩

/-- Where something is asked for, it is a document of the service itself, or the address holds what
the endpoint needs in some collection. -/
theorem serves_resolve {site : Site} {path : String}
    (h : (resolve s site method path).endpoint = .ok (some endpoint)) :
    endpoint.isDescription = true ∨
      ∃ c ∈ s.collections, (resolve s site method path).address.Serves c method endpoint := by
  unfold resolve at h ⊢
  split at h
  · cases h
  · split at h
    · cases h
    · exact serves_resolveRest h

/-! ## Methods -/

theorem method_collectionEndpoint {tail : List Char}
    (h : collectionEndpoint s c method tail = some endpoint) : endpoint.method = method := by
  unfold collectionEndpoint at h
  split at h
  · split at h
    · obtain ⟨hmethod, rfl⟩ := eq_of_only h
      exact hmethod.symm
    · obtain ⟨op, -, rfl, hmethod, -⟩ := exists_of_boundOperation h
      exact hmethod
  · split at h <;> cases h <;> rfl

theorem method_entityEndpoint (h : entityEndpoint method = some endpoint) :
    endpoint.method = method := by
  unfold entityEndpoint at h
  split at h <;> cases h <;> rfl

theorem method_navigationEndpoint (n : Navigation) : (navigationEndpoint n).method = "GET" := by
  unfold navigationEndpoint
  cases n.multiplicity <;> rfl

theorem method_resolveAfterKey {a : Address} {after : List Char}
    (h : (resolveAfterKey s c a method after).endpoint = .ok (some endpoint)) :
    endpoint.method = method := by
  unfold resolveAfterKey at h
  split at h
  · exact method_entityEndpoint (Except.ok.inj h)
  · split at h
    · next n _ =>
      split at h
      · next hmethod =>
        rw [← Option.some.inj (Except.ok.inj h), method_navigationEndpoint, hmethod]
      · cases h
    · obtain ⟨op, -, rfl, hmethod, -⟩ := exists_of_boundOperation (Except.ok.inj h)
      exact hmethod
  · cases h

theorem method_resolveEntity {body : List Char}
    (h : (resolveEntity s c method body).endpoint = .ok (some endpoint)) :
    endpoint.method = method := by
  unfold resolveEntity at h
  split at h
  · cases h
  · split at h
    · cases h
    · exact method_resolveAfterKey h

/-- Whatever a request asks for, it asks with the method of that. -/
theorem method_resolve {site : Site} {path : String}
    (h : (resolve s site method path).endpoint = .ok (some endpoint)) :
    endpoint.method = method := by
  unfold resolve at h
  split at h
  · cases h
  · split at h
    · cases h
    · unfold resolveRest at h
      split at h
      · obtain ⟨hmethod, rfl⟩ := eq_of_only (Except.ok.inj h)
        exact hmethod.symm
      · split at h
        · obtain ⟨hmethod, rfl⟩ := eq_of_only (Except.ok.inj h)
          exact hmethod.symm
        · split at h
          · cases h
          · exact method_resolveEntity h
          · exact method_collectionEndpoint (Except.ok.inj h)

/-! ## Faulty paths -/

/-- The failure to read the key in a path. -/
def IsKeyFault (e : RequestError) : Prop :=
  ∃ collection literal reason, e = .invalidKey collection literal reason

theorem failsOnly_resolveAfterKey (s : Schema) (c : Collection) (a : Address) (method : String)
    (after : List Char) : FailsOnly IsKeyFault (resolveAfterKey s c a method after).endpoint := by
  unfold resolveAfterKey
  split
  · exact .ok _
  · split
    · split <;> exact .ok _
    · exact .ok _
  · exact .ok _

theorem failsOnly_resolveEntity (s : Schema) (c : Collection) (method : String)
    (body : List Char) : FailsOnly IsKeyFault (resolveEntity s c method body).endpoint := by
  unfold resolveEntity
  split
  · exact .error ⟨_, _, _, rfl⟩
  · split
    · exact .error ⟨_, _, _, rfl⟩
    · exact failsOnly_resolveAfterKey s c _ method _

/-- A path is faulty only for the key in it. -/
theorem failsOnly_resolve (s : Schema) (site : Site) (method path : String) :
    FailsOnly IsKeyFault (resolve s site method path).endpoint := by
  unfold resolve
  split
  · exact .ok _
  · split
    · exact .ok _
    · unfold resolveRest
      split
      · exact .ok _
      · split
        · exact .ok _
        · split
          · exact .ok _
          · exact failsOnly_resolveEntity s _ method _
          · exact .ok _

end Route

end ODataEngine
