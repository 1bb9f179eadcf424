import ODataEngine.Proofs.QueryFaultTheorems
import ODataEngine.Proofs.StoreTheorems
import ODataEngine.Service.Answer

/-!
# Showing entities

The levels that `entityDocument` is given do not matter (`entity_eq`), and a query that was read
with the schema is shown without a fault of its own: whatever can still fail is a store
(`failsOnly_entity`). Only below a navigation property that does not lead to a collection of its
target type faults of the query come up as late as that (`failsOnly_entity_of_read`).
-/

namespace ODataEngine

@[simp] theorem StoreError.during_ok {α : Type} (call collection : String) (key : Option String)
    (a : α) : StoreError.during call collection key (.ok a) = .ok a := rfl

namespace Service

variable {sv : Service} {c : Collection} {q : Query} {r : Record}

/-! ## Steps on stores -/

theorem store?_of_storeOf {s : Store} (h : sv.storeOf c = .ok s) :
    sv.stores.store? c.name = some s := by
  unfold storeOf at h
  split at h
  · next found =>
    cases h
    exact found
  · cases h

theorem collection?_of_targetOf {e : EntityType} {n : Navigation} {target : Collection}
    (h : sv.targetOf e n = .ok target) : sv.schema.collection? n.collection = some target := by
  unfold targetOf at h
  split at h
  · next found =>
    cases h
    exact found
  · cases h

theorem eq_ok_of_during {α : Type} {call collection : String} {key : Option String}
    {x : Except StoreError α} {a : α} (h : StoreError.during call collection key x = .ok a) :
    x = .ok a := by
  cases x with
  | ok b =>
    cases h
    rfl
  | error cause => cases h

theorem eq_ok_of_atEntity {α : Type} {call collection key : String} {x : Except StoreError α}
    {a : α} (h : StoreError.atEntity call collection key x = .ok a) : x = .ok a := by
  cases x with
  | ok b =>
    cases h
    rfl
  | error cause => cases cause <;> cases h

/-! ## Levels -/

/-- Each expansion comes from an item that names it. -/
theorem mem_of_expansions {limits : QueryLimits} {e : EntityType} {items : List ExpandItem}
    {found : List (Navigation × ExpandItem)} (h : expansions limits e items = .ok found) :
    ∀ f ∈ found, f.2 ∈ items ∧ e.navigation? f.2.property = some f.1 := by
  induction items generalizing found with
  | nil =>
    cases h
    simp
  | cons item rest ih =>
    have hrest : ∀ {later}, expansions limits e rest = .ok later → ∀ f ∈ later,
        f.2 ∈ item :: rest ∧ e.navigation? f.2.property = some f.1 := by
      intro later hlater f hf
      have hfound := ih hlater f hf
      exact ⟨List.mem_cons_of_mem item hfound.1, hfound.2⟩
    unfold expansions at h
    split at h
    · next n hn =>
      obtain ⟨later, hlater, h⟩ := bind_eq_ok_iff.1 h
      cases h
      exact List.forall_mem_cons.2 ⟨⟨List.mem_cons_self, hn⟩, hrest hlater⟩
    · split at h
      · cases h
      · exact hrest h

/-- An expansion shows related entities only under the queries that its item makes. -/
theorem expand_congr {document document' : Collection → Query → Record → Except RequestError Record}
    {n : Navigation} {item : ExpandItem}
    (h : ∀ target sub, Query.ofOptions sv.limits none target.entity item.options = .ok sub →
      document target sub = document' target sub) :
    expand sv c q r document n item = expand sv c q r document' n item := by
  unfold expand
  cases sv.targetOf c.entity n with
  | error e => rfl
  | ok target =>
    rw [ok_bind, ok_bind]
    cases hsub : Query.ofOptions sv.limits none target.entity item.options with
    | error e => rfl
    | ok sub => rw [ok_bind, ok_bind, h target sub hsub]

/-- More levels than the expand text has characters are as good as one more. -/
theorem entityDocument_eq_of_length_lt {levels : Nat} (h : q.expand.length < levels) :
    sv.entityDocument levels c q r = sv.entity c q r := by
  suffices hall : ∀ levels levels' c q r, q.expand.length < levels → q.expand.length < levels' →
      sv.entityDocument levels c q r = sv.entityDocument levels' c q r from
    hall levels (q.expand.length + 1) c q r h (Nat.lt_succ_self _)
  intro levels
  induction levels with
  | zero => exact fun _ _ _ _ h => absurd h (Nat.not_lt_zero _)
  | succ levels ih =>
    rintro (_ | levels') c q r h h'
    · exact absurd h' (Nat.not_lt_zero _)
    rw [entityDocument, entityDocument]
    cases hparse : Expand.parse q.expand with
    | error e => rfl
    | ok items =>
      rw [ok_bind, ok_bind]
      cases hfound : expansions sv.limits c.entity items with
      | error e => rfl
      | ok found =>
        rw [ok_bind, ok_bind]
        congr 1
        refine mapM_congr fun f hf => expand_congr fun target sub hsub => ?_
        have hshorter := Query.length_expand_lt hparse (mem_of_expansions hfound f hf).1 hsub
        funext row
        exact ih levels' target sub row (by omega) (by omega)

/-- The document of an entity shows related entities as it shows the entity itself. -/
theorem entity_eq (sv : Service) (c : Collection) (q : Query) (r : Record) :
    sv.entity c q r = (do
      let own : Record := [(addressMember, .string (sv.site.entityUrl c.name c.entity r))]
      let items ← Expand.parse q.expand
      let found ← expansions sv.limits c.entity items
      let added ← found.mapM fun (n, item) => expand sv c q r sv.entity n item
      return (own.insertAll (shown c.entity q r)).insertAll (added.filterMap id)) := by
  rw [entity, entityDocument]
  cases hparse : Expand.parse q.expand with
  | error e => rfl
  | ok items =>
    rw [ok_bind, ok_bind]
    cases hfound : expansions sv.limits c.entity items with
    | error e => rfl
    | ok found =>
      rw [ok_bind, ok_bind]
      congr 1
      refine mapM_congr fun f hf => expand_congr fun target sub hsub => ?_
      have hshorter := Query.length_expand_lt hparse (mem_of_expansions hfound f hf).1 hsub
      funext row
      exact entityDocument_eq_of_length_lt hshorter

/-! ## Failures of stores -/

/-- The failure of following a navigation property to a collection that has no store, or whose store
refuses the call. -/
def FailsInStore (sv : Service) (e : RequestError) : Prop :=
  ∃ c ∈ sv.schema.collections,
    sv.stores.store? c.name = none ∧ e = sv.unrouted ∨
    ∃ s call cause key, sv.stores.store? c.name = some s ∧ s.refuses call = some cause ∧
      e = .storage "expand" c.name key cause

/-- Every collection has a store, and none of them refuses a call or gives one up. -/
def InMemory (sv : Service) : Prop :=
  ∀ c ∈ sv.schema.collections,
    ∃ s, sv.stores.store? c.name = some s ∧ ∀ call, s.refuses call = none

/-- Stores that are made for a schema refuse nothing. -/
theorem inMemory_fill (hsound : sv.schema.Sound) (records : String → List Record) :
    InMemory { sv with stores := sv.schema.fill records } :=
  fun _ hc => ⟨_, hsound.store?_fill records hc, fun _ => rfl⟩

/-- Finding records fails only where the store refuses the call. -/
theorem refuses_of_find {s : Store} {q : Query} {cause : StoreError} (h : s.find q = .error cause) :
    s.refuses (.find q) = some cause := by
  unfold Store.find Store.guarded at h
  split at h
  · next hrefused =>
    cases h
    exact hrefused
  · cases h

theorem refuses_of_follow {n : Navigation} {base : Record} {s : Store} {q : Query}
    {cause : StoreError} (h : n.follow base s q = .error cause) :
    ∃ call, s.refuses call = some cause := by
  unfold Navigation.follow Link.resolve at h
  split at h
  · cases h
  · next p hp =>
    cases hfind : s.find { q with filter := p.conj q.filter } with
    | ok rows =>
      rw [hfind] at h
      cases h
    | error cause' =>
      rw [hfind] at h
      cases h
      exact ⟨_, refuses_of_find hfind⟩

theorem targetOf_eq_ok {e : EntityType} {n : Navigation} {target : Collection}
    (h : sv.schema.collection? n.collection = some target) : sv.targetOf e n = .ok target := by
  rw [targetOf, h]

/-- An item whose options make a query for the collection that its navigation property leads to
expands, unless a store fails or a related entity cannot be shown. -/
theorem failsOnly_expand {p : RequestError → Prop} (hp : ∀ e, sv.FailsInStore e → p e)
    {document : Collection → Query → Record → Except RequestError Record} {n : Navigation}
    {item : ExpandItem} {target : Collection} {sub : Query}
    (hcollection : sv.schema.collection? n.collection = some target)
    (hsub : Query.ofOptions sv.limits none target.entity item.options = .ok sub)
    (hdocument : ∀ row, FailsOnly p (document target sub row)) :
    FailsOnly p (expand sv c q r document n item) := by
  have htarget : target ∈ sv.schema.collections := List.mem_of_find?_eq_some hcollection
  unfold expand
  rw [targetOf_eq_ok hcollection, ok_bind, hsub, ok_bind]
  unfold storeOf
  cases hstore : sv.stores.store? target.name with
  | none => exact .error (hp _ ⟨target, htarget, .inl ⟨hstore, rfl⟩⟩)
  | some s =>
    rw [ok_bind]
    cases hrows : n.follow r s { sub with select := [] } with
    | error cause =>
      obtain ⟨call, hrefused⟩ := refuses_of_follow hrows
      exact .error (hp _ ⟨target, htarget, .inr ⟨s, call, cause, _, hstore, hrefused, rfl⟩⟩)
    | ok rows =>
      simp only [StoreError.during_ok, ok_bind]
      refine .bind (.mapM fun row _ => hdocument row) fun entities _ => ?_
      exact .ok _

theorem faultsOnly_expansions (limits : QueryLimits) (e : EntityType) (items : List ExpandItem) :
    Query.FaultsOnly (expansions limits e items) := by
  induction items with
  | nil => exact .ok _
  | cons item rest ih =>
    unfold expansions
    split
    · exact .bind ih fun _ _ => .ok _
    · split
      · exact .error rfl
      · exact ih

/-- Whatever the query is, an entity is shown unless a store fails or the query has a fault. -/
theorem failsOnly_entity_of_any {c : Collection} {q : Query} (r : Record) :
    FailsOnly (fun e => sv.FailsInStore e ∨ e.isQueryFault = true) (sv.entity c q r) := by
  have hfault : ∀ {α : Type} {x : Except RequestError α}, Query.FaultsOnly x →
      FailsOnly (fun e => sv.FailsInStore e ∨ e.isQueryFault = true) x :=
    fun h => h.mono fun _ => .inr
  rw [entity_eq]
  refine .bind (hfault (Query.faultsOnly_parse q.expand)) fun items hparse => ?_
  refine .bind (hfault (faultsOnly_expansions _ _ _)) fun found hfound => ?_
  refine .bind (.mapM fun f hf => ?_) fun added _ => .ok _
  show FailsOnly _ (expand sv c q r sv.entity f.1 f.2)
  cases hcollection : sv.schema.collection? f.1.collection with
  | none =>
    unfold expand targetOf
    rw [hcollection]
    exact .error (.inr rfl)
  | some target =>
    cases hsub : Query.ofOptions sv.limits none target.entity f.2.options with
    | error e =>
      unfold expand
      rw [targetOf_eq_ok hcollection, ok_bind, hsub]
      exact .error (.inr (Query.faultsOnly_ofOptions _ _ _ _ e hsub))
    | ok sub =>
      have hshorter := Query.length_expand_lt hparse (mem_of_expansions hfound f hf).1 hsub
      exact failsOnly_expand (fun _ => .inl) hcollection hsub fun row => failsOnly_entity_of_any row
termination_by q.expand.length

/-- The names in an expand text that was checked are refused no more. -/
theorem exists_expansions {limits : QueryLimits} {s : Schema} {e : EntityType}
    {items : List ExpandItem} (h : Query.ExpandsWithin limits s e items) :
    ∃ found, expansions limits e items = .ok found := by
  have hnamed := h.named
  clear h
  induction items with
  | nil => exact ⟨[], rfl⟩
  | cons item rest ih =>
    obtain ⟨found, hfound⟩ := ih fun item' hitem' => hnamed item' (List.mem_cons_of_mem item hitem')
    unfold expansions
    cases hn : e.navigation? item.property with
    | some n => exact ⟨(n, item) :: found, by rw [hfound]; rfl⟩
    | none =>
      rw [hnamed item List.mem_cons_self hn]
      exact ⟨found, hfound⟩

/-- A query that was read with the schema and does not stray is shown unless a store fails. -/
theorem failsOnly_entity (hsound : sv.schema.Sound) {c : Collection} {q : Query}
    {options : List (String × String)}
    (hq : Query.ofOptions sv.limits (some sv.schema) c.entity options = .ok q)
    (hstays : ¬ q.Strays sv.limits sv.schema c.entity) (r : Record) :
    FailsOnly sv.FailsInStore (sv.entity c q r) := by
  obtain ⟨items, hparse, hitems⟩ := Query.expandsWithin_of_ofOptions hq
  obtain ⟨found, hfound⟩ := exists_expansions hitems
  rw [entity_eq, hparse, ok_bind, hfound, ok_bind]
  refine .bind (.mapM fun f hf => ?_) fun added _ => .ok _
  obtain ⟨hitem, hn⟩ := mem_of_expansions hfound f hf
  have hlinks : sv.schema.Links f.1 := by
    by_contra hlost
    exact hstays (.here hparse hitem hn hlost)
  obtain ⟨target, -, hcollection, hentity⟩ := hsound.exists_target hlinks
  obtain ⟨sub, hread⟩ := hitems.nested f.2 hitem f.1 target.entity hn hentity
  have hsub := Query.ofOptions_none hread
  have hstays' : ¬ sub.Strays sv.limits sv.schema target.entity :=
    fun hstrays => hstays (.inside hparse hitem hn hcollection hsub hstrays)
  have hshorter := Query.length_expand_lt hparse hitem hread
  exact failsOnly_expand (fun _ => id) hcollection hsub fun row =>
    failsOnly_entity hsound hread hstays' row
termination_by q.expand.length

/-- A query that was read with the schema is shown unless a store fails or the query strays. -/
theorem failsOnly_entity_of_read (hsound : sv.schema.Sound) {options : List (String × String)}
    (hq : Query.ofOptions sv.limits (some sv.schema) c.entity options = .ok q) (r : Record) :
    FailsOnly (fun e => sv.FailsInStore e ∨
      q.Strays sv.limits sv.schema c.entity ∧ e.isQueryFault = true) (sv.entity c q r) := by
  by_cases hstrays : q.Strays sv.limits sv.schema c.entity
  · exact (failsOnly_entity_of_any r).mono fun e he => he.imp_right fun hfault => ⟨hstrays, hfault⟩
  · exact (failsOnly_entity hsound hq hstrays r).mono fun e he => .inl he

end Service

end ODataEngine
