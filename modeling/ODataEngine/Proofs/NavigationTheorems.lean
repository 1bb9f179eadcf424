import ODataEngine.Proofs.DocumentTheorems

/-!
# Navigating and expanding

The entities that a navigation property leads to are shown on their own or inside the document of
the entity that has it. The one way all related records are found and the page is cut afterwards;
the other way the store finds the page. `navigate_eq_expand` says that both show the same entities.
-/

namespace ODataEngine

/-! ## Pages of related records -/

/-- A page of changed rows is the page of the rows, changed. -/
theorem Query.page_map {α β : Type} (q : Query) (f : α → β) (rows : List α) :
    q.page (rows.map f) = (q.page rows).map f := by
  unfold Query.page
  rw [← List.map_drop]
  cases q.top with
  | some top => exact List.map_take.symm
  | none => rfl

@[simp] theorem Query.page_nil {α : Type} (q : Query) : q.page ([] : List α) = [] := by
  have hsub := q.page_sublist ([] : List α)
  exact List.sublist_nil.1 hsub

/-- The page is cut last, so it may as well be cut from all rows. -/
theorem Store.rows_eq_page (s : Store) (q : Query) : s.rows q = q.page (s.rows q.unpaged) := by
  have hall : s.rows q.unpaged
      = (OrderKey.sort q.order (s.records.filter q.filter.holds)).map (·.project q.select) := by
    unfold Store.rows
    rw [Query.page_unpaged]
    rfl
  rw [hall, Query.page_map]
  rfl

/-- Following a link for a page of records finds the page of all that it leads to. -/
theorem Link.resolve_eq_page {s : Store} (h : ∀ call, s.refuses call = none) (l : Link)
    (base : Record) (q : Query) :
    ∃ rows, l.resolve base s q.unpaged = .ok rows ∧ l.resolve base s q = .ok (q.page rows) := by
  unfold Link.resolve
  cases l.condition? base with
  | none => exact ⟨[], rfl, by rw [Query.page_nil]⟩
  | some p =>
    have hrows := s.rows_eq_page { q with filter := p.conj q.filter }
    refine ⟨_, Store.guarded_of_not_refused (h _) _, ?_⟩
    show s.guarded _ (.ok (s.rows { q with filter := p.conj q.filter })) = _
    rw [Store.guarded_of_not_refused (h _), hrows]
    rfl

theorem Navigation.follow_eq_page {s : Store} (h : ∀ call, s.refuses call = none) {n : Navigation}
    (hmany : n.multiplicity = .many) (base : Record) (q : Query) :
    ∃ rows, n.follow base s q.unpaged = .ok rows ∧ n.follow base s q = .ok (q.page rows) := by
  obtain ⟨rows, hall, hpage⟩ := n.link.resolve_eq_page h base q
  refine ⟨rows, ?_, ?_⟩
  · rw [Navigation.follow, hall, hmany]
    rfl
  · rw [Navigation.follow, hpage, hmany]
    rfl

namespace Service

variable {sv : Service} {c target : Collection} {n : Navigation} {q : Query} {base : Record}

/-! ## Two ways to the same entities -/

theorem storeOf_eq_ok {s : Store} (h : sv.stores.store? c.name = some s) :
    sv.storeOf c = .ok s := by
  rw [storeOf, h]

/-- What navigating shows once the records are found: their number, and the entities on the page. -/
theorem navigate_many {key : Json} {display : String}
    (htarget : sv.targetOf c.entity n = .ok target)
    (hbase : sv.fetch c key display = .ok base) {s : Store}
    (hs : sv.stores.store? target.name = some s) (hmany : n.multiplicity = .many)
    {rows : List Record} (hrows : n.follow base s { q.unpaged with select := [] } = .ok rows) :
    sv.navigate c key display n q = (do
      let entities ← (q.page rows).mapM (sv.entity target q)
      let path := s!"{c.name}({display})/{n.name}"
      return { payload := .json (sv.listBody path rows.length entities) }) := by
  unfold navigate
  rw [htarget, ok_bind, hbase, ok_bind, storeOf_eq_ok hs, ok_bind, hrows, StoreError.during_ok,
    ok_bind, hmany]

/-- What expanding shows once the page of records is found. -/
theorem expand_many {outer : Query} {item : ExpandItem}
    (htarget : sv.targetOf c.entity n = .ok target)
    (hq : Query.ofOptions sv.limits none target.entity item.options = .ok q) {s : Store}
    (hs : sv.stores.store? target.name = some s) (hmany : n.multiplicity = .many)
    {rows : List Record} (hrows : n.follow base s { q with select := [] } = .ok rows) :
    expand sv c outer base sv.entity n item = (do
      let entities ← rows.mapM (sv.entity target q)
      return some (n.name, .array (entities.map .object))) := by
  unfold expand
  rw [htarget, ok_bind, hq, ok_bind, storeOf_eq_ok hs, ok_bind]
  simp only [hrows, StoreError.during_ok, ok_bind, relatedValue, hmany, Option.map_some]

/-- Navigating from an entity to many others and expanding the same navigation property in its
document give the same array, or fail alike; the count beside the array is the number of all related
records that pass the filter, whatever the page. An inherited navigation property may lead to no
collection; then both fail alike for every query. -/
theorem navigate_eq_expand {d : Draft} (hbuild : d.build = .ok sv.schema) (hstores : sv.InMemory)
    (hc : c ∈ sv.schema.collections) (hn : n ∈ c.entity.navigations)
    (hmany : n.multiplicity = .many) {key : Json} {display : String}
    (hbase : sv.fetch c key display = .ok base) :
    ((∃ declared ∈ d.entities, declared.name = c.entity.name ∧ n ∈ declared.inherited) ∧
      sv.schema.collection? n.collection = none ∧ ∃ e, ∀ q outer item,
        sv.navigate c key display n q = .error e ∧
        expand sv c outer base sv.entity n item = .error e) ∨
    ∃ target ∈ sv.schema.collections, sv.targetOf c.entity n = .ok target ∧
      ∃ s, sv.stores.store? target.name = some s ∧
        ∀ item q, Query.ofOptions sv.limits none target.entity item.options = .ok q →
          ∃ rows, n.follow base s { q.unpaged with select := [] } = .ok rows ∧ ∀ outer,
            ((∃ context values,
              sv.navigate c key display n q = .ok { payload := .json (.object [
                ("@odata.context", context), ("@odata.count", .ofNat rows.length),
                ("value", .array values)]) } ∧
              expand sv c outer base sv.entity n item = .ok (some (n.name, .array values))) ∨
            ∃ e, sv.navigate c key display n q = .error e ∧
              expand sv c outer base sv.entity n item = .error e) := by
  have hsound := Schema.sound_of_build hbuild
  have hentity := (hsound.collections c hc).2
  cases hcollection : sv.schema.collection? n.collection with
  | none =>
    have htarget : sv.targetOf c.entity n = .error (.navigationNotFound c.entity.name n.name) := by
      rw [targetOf, hcollection]
    refine .inl ⟨?_, rfl, .navigationNotFound c.entity.name n.name, fun q outer item => ⟨?_, ?_⟩⟩
    · -- what was declared for the schema leads to a collection
      refine (Schema.inherited_or_linked_of_build hbuild hentity hn).resolve_right fun hlinked => ?_
      obtain ⟨_, -, hfound, -⟩ := hsound.exists_target hlinked.1
      rw [hcollection] at hfound
      cases hfound
    · rw [navigate, htarget]
      rfl
    · rw [expand, htarget]
      rfl
  | some target =>
  have hmem : target ∈ sv.schema.collections := List.mem_of_find?_eq_some hcollection
  obtain ⟨s, hs, haccepts⟩ := hstores target hmem
  have htarget : sv.targetOf c.entity n = .ok target := targetOf_eq_ok hcollection
  refine .inr ⟨target, hmem, htarget, s, hs, fun item q hq => ?_⟩
  obtain ⟨rows, hall, hpage⟩ :=
    n.follow_eq_page haccepts hmany base { q with select := [] }
  change n.follow base s { q with select := [] } = .ok (q.page rows) at hpage
  refine ⟨rows, hall, fun outer => ?_⟩
  rw [navigate_many htarget hbase hs hmany hall, expand_many htarget hq hs hmany hpage]
  cases hentities : (q.page rows).mapM (sv.entity target q) with
  | ok entities => exact .inl ⟨_, entities.map .object, rfl, rfl⟩
  | error e => exact .inr ⟨e, rfl, rfl⟩

end Service

namespace Library

/-- An author, two of whose three favourites are in the library. -/
def ann : Record :=
  [("Id", .ofInt 1), ("Name", .string "Ann"), ("Favourites", .array [.ofInt 3, .ofInt 1, .ofInt 9])]

/-- The records of the library. -/
def records : String → List Record
  | "Authors" => [ann]
  | "Books" => [
      [("Id", .ofInt 1), ("Title", .string "Rain"), ("AuthorId", .ofInt 1)],
      [("Id", .ofInt 2), ("Title", .string "Sand"), ("AuthorId", .ofInt 1)],
      [("Id", .ofInt 3), ("Title", .string "Wind"), ("AuthorId", .null)]]
  | _ => []

/-- The navigation property from authors to their favourites. -/
def best : Navigation := ⟨"Best", "Books", "Book", .many, ⟨.keyList, "Favourites", "Id"⟩⟩

/-- The last favourite by title. -/
def lastBest : ExpandItem := ⟨"Best", [("$top", "1"), ("$orderby", "Title desc")]⟩

end Library

open Library in
/-- One of two favourites is shown on either way, beside the count of both. -/
theorem Service.navigate_eq_expand_library :
    ∃ q, Query.ofOptions {} none books.entity lastBest.options = .ok q ∧ ∃ context values,
      (service records).navigate authors (.ofInt 1) "1" best q
        = .ok { payload := .json (.object [
          ("@odata.context", context), ("@odata.count", .ofNat 2), ("value", .array values)]) } ∧
      (service records).expand authors (.plain authors.entity) ann (service records).entity best
        lastBest = .ok (some ("Best", .array values)) := by
  have hq : Query.ofOptions {} none books.entity lastBest.options = .ok
      { select := ["Id", "Title", "AuthorId"], order := [⟨"Title", .desc⟩], top := some 1 } := rfl
  refine ⟨_, hq, ?_⟩
  have hstores : (service records).InMemory := @inMemory_fill (service records) sound_schema _
  obtain ⟨-, hnone, -⟩ | ⟨target, -, htarget, s, hs, hsame⟩ :=
    @navigate_eq_expand (service records) authors best ann draft build_draft hstores
      List.mem_cons_self (by decide) rfl (.ofInt 1) "1" rfl
  · cases hnone
  obtain rfl : books = target := Except.ok.inj htarget
  obtain rfl : Store.new books.entity (records "Books") = s := Option.some.inj hs
  obtain ⟨rows, hrows, hsame⟩ := hsame lastBest _ hq
  have hcount : rows.length = 2 := by
    have hlength := congrArg (fun found => found.toOption.map List.length) hrows
    exact (Option.some.inj hlength).symm
  rw [hcount] at hsame
  rcases hsame (.plain authors.entity) with ⟨context, values, hvalues⟩ | ⟨e, hnavigate, -⟩
  · exact ⟨context, values, hvalues⟩
  · have hshown : ((service records).navigate authors (.ofInt 1) "1" best
        { select := ["Id", "Title", "AuthorId"], order := [⟨"Title", .desc⟩]
          top := some 1 }).toOption.isSome = true := by
      decide +kernel
    rw [hnavigate] at hshown
    cases hshown

end ODataEngine
