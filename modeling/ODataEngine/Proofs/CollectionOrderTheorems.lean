import ODataEngine.Proofs.EntityRouteTheorems
import ODataEngine.Proofs.RegistryTheorems

/-!
# The order of collections

A route tries the collections in the order of their declarations and goes into the first that fits.
That order decides nothing: names are unique and hold none of the characters that may stand behind
them in a path, so a path fits one collection at most. `Draft.exists_build_of_perm` says that
collections may be declared in any order, `Route.resolve_eq_of_perm` that paths lead to the same
places whatever the order is.
-/

namespace ODataEngine

/-- Where names are unique, looking one up finds the same item in any order of the items. -/
theorem find?_name_of_perm {α : Type} {name : α → String} {items items' : List α}
    (hperm : items'.Perm items) (hnames : (items.map name).Nodup) (wanted : String) :
    items'.find? (fun a => name a == wanted) = items.find? (fun a => name a == wanted) := by
  cases hfound : items.find? (fun a => name a == wanted) with
  | none =>
    rw [List.find?_eq_none] at hfound ⊢
    exact fun a ha => hfound a (hperm.mem_iff.1 ha)
  | some a =>
    have ha : a ∈ items' := hperm.mem_iff.2 (List.mem_of_find?_eq_some hfound)
    obtain rfl : name a = wanted := by simpa using List.find?_some hfound
    exact find?_name_eq_some ((hperm.map name).nodup_iff.2 hnames) ha

namespace Draft

variable {d : Draft}

/-- Declarations stay consistent when their collections are put in another order. -/
theorem IsConsistent.of_perm (h : d.IsConsistent) {collections : List (String × String)}
    (hperm : collections.Perm d.collections) :
    IsConsistent { d with collections := collections } := by
  have hcollections : collections.Pairwise fun c c' => c.1 ≠ c'.1 :=
    (hperm.pairwise_iff fun hne => Ne.symm hne).2 h.collections
  have hdeclared : ∀ {name : String}, (∃ c ∈ d.collections, c.1 = name) →
      ∃ c ∈ collections, c.1 = name := by
    intro name hname
    obtain ⟨c, hc, rfl⟩ := hname
    exact ⟨c, hperm.mem_iff.2 hc, rfl⟩
  exact { h with
    collectionNames := fun c hc => h.collectionNames c (hperm.mem_iff.1 hc)
    collections := hcollections
    types := fun c hc => h.types c (hperm.mem_iff.1 hc)
    targets := fun p hp => hdeclared (h.targets p hp)
    operated := fun p hp => hdeclared (h.operated p hp) }

/-- The entity types of consistent declarations do not depend on the order of the collections. -/
theorem IsConsistent.linkedEntities_of_perm (h : d.IsConsistent)
    {collections : List (String × String)} (hperm : collections.Perm d.collections) :
    linkedEntities { d with collections := collections } = d.linkedEntities := by
  have hnames : (d.collections.map (·.1)).Nodup := List.pairwise_map.2 h.collections
  have hfind := find?_name_of_perm hperm hnames
  simp only [linkedEntities, navigationsOf, hfind]

/-- A collection of the schema is what its declaration is linked to. -/
theorem IsConsistent.link_eq_self (h : d.IsConsistent) {c : Collection}
    (hc : c ∈ d.linked.collections) :
    (d.linkedEntities.find? (·.name == c.entity.name)).map
        (fun e => Draft.operated { name := c.name, entity := e } (operationsOf c.name d.operations))
      = some c := by
  have hsound := Schema.sound_of_build (build_eq_ok_iff.2 ⟨h, rfl⟩)
  have hentity : d.linkedEntities.find? (·.name == c.entity.name) = some c.entity :=
    find?_name_eq_some hsound.entityNames (hsound.collections c hc).2
  have hoperations := h.registers.operations c hc
  rw [hentity, Option.map_some, Draft.operated, operationsOf_eq_map_filter, ← hoperations]
  rfl

/-- The collections of a schema may be declared in any order, and then stand in that order. -/
theorem exists_build_of_perm {s : Schema} (hbuild : d.build = .ok s) {collections : List Collection}
    (hperm : collections.Perm s.collections) :
    ∃ d' : Draft, d'.build = .ok { s with collections := collections } := by
  obtain ⟨h, rfl⟩ := build_eq_ok_iff.1 hbuild
  have hdeclared : (collections.map fun c => (c.name, c.entity.name)).Perm d.collections := by
    rw [← views_linked h]
    exact hperm.map _
  refine ⟨{ d with collections := collections.map fun c => (c.name, c.entity.name) }, ?_⟩
  rw [build_eq_ok_iff]
  refine ⟨h.of_perm hdeclared, ?_⟩
  have hlinked : ((collections.map fun c => (c.name, c.entity.name)).filterMap fun p =>
      ((d.linkedEntities.find? (·.name == p.2)).map fun e => { name := p.1, entity := e }).map
        fun c : Collection => operated c (operationsOf c.name d.operations)) = collections := by
    rw [List.filterMap_map]
    conv_rhs => rw [← List.filterMap_some (l := collections)]
    refine List.filterMap_congr fun c hc => ?_
    rw [Function.comp_apply, Option.map_map]
    exact h.link_eq_self (hperm.mem_iff.1 hc)
  simp only [linked, h.linkedEntities_of_perm hdeclared, resolveCollections, List.map_filterMap,
    hlinked]

end Draft

namespace Route

/-- The order of the collections decides nothing. Those of a built schema may stand in any order in
a built schema; then every method and path is resolved as before, to the same collection, key,
literal, navigation property and endpoint or to the same failure, and each collection has the store
that it had. A path goes into one collection at most, so no order could matter, also where the name
of one collection begins that of another. -/
theorem resolve_eq_of_perm {d : Draft} {s : Schema} (hbuild : d.build = .ok s)
    {collections : List Collection} (hperm : collections.Perm s.collections) :
    let reordered : Schema := { s with collections := collections }
    (∃ d' : Draft, d'.build = .ok reordered) ∧
      (∀ site method path, resolve reordered site method path = resolve s site method path) ∧
      (∀ (store : Collection → Store), ∀ c ∈ s.collections,
        Stores.store? (reordered.collections.map fun c => (c.name, store c)) c.name
          = Stores.store? (s.collections.map fun c => (c.name, store c)) c.name) ∧
      ∀ path, ∀ c ∈ s.collections, ∀ c' ∈ s.collections,
        (afterCollection? path c).isSome → (afterCollection? path c').isSome → c = c' := by
  intro reordered
  obtain ⟨d', hbuild'⟩ := Draft.exists_build_of_perm hbuild hperm
  have hsound := Schema.sound_of_build hbuild
  have hsound' : reordered.Sound := Schema.sound_of_build hbuild'
  have hfound : ∀ path, reordered.collections.findSome? (afterCollection? path)
      = s.collections.findSome? (afterCollection? path) := by
    intro path
    apply Option.ext
    intro found
    rw [findSome?_afterCollection_iff hsound', findSome?_afterCollection_iff hsound]
    exact exists_congr fun c => and_congr_left' hperm.mem_iff
  refine ⟨⟨d', hbuild'⟩, fun site method path => ?_, fun store c hc => ?_, ?_⟩
  · have hrest : ∀ rest, resolveRest reordered method rest = resolveRest s method rest := by
      intro rest
      unfold resolveRest
      rw [hfound]
      rfl
    unfold resolve
    simp only [hrest]
  · rw [hsound'.store?_map store (hperm.mem_iff.2 hc), hsound.store?_map store hc]
  · intro path c hc c' hc' h h'
    obtain ⟨found, hfound⟩ := Option.isSome_iff_exists.1 h
    obtain ⟨found', hfound'⟩ := Option.isSome_iff_exists.1 h'
    exact eq_of_afterCollection? hsound hc hc' hfound hfound'

end Route

namespace Library

/-- Books that are lent no more. The name of the collection begins with that of another. -/
def archive : Collection := { name := "BooksArchive", entity := books.entity }

/-- The library with its archive. -/
def archivingDraft : Draft :=
  { draft with collections := draft.collections ++ [(archive.name, archive.entity.name)] }

/-- The schema of the library with its archive. -/
def archivingSchema : Schema := { schema with collections := collections ++ [archive] }

theorem build_archivingDraft : archivingDraft.build = .ok archivingSchema := rfl

/-- An archived book is found in the archive, whether the books are tried before it or after it. -/
theorem archive_in_either_order :
    let site : Site := { base := "http://localhost", path := "/odata" }
    let backwards : Schema :=
      { archivingSchema with collections := archivingSchema.collections.reverse }
    backwards.collections.Perm archivingSchema.collections ∧
      (Route.resolve archivingSchema site "GET" "/odata/BooksArchive(3)/Author").address.collection
        = some archive ∧
      (Route.resolve backwards site "GET" "/odata/BooksArchive(3)/Author").address.collection
        = some archive := by
  intro site backwards
  have hperm : backwards.collections.Perm archivingSchema.collections := List.reverse_perm _
  have hsame := (Route.resolve_eq_of_perm build_archivingDraft hperm).2.1
  have hfound : (Route.resolve archivingSchema site "GET"
      "/odata/BooksArchive(3)/Author").address.collection = some archive := by
    decide +kernel
  refine ⟨hperm, hfound, ?_⟩
  rw [← hfound, ← hsame]

end Library

end ODataEngine
