import Mathlib.Data.List.Pairwise
import ODataEngine.Proofs.DraftTheorems
import ODataEngine.Proofs.TextTheorems

/-!
# What a built schema guarantees

`Schema.Sound` collects what everything that goes by a schema relies on: names are names and unique
in their scope, and a collection holds the entity type of the schema itself. `Schema.sound_of_build`
is the proof that a built schema has it.

More holds of the navigation properties that were declared for the schema: each leads to a
collection of its target type and is named unlike the fields of its entity type. Of inherited ones
neither is checked (`Schema.inherited_or_linked_of_build`), so only a schema without any is linked
as a whole (`Schema.linked_of_build`).
-/

namespace ODataEngine

/-! ## Sound schemas -/

/-- An entity type whose fields can be told apart ignoring case, as can its navigation properties,
and whose key is a field. -/
structure EntityType.Sound (e : EntityType) : Prop where
  fieldNames : ∀ f ∈ e.fields, Draft.isName f.name = true
  fields : e.fields.Pairwise fun f g => Text.sameName f.name g.name = false
  key : (e.field? e.key).isSome = true
  navigationNames : ∀ n ∈ e.navigations, Draft.isName n.name = true
  navigations : e.navigations.Pairwise fun n m => Text.sameName n.name m.name = false

/-- A schema whose names are unique and whose collections hold its own entity types. -/
structure Schema.Sound (s : Schema) : Prop where
  entityNames : (s.entities.map (·.name)).Nodup
  entities : ∀ e ∈ s.entities, e.Sound
  collectionNames : (s.collections.map (·.name)).Nodup
  collections : ∀ c ∈ s.collections, Draft.isName c.name = true ∧ c.entity ∈ s.entities

/-- The navigation property leads to a collection of its target type. -/
def Schema.Links (s : Schema) (n : Navigation) : Prop :=
  ∃ c ∈ s.collections, c.name = n.collection ∧ c.entity.name = n.target

/-- Names that differ in more than case differ. -/
theorem nodup_of_sameName {α : Type} {name : α → String} {items : List α}
    (h : items.Pairwise fun a b => Text.sameName (name a) (name b) = false) :
    (items.map name).Nodup := by
  rw [List.Nodup, List.pairwise_map]
  apply h.imp
  intro a b hab hsame
  rw [hsame, Text.sameName_refl] at hab
  cases hab

/-- Items of names that differ in more than case are the same if their names agree in any case. -/
theorem eq_of_sameName {α : Type} {name : α → String} {items : List α}
    (h : items.Pairwise fun a b => Text.sameName (name a) (name b) = false) {a b : α}
    (ha : a ∈ items) (hb : b ∈ items) (hsame : Text.sameName (name a) (name b) = true) : a = b := by
  have : Std.Symm fun a b => Text.sameName (name a) (name b) = false :=
    ⟨fun a b h => Text.sameName_comm (name a) (name b) ▸ h⟩
  by_contra hne
  have := h.forall ha hb hne
  rw [hsame] at this
  cases this

/-- Where names differ in more than case, looking up the name of an item in any case finds it. -/
theorem find?_sameName_eq_some {α : Type} {name : α → String} {items : List α}
    (h : items.Pairwise fun a b => Text.sameName (name a) (name b) = false) {a : α} (ha : a ∈ items)
    {written : String} (hw : Text.sameName (name a) written = true) :
    items.find? (fun b => Text.sameName (name b) written) = some a := by
  refine find?_eq_some_of_unique ha hw fun b hb hwritten => eq_of_sameName h hb ha ?_
  rw [Text.sameName_comm] at hw
  exact Text.sameName_trans hwritten hw

namespace EntityType.Sound

variable {e : EntityType} (h : e.Sound)

include h

/-- A field is found by its name in any case. -/
theorem field?_eq_some {f : Field} (hf : f ∈ e.fields) {name : String}
    (hname : Text.sameName f.name name = true) : e.field? name = some f :=
  find?_sameName_eq_some h.fields hf hname

/-- A navigation property is found by its name in any case. -/
theorem navigation?_eq_some {n : Navigation} (hn : n ∈ e.navigations) {name : String}
    (hname : Text.sameName n.name name = true) : e.navigation? name = some n :=
  find?_sameName_eq_some h.navigations hn hname

/-- The key at least is a field. -/
theorem fields_ne_nil : e.fields ≠ [] := by
  intro hnil
  have hkey := h.key
  rw [EntityType.field?, hnil] at hkey
  cases hkey

end EntityType.Sound

namespace Schema.Sound

variable {s : Schema} (h : s.Sound)

include h

/-- A collection is found by its name. -/
theorem collection?_eq_some {c : Collection} (hc : c ∈ s.collections) :
    s.collection? c.name = some c :=
  find?_name_eq_some h.collectionNames hc

/-- Collections of one name are the same. -/
theorem eq_of_name_eq {c c' : Collection} (hc : c ∈ s.collections) (hc' : c' ∈ s.collections)
    (hname : c.name = c'.name) : c = c' := by
  have hfound := h.collection?_eq_some hc
  rw [hname, h.collection?_eq_some hc'] at hfound
  exact (Option.some.inj hfound).symm

/-- The collection that a linked navigation property leads to is found, and so is the target type,
which is that of the collection. -/
theorem exists_target {n : Navigation} (hn : s.Links n) :
    ∃ c ∈ s.collections, s.collection? n.collection = some c ∧
      s.entity? n.target = some c.entity := by
  obtain ⟨c, hc, hname, htarget⟩ := hn
  refine ⟨c, hc, ?_, ?_⟩
  · rw [← hname, h.collection?_eq_some hc]
  · rw [← htarget]
    exact find?_name_eq_some h.entityNames (h.collections c hc).2

end Schema.Sound

namespace Draft

/-! ## Names -/

/-- A text of at least one character, and none that is reserved. -/
def IsClean (name : String) : Prop :=
  name.toList ≠ [] ∧ ∀ c ∈ name.toList, isReserved c = false

theorem isClean_of_isName {name : String} (h : isName name = true) : IsClean name := by
  rw [isName, Bool.and_eq_true, Bool.and_eq_true] at h
  obtain ⟨⟨hne, -⟩, hclean⟩ := h
  refine ⟨by simpa using hne, ?_⟩
  simpa using hclean

theorem head_of_isName {name : String} (h : isName name = true) : name.toList.head? ≠ some '$' := by
  rw [isName, Bool.and_eq_true, Bool.and_eq_true] at h
  simpa using h.1.2

theorem IsClean.ne_of_mem {name : String} (h : IsClean name) {c d : Char}
    (hd : isReserved d = true) (hc : c ∈ name.toList) : c ≠ d := by
  rintro rfl
  rw [h.2 c hc] at hd
  cases hd

theorem IsClean.isBlank_of_mem {name : String} (h : IsClean name) {c : Char}
    (hc : c ∈ name.toList) : Text.isBlank c = false := by
  have hreserved := h.2 c hc
  rw [isReserved, Bool.or_eq_false_iff] at hreserved
  exact hreserved.1

/-- Plain characters are not reserved. -/
theorem isReserved_of_isPlain {c : Char} (h : Text.isPlain c = true) : isReserved c = false := by
  rw [isReserved, Text.not_isBlank_of_isPlain h, Bool.false_or]
  refine Bool.eq_false_iff.2 fun hmem => ?_
  rw [List.contains_iff_mem] at hmem
  have hnone : "/(),;'=".toList.all (!Text.isPlain ·) = true := rfl
  have hc := List.all_eq_true.1 hnone c hmem
  rw [h] at hc
  cases hc

/-- A name keeps clean in any case. -/
theorem IsClean.of_sameName {name name' : String} (h : IsClean name)
    (hsame : Text.sameName name' name = true) : IsClean name' := by
  refine ⟨fun hnil => ?_, fun c hc => ?_⟩
  · have hlength := Text.length_eq_of_sameName hsame
    rw [hnil, List.length_nil] at hlength
    exact h.1 (List.length_eq_zero_iff.1 hlength.symm)
  · cases hletter : Text.isLetter c with
    | true => exact isReserved_of_isPlain (Text.isPlain_of_isLetter hletter)
    | false => exact h.2 c (Text.mem_of_sameName hsame hletter hc)

/-- The key is spelled like a field but for case. -/
theorem isClean_key {e : EntityType} (h : e.Sound) : IsClean e.key := by
  obtain ⟨f, hf⟩ := Option.isSome_iff_exists.1 h.key
  obtain ⟨hmem, hsame⟩ := EntityType.mem_of_field? hf
  rw [Text.sameName_comm] at hsame
  exact (isClean_of_isName (h.fieldNames f hmem)).of_sameName hsame

end Draft

/-! ## The schema -/

/-- A navigation property that is declared for an entity type leads to a collection of its target
type, and is named unlike the fields and the inherited navigation properties of the entity type. -/
theorem Draft.IsConsistent.spec_of_mem_navigationsOf {d : Draft} (h : d.IsConsistent)
    {declared : EntityDeclaration} (hmem : declared ∈ d.entities) {n : Navigation}
    (hn : n ∈ Draft.navigationsOf d.collections declared.name d.navigations) :
    d.linked.Links n ∧ Draft.isName n.name = true ∧
      (∀ f ∈ declared.fields, Text.sameName f.name n.name = false) ∧
      ∀ m ∈ declared.inherited, Text.sameName m.name n.name = false := by
  obtain ⟨p, hp, howner, c, hc, hname, rfl⟩ := Draft.mem_navigationsOf hn
  obtain ⟨declared', hmem', hsameName, hapart⟩ := h.owners p hp
  have hsame : declared' = declared := by
    have hfound := find?_name_eq_some (List.pairwise_map.2 h.entities) hmem
    rw [← howner, ← hsameName, find?_name_eq_some (List.pairwise_map.2 h.entities) hmem'] at hfound
    exact Option.some.inj hfound
  subst hsame
  refine ⟨?_, h.navigationNames p hp, hapart⟩
  rw [← Draft.views_linked h] at hc
  obtain ⟨c', hc', rfl⟩ := List.mem_map.1 hc
  exact ⟨c', hc', hname, rfl⟩

/-- An entity type of consistent declarations is sound. -/
theorem Draft.IsConsistent.sound_entity {d : Draft} (h : d.IsConsistent) {e : EntityType}
    (he : e ∈ d.linkedEntities) : e.Sound := by
  obtain ⟨declared, hmem, rfl⟩ := List.mem_map.1 he
  have hadded := fun n hn => h.spec_of_mem_navigationsOf hmem (n := n) hn
  refine ⟨h.fieldNames _ hmem, h.fields _ hmem, List.find?_isSome.2 (h.keys _ hmem), ?_, ?_⟩
  · intro n hn
    rcases List.mem_append.1 hn with hinherited | hn
    · exact declared.named n hinherited
    · exact (hadded n hn).2.1
  · refine List.pairwise_append.2 ⟨declared.apart, ?_, fun m hm n hn => (hadded n hn).2.2.2 m hm⟩
    refine List.pairwise_filterMap.2 (h.navigations.imp fun hpq n hn m hm => ?_)
    obtain ⟨hp, hn⟩ := Option.ite_none_right_eq_some.1 hn
    obtain ⟨hq, hm⟩ := Option.ite_none_right_eq_some.1 hm
    obtain ⟨c, -, rfl⟩ := Option.map_eq_some_iff.1 hn
    obtain ⟨c', -, rfl⟩ := Option.map_eq_some_iff.1 hm
    exact hpq (hp.trans hq.symm)

/-- A schema that was built is sound. -/
theorem Schema.sound_of_build {d : Draft} {s : Schema} (hbuild : d.build = .ok s) : s.Sound := by
  obtain ⟨h, rfl⟩ := Draft.build_eq_ok_iff.1 hbuild
  have hviews := Draft.views_linked h
  refine ⟨?_, fun e he => h.sound_entity he, ?_, ?_⟩
  · rw [Draft.linked, Draft.linkedEntities, List.map_map]
    exact List.pairwise_map.2 h.entities
  · have hnames : (d.collections.map (·.1)).Nodup := List.pairwise_map.2 h.collections
    rw [← hviews, List.map_map] at hnames
    exact hnames
  · intro c hc
    have hview : (c.name, c.entity.name) ∈ d.collections := by
      rw [← hviews]
      exact List.mem_map_of_mem (f := fun c => (c.name, c.entity.name)) hc
    exact ⟨h.collectionNames (c.name, c.entity.name) hview, Draft.entity_mem_linked h hc⟩

/-- A navigation property of a built schema was inherited with its entity type, or it leads to a
collection of its target type and is named unlike the fields of its entity type. -/
theorem Schema.inherited_or_linked_of_build {d : Draft} {s : Schema} (hbuild : d.build = .ok s)
    {e : EntityType} (he : e ∈ s.entities) {n : Navigation} (hn : n ∈ e.navigations) :
    (∃ declared ∈ d.entities, declared.name = e.name ∧ n ∈ declared.inherited) ∨
      s.Links n ∧ ∀ f ∈ e.fields, Text.sameName f.name n.name = false := by
  obtain ⟨h, rfl⟩ := Draft.build_eq_ok_iff.1 hbuild
  obtain ⟨declared, hmem, rfl⟩ := List.mem_map.1 he
  rcases List.mem_append.1 hn with hinherited | hn
  · exact .inl ⟨declared, hmem, rfl, hinherited⟩
  · obtain ⟨hlinks, -, hfields, -⟩ := h.spec_of_mem_navigationsOf hmem hn
    exact .inr ⟨hlinks, hfields⟩

/-- The declaration of an entity type without its navigation properties. -/
def EntityType.declaration (e : EntityType) : EntityDeclaration :=
  { name := e.name, key := e.key, fields := e.fields }

/-- The declaration of an entity type that is taken from a schema, with more fields behind its own.
The navigation properties are inherited. -/
def EntityType.taken (e : EntityType) (h : e.Sound) (more : List Field) : EntityDeclaration where
  name := e.name
  key := e.key
  fields := e.fields ++ more
  inherited := e.navigations
  named := h.navigationNames
  apart := h.navigations

/-! ## A library

A schema with keys of two types and links of both rules, for the examples of later modules. -/

namespace Library

/-- Authors with their books and their favourites. -/
def authors : Collection where
  name := "Authors"
  entity := {
    name := "Author", key := "Id"
    fields := [⟨"Id", .int32, false⟩, ⟨"Name", .string, false⟩, ⟨"Favourites", .int32, true⟩]
    navigations := [
      ⟨"Books", "Books", "Book", .many, ⟨.foreignKey, "Id", "AuthorId"⟩⟩,
      ⟨"Best", "Books", "Book", .many, ⟨.keyList, "Favourites", "Id"⟩⟩] }

/-- Books with their author. -/
def books : Collection where
  name := "Books"
  entity := {
    name := "Book", key := "Id"
    fields := [⟨"Id", .int32, false⟩, ⟨"Title", .string, false⟩, ⟨"AuthorId", .int32, false⟩]
    navigations := [⟨"Author", "Authors", "Author", .one, ⟨.foreignKey, "AuthorId", "Id"⟩⟩] }

/-- Shelves with their books, found by a label. -/
def shelves : Collection where
  name := "Shelves"
  entity := {
    name := "Shelf", key := "Label"
    fields := [⟨"Label", .string, false⟩, ⟨"BookIds", .int32, true⟩]
    navigations := [⟨"Books", "Books", "Book", .many, ⟨.keyList, "BookIds", "Id"⟩⟩] }

/-- The collections of the library. -/
def collections : List Collection := [authors, books, shelves]

/-- The schema of the library. -/
def schema : Schema where
  nameSpace := "Library"
  entities := collections.map (·.entity)
  collections := collections

/-- The declarations of the library. -/
def draft : Draft where
  nameSpace := "Library"
  entities := collections.map (·.entity.declaration)
  collections := collections.map fun c => (c.name, c.entity.name)
  navigations := collections.flatMap fun c => c.entity.navigations.map fun n => (c.entity.name, n)

theorem build_draft : draft.build = .ok schema := rfl

theorem sound_schema : schema.Sound := Schema.sound_of_build build_draft

/-- The authors, taken from the library to a place without books. -/
def abroadDraft : Draft where
  nameSpace := "Abroad"
  entities := [authors.entity.taken (sound_schema.entities _ List.mem_cons_self) []]
  collections := [("Authors", "Author")]

/-- The schema of that place. The navigation properties of the authors still name the books. -/
def abroadSchema : Schema where
  nameSpace := "Abroad"
  entities := [authors.entity]
  collections := [authors]

theorem build_abroadDraft : abroadDraft.build = .ok abroadSchema := rfl

end Library

end ODataEngine
