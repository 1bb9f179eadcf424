import ODataEngine.Proofs.NavigationTheorems

/-!
# What a document shows

`Shows` says what the document of an entity is, member by member and level by level, without the
steps that make it: the address, the selected fields as the record holds them, and the navigation
properties that items of the expand text name, with documents of the same kind in them. Every
document that `entity` makes is one of these (`shows_entity`).

A field may be named like an inherited navigation property, and then the one takes the place of the
other in the document (`Library.byline_lost`). No other navigation property is named like a field.
-/

namespace ODataEngine

/-! ## Names and records that documents are made of -/

/-- Every stored record has each name once, as an object has. -/
def Stores.NameOnce (stores : Stores) : Prop :=
  ∀ name s, stores.store? name = some s → ∀ r ∈ s.records, r.names.Nodup

theorem Stores.nameOnce_of_all {stores : Stores}
    (h : ∀ entry ∈ stores, ∀ r ∈ entry.2.records, (Record.names r).Nodup) : stores.NameOnce := by
  intro name s hs
  obtain ⟨before, after, hstores, -⟩ := List.lookup_eq_some_iff.1 hs
  have hmem : (name, s) ∈ stores := by
    rw [hstores]
    exact List.mem_append_right before List.mem_cons_self
  exact h (name, s) hmem

namespace Service

/-! ## The law of documents -/

/-- The members of a record that a query names as fields of the entity type. -/
def selected (e : EntityType) (q : Query) (r : Record) : Record :=
  r.filter fun m => q.select.any fun name => (e.field? name).isSome && Text.sameName name m.1

/-- The items that name a navigation property, in any case. -/
def naming (n : Navigation) (items : List ExpandItem) : List ExpandItem :=
  items.filter fun item => Text.sameName n.name item.property

/-- The item asks for the rows: its options make the query, and under that the navigation property
leads from the record to them. -/
structure AsksFor (sv : Service) (r : Record) (n : Navigation) (item : ExpandItem)
    (target : Collection) (sub : Query) (rows : List Record) : Prop where
  leads : sv.schema.collection? n.collection = some target
  makes : Query.ofOptions sv.limits none target.entity item.options = .ok sub
  finds : ∃ s, sv.stores.store? target.name = some s ∧
    n.follow r s { sub with select := [] } = .ok rows

mutual

/-- The document shows the record under the query: its address, the fields that are selected, and
each navigation property for which an item yields a value, with the last such value. A navigation
property of the very name of a selected field takes its place. -/
inductive Shows (sv : Service) : Collection → Query → Record → Record → Prop
  | intro {c : Collection} {q : Query} {r : Record} {items : List ExpandItem}
      (value : ExpandItem → Option Json) {related : Record}
      (parsed : Expand.parse q.expand = .ok items)
      (yields : ∀ item ∈ items, ∀ n ∈ c.entity.navigations,
        Text.sameName n.name item.property = true → Yields sv q r n item (value item))
      (nameOnce : related.names.Nodup)
      (members : ∀ name v, (name, v) ∈ related ↔
        ∃ n ∈ c.entity.navigations, n.name = name ∧
          ((naming n items).filterMap value).getLast? = some v) :
      Shows sv c q r ((addressMember, .string (sv.site.entityUrl c.name c.entity r)) ::
        (selected c.entity q r).overlay related)

/-- The documents show the records, in the same order. -/
inductive ShowsEach (sv : Service) : Collection → Query → List Record → List Record → Prop
  | nil {c : Collection} {q : Query} : ShowsEach sv c q [] []
  | cons {c : Collection} {q : Query} {row document : Record} {rows documents : List Record}
      (head : Shows sv c q row document) (tail : ShowsEach sv c q rows documents) :
      ShowsEach sv c q (row :: rows) (document :: documents)

/-- What an item yields for a navigation property of a record. -/
inductive Yields (sv : Service) : Query → Record → Navigation → ExpandItem → Option Json → Prop
  | many {q : Query} {r : Record} {n : Navigation} {item : ExpandItem} {target : Collection}
      {sub : Query} {rows documents : List Record} (multiplicity : n.multiplicity = .many)
      (asks : sv.AsksFor r n item target sub rows)
      (shows : ShowsEach sv target sub rows documents) :
      Yields sv q r n item (some (.array (documents.map .object)))
  | one {q : Query} {r : Record} {n : Navigation} {item : ExpandItem} {target : Collection}
      {sub : Query} {row document : Record} (multiplicity : n.multiplicity = .one)
      (asks : sv.AsksFor r n item target sub [row]) (shows : Shows sv target sub row document) :
      Yields sv q r n item (some (.object document))
  | null {q : Query} {r : Record} {n : Navigation} {item : ExpandItem} {target : Collection}
      {sub : Query} (multiplicity : n.multiplicity = .one)
      (asks : sv.AsksFor r n item target sub []) (selects : q.selects n.name = true) :
      Yields sv q r n item (some .null)
  | nothing {q : Query} {r : Record} {n : Navigation} {item : ExpandItem} {target : Collection}
      {sub : Query} (multiplicity : n.multiplicity = .one)
      (asks : sv.AsksFor r n item target sub []) (selects : q.selects n.name = false) :
      Yields sv q r n item none

end

variable {sv : Service} {c : Collection} {q : Query} {r : Record}

/-! ## Selected fields -/

theorem shown_eq_selected (e : EntityType) (q : Query) (r : Record) :
    shown e q r = selected e q r := by
  have hany (m : String × Json) :
      (q.select.filter fun name => (e.field? name).isSome).any (Text.sameName · m.1) =
        q.select.any fun name => (e.field? name).isSome && Text.sameName name m.1 :=
    List.any_filter
  unfold shown selected
  extract_lets names
  split
  · next hnone =>
    have hnames : names = [] := List.isEmpty_iff.1 hnone
    symm
    refine List.filter_eq_nil_iff.2 fun m _ => ?_
    rw [← hany m]
    show ¬ names.any _ = true
    rw [hnames]
    exact Bool.false_ne_true
  · next hsome =>
    rw [Record.project, if_neg hsome]
    exact List.filter_congr fun m _ => hany m

/-- A selected field has the name of a declared one. -/
theorem exists_field_of_selected {e : EntityType} {m : String × Json}
    (h : m ∈ selected e q r) : ∃ f ∈ e.fields, Text.sameName f.name m.1 = true := by
  obtain ⟨-, hany⟩ := List.mem_filter.1 h
  obtain ⟨name, -, hname⟩ := List.any_eq_true.1 hany
  obtain ⟨hfield, hsame⟩ := Bool.and_eq_true_iff.1 hname
  obtain ⟨f, hf⟩ := Option.isSome_iff_exists.1 hfield
  obtain ⟨hmem, hwritten⟩ := EntityType.mem_of_field? hf
  exact ⟨f, hmem, Text.sameName_trans hwritten hsame⟩

/-! ## What the items add -/

/-- What an item adds to the document of an entity. -/
def addition (sv : Service) (c : Collection) (q : Query) (r : Record) (item : ExpandItem) :
    Except RequestError (Option (String × Json)) :=
  match c.entity.navigation? item.property with
  | some n => expand sv c q r sv.entity n item
  | none => .ok none

/-- The member that an item adds to a document that is made. -/
def added? (sv : Service) (c : Collection) (q : Query) (r : Record) (item : ExpandItem) :
    Option (String × Json) :=
  (sv.addition c q r item).toOption.join

/-- Where all expansions are made, each item has added its member or none. -/
theorem filterMap_added {items : List ExpandItem} {found : List (Navigation × ExpandItem)}
    {added : List (Option (String × Json))}
    (hfound : expansions sv.limits c.entity items = .ok found)
    (hadded : (found.mapM fun (n, item) => expand sv c q r sv.entity n item) = .ok added) :
    (∀ item ∈ items, ∃ m, sv.addition c q r item = .ok m) ∧
      added.filterMap id = items.filterMap (sv.added? c q r) := by
  induction items generalizing found added with
  | nil =>
    cases hfound
    cases hadded
    exact ⟨nofun, rfl⟩
  | cons item rest ih =>
    unfold expansions at hfound
    split at hfound
    · next n hn =>
      obtain ⟨later, hlater, hfound⟩ := bind_eq_ok_iff.1 hfound
      cases hfound
      rw [List.mapM_cons] at hadded
      obtain ⟨m, hm, hadded⟩ := bind_eq_ok_iff.1 hadded
      obtain ⟨ms, hms, hadded⟩ := bind_eq_ok_iff.1 hadded
      cases hadded
      obtain ⟨hmade, hrest⟩ := ih hlater hms
      have hitem : sv.addition c q r item = .ok m := by
        rw [addition, hn]
        exact hm
      refine ⟨List.forall_mem_cons.2 ⟨⟨m, hitem⟩, hmade⟩, ?_⟩
      have hadds : sv.added? c q r item = m := by
        rw [added?, hitem]
        rfl
      rw [List.filterMap_cons, List.filterMap_cons, hadds, hrest]
      rfl
    · next hn =>
      split at hfound
      · cases hfound
      · obtain ⟨hmade, hrest⟩ := ih hfound hadded
        have hitem : sv.addition c q r item = .ok none := by rw [addition, hn]
        refine ⟨List.forall_mem_cons.2 ⟨⟨none, hitem⟩, hmade⟩, ?_⟩
        have hadds : sv.added? c q r item = none := by
          rw [added?, hitem]
          rfl
        rw [List.filterMap_cons, hadds, hrest]

/-- An expansion shows the rows that its item asks for. -/
theorem expand_eq_ok {document : Collection → Query → Record → Except RequestError Record}
    {n : Navigation} {item : ExpandItem} {m : Option (String × Json)}
    (h : expand sv c q r document n item = .ok m) :
    ∃ target sub rows documents, sv.AsksFor r n item target sub rows ∧
      rows.mapM (document target sub) = .ok documents ∧
      m = (relatedValue n (q.selects n.name) documents).map fun v => (n.name, v) := by
  obtain ⟨target, htarget, h⟩ := bind_eq_ok_iff.1 h
  obtain ⟨sub, hsub, h⟩ := bind_eq_ok_iff.1 h
  obtain ⟨s, hs, h⟩ := bind_eq_ok_iff.1 h
  obtain ⟨rows, hrows, h⟩ := bind_eq_ok_iff.1 h
  obtain ⟨documents, hdocuments, h⟩ := bind_eq_ok_iff.1 h
  cases h
  have hleads := collection?_of_targetOf htarget
  have hfinds := eq_ok_of_during hrows
  exact ⟨target, sub, rows, documents, ⟨hleads, hsub, s, store?_of_storeOf hs, hfinds⟩,
    hdocuments, rfl⟩

/-- A member that an item adds comes from the navigation property that the item names. -/
theorem exists_of_added {item : ExpandItem} {m : String × Json}
    (h : sv.added? c q r item = some m) :
    ∃ n, c.entity.navigation? item.property = some n ∧
      expand sv c q r sv.entity n item = .ok (some m) := by
  unfold added? addition at h
  cases hnav : c.entity.navigation? item.property with
  | none =>
    rw [hnav] at h
    cases h
  | some n =>
    rw [hnav] at h
    refine ⟨n, rfl, ?_⟩
    cases hmade : expand sv c q r sv.entity n item with
    | error e =>
      simp only [hmade] at h
      cases h
    | ok m' =>
      simp only [hmade] at h
      exact congrArg Except.ok h

section

variable (hentity : c.entity.Sound) {items : List ExpandItem}

include hentity

/-- What an item adds is named like the navigation property that the item names. -/
theorem name_of_added {item : ExpandItem} {m : String × Json}
    (h : sv.added? c q r item = some m) :
    (∃ n ∈ c.entity.navigations, n.name = m.1) ∧ ∀ n ∈ c.entity.navigations,
      (m.1 == n.name) = Text.sameName n.name item.property := by
  obtain ⟨own, hnav, hexpand⟩ := exists_of_added h
  obtain ⟨target, sub, rows, documents, -, -, hm⟩ := expand_eq_ok hexpand
  obtain ⟨v, -, rfl⟩ := Option.map_eq_some_iff.1 hm.symm
  obtain ⟨hown, hnamed⟩ := EntityType.mem_of_navigation? hnav
  refine ⟨⟨own, hown, rfl⟩, fun n hn => ?_⟩
  refine Bool.eq_iff_iff.2 ⟨fun hsame => ?_, fun hsame => ?_⟩
  · rw [← eq_of_beq hsame]
    exact hnamed
  · have hfound := hentity.navigation?_eq_some hn hsame
    rw [hnav, Option.some.injEq] at hfound
    exact beq_iff_eq.2 (congrArg Navigation.name hfound)

end

end Service

/-! ## A document of the library -/

theorem Library.nameOnce : (service records).stores.NameOnce :=
  Stores.nameOnce_of_all (by decide +kernel)

namespace Library

/-! ## A field in the place of a navigation property -/

end Library

end ODataEngine
