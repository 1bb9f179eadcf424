import ODataEngine.Proofs.FilterTextTheorems
import ODataEngine.Proofs.QueryTheorems
import ODataEngine.Proofs.SchemaTheorems

/-!
# Well-formed queries

Every option has a reader and a cap of its own, and the options inside an `$expand` text are read
level by level. What has passed them all is well formed:

- `SelectOption.IsSelection`, `OrderByOption.IsOrder` and `FilterOption.IsClause` say what the
  readers of lists and filters let through.
- `Query.FitsOptions` puts them together for the options of one level.
- `Query.WellFormed` is the whole of it, at every level of the expand text, and
  `Query.wellFormed_of_ofOptions` is the proof that every query that was read has it.

Below a navigation property whose target type the schema does not have nothing is read. Only
inherited ones can be like that (`Library.unread_abroad`).
-/

namespace ODataEngine

variable {limits : QueryLimits} {e : EntityType}

/-! ## Selected members -/

namespace SelectOption

/-- What may be selected: at least one name and at most as many as the cap allows, each of them the
declared name of a field or a navigation property, and none of them twice in any case. -/
structure IsSelection (limits : QueryLimits) (e : EntityType) (names : List String) : Prop where
  nonempty : names ≠ []
  capped : names.length ≤ limits.maxSelectFields
  declared : ∀ name ∈ names, name ∈ e.fieldNames ∨ name ∈ e.navigations.map (·.name)
  distinct : names.Pairwise fun a b => Text.sameName a b = false

/-- An item stands for declared names; a star is the only item that could stand for none. -/
theorem resolve_spec {name : String} {names : List String} (h : resolve e name = .ok names) :
    (∀ n ∈ names, n ∈ e.fieldNames ∨ n ∈ e.navigations.map (·.name)) ∧
      (e.fields ≠ [] → names ≠ []) := by
  unfold resolve at h
  split at h
  · cases h
  split at h
  · cases h
    exact ⟨fun n hn => .inl hn, fun hfields => by simpa [EntityType.fieldNames] using hfields⟩
  split at h
  · next f hf =>
    cases h
    have hmem := List.mem_map_of_mem (f := Field.name) (EntityType.mem_of_field? hf).1
    exact ⟨fun n hn => .inl (List.mem_singleton.1 hn ▸ hmem), fun _ => List.cons_ne_nil _ _⟩
  split at h
  · next n hn =>
    cases h
    have hmem := List.mem_map_of_mem (f := Navigation.name) (EntityType.mem_of_navigation? hn).1
    exact ⟨fun m hm => .inr (List.mem_singleton.1 hm ▸ hmem), fun _ => List.cons_ne_nil _ _⟩
  · cases h

/-- Names are added in order, and only where they are new in any case. -/
theorem addNames_spec {sofar names result : List String} (h : addNames sofar names = .ok result) :
    result = sofar ++ names ∧
      (sofar.Pairwise (fun a b => Text.sameName a b = false) →
        result.Pairwise fun a b => Text.sameName a b = false) := by
  induction names generalizing sofar with
  | nil =>
    cases h
    exact ⟨(List.append_nil _).symm, id⟩
  | cons name rest ih =>
    unfold addNames at h
    split at h
    · cases h
    · next hnew =>
      have hnew : ∀ n ∈ sofar, Text.sameName n name = false := by simpa using hnew
      obtain ⟨hresult, hdistinct⟩ := ih h
      refine ⟨by rw [hresult, List.append_assoc, List.singleton_append], fun hsofar => ?_⟩
      exact hdistinct (pairwise_snoc hsofar hnew)

/-- What the names read so far have in common stays with the names of further items. -/
theorem addItems_spec {sofar result : List String} {items : List (List Char)}
    (h : addItems e sofar items = .ok result) :
    (∀ name ∈ result, name ∈ sofar ∨ name ∈ e.fieldNames ∨ name ∈ e.navigations.map (·.name)) ∧
      (sofar.Pairwise (fun a b => Text.sameName a b = false) →
        result.Pairwise fun a b => Text.sameName a b = false) ∧
      (e.fields ≠ [] → sofar ≠ [] ∨ items ≠ [] → result ≠ []) := by
  induction items generalizing sofar with
  | nil =>
    cases h
    exact ⟨fun name hname => .inl hname, id, by simp⟩
  | cons item rest ih =>
    unfold addItems at h
    obtain ⟨names, hnames, h⟩ := bind_eq_ok_iff.1 h
    obtain ⟨added, hadded, h⟩ := bind_eq_ok_iff.1 h
    obtain ⟨hdeclared, hsome⟩ := resolve_spec hnames
    obtain ⟨rfl, hdistinct⟩ := addNames_spec hadded
    obtain ⟨hresult, hpairwise, hnonempty⟩ := ih h
    refine ⟨fun name hname => ?_, hpairwise ∘ hdistinct, fun hfields _ => ?_⟩
    · rcases hresult name hname with hbefore | hlater
      · exact (List.mem_append.1 hbefore).imp_right (hdeclared name)
      · exact .inr hlater
    · exact hnonempty hfields (.inl (by simp [hsome hfields]))

/-- What a `$select` option is read as may be selected. -/
theorem isSelection_of_parse (hfields : e.fields ≠ []) {text : String} {names : List String}
    (h : parse limits e text = .ok names) : IsSelection limits e names := by
  obtain ⟨hread, hcap⟩ := parse_eq_ok_iff.1 h
  unfold SelectOption.read at hread
  split at hread
  · cases hread
  obtain ⟨hdeclared, hdistinct, hnonempty⟩ := addItems_spec hread
  refine ⟨hnonempty hfields (.inr (Text.splitAt_ne_nil _ _)), hcap, ?_, hdistinct .nil⟩
  simpa using hdeclared

end SelectOption

/-! ## Orders -/

namespace OrderByOption

/-- What may be ordered by: at most as many keys as the cap allows, each of them on the declared
name of a field, and no field twice. -/
structure IsOrder (limits : QueryLimits) (e : EntityType) (keys : List OrderKey) : Prop where
  capped : keys.length ≤ limits.maxOrderByFields
  declared : ∀ key ∈ keys, key.field ∈ e.fieldNames
  distinct : (keys.map (·.field)).Nodup

/-- Keys of further items are on declared fields that are not ordered by yet. -/
theorem addItems_spec {sofar result : List OrderKey} {items : List (List Char)}
    (h : addItems e sofar items = .ok result)
    (hdeclared : ∀ key ∈ sofar, key.field ∈ e.fieldNames)
    (hdistinct : (sofar.map (·.field)).Nodup) :
    (∀ key ∈ result, key.field ∈ e.fieldNames) ∧ (result.map (·.field)).Nodup := by
  induction items generalizing sofar with
  | nil =>
    cases h
    exact ⟨hdeclared, hdistinct⟩
  | cons item rest ih =>
    unfold addItems at h
    obtain ⟨⟨name, direction⟩, -, h⟩ := bind_eq_ok_iff.1 h
    simp only at h
    split at h
    · cases h
    next f hf =>
    split at h
    · cases h
    next hnew =>
    have hmem := List.mem_map_of_mem (f := Field.name) (EntityType.mem_of_field? hf).1
    refine ih h ?_ ?_
    · rintro key hkey
      rcases List.mem_append.1 hkey with hbefore | hlast
      · exact hdeclared key hbefore
      · rw [List.mem_singleton.1 hlast]
        exact hmem
    · rw [List.map_append]
      exact pairwise_snoc hdistinct (by simpa using hnew)

/-- What an `$orderby` option is read as may be ordered by. -/
theorem isOrder_of_parse {text : String} {keys : List OrderKey}
    (h : parse limits e text = .ok keys) : IsOrder limits e keys := by
  obtain ⟨hread, hcap⟩ := parse_eq_ok_iff.1 h
  unfold OrderByOption.read at hread
  split at hread
  · cases hread
  obtain ⟨hdeclared, hdistinct⟩ := addItems_spec hread (by simp) .nil
  exact ⟨hcap, hdeclared, hdistinct⟩

end OrderByOption

/-! ## Filters -/

namespace FilterOption

/-- A filter of a single clause, on the declared name of a field. -/
def IsClause (e : EntityType) (p : Predicate) : Prop :=
  ∃ f ∈ e.fields, ∃ clause, p = .field f.name clause

/-- What a `$filter` option is read as is one clause, from a text that is not too long. -/
theorem isClause_of_parse {text : String} {p : Predicate} (h : parse limits e text = .ok p) :
    text.utf8ByteSize ≤ limits.maxFilterLength ∧ IsClause e p := by
  obtain ⟨hcap, hread⟩ := parse_eq_ok_iff.1 h
  obtain ⟨form, -, hdenotes⟩ := read_eq_ok_iff.1 hread
  obtain ⟨name, f, clause, hf, hp, -⟩ := hdenotes.exists_clause
  exact ⟨hcap, f, (EntityType.mem_of_field? hf).1, clause, hp⟩

end FilterOption

namespace Query

/-! ## Well-formed queries -/

/-- What the options of one level make of a query: each part of it is the default, or was let
through by the reader of its option and its cap. -/
structure FitsOptions (limits : QueryLimits) (e : EntityType) (options : List (String × String))
    (q : Query) : Prop where
  once : ((options.filter isOwn).map optionName).Nodup
  unselected : given? "$select" options = none → q.select = e.fieldNames
  selected : given? "$select" options ≠ none → SelectOption.IsSelection limits e q.select
  order : OrderByOption.IsOrder limits e q.order
  unfiltered : given? "$filter" options = none → q.filter = .all
  filtered : ∀ text, given? "$filter" options = some text →
    text.utf8ByteSize ≤ limits.maxFilterLength ∧ FilterOption.IsClause e q.filter
  top : ∀ top most, q.top = some top → limits.maxTop = some most → top ≤ most
  expand : q.expand = Text.trimmed ((given? "$expand" options).getD "")

/-- A query that was made of some options, with all that its expand text asks for: at every level
the options fit the entity type and the limits, every item that names a navigation property has
options of its own that make a well-formed query for the target type, where the schema has that
type, and under strict limits every item names one. -/
inductive WellFormed (limits : QueryLimits) (s : Schema) :
    EntityType → List (String × String) → Query → Prop where
  | intro {e : EntityType} {options : List (String × String)} {q : Query} {items : List ExpandItem}
    (fits : FitsOptions limits e options q)
    (read : Expand.parse q.expand = .ok items)
    (named : limits.strictExpand = true → ∀ item ∈ items,
      (e.navigation? item.property).isSome = true)
    (makes : ∀ item ∈ items, ∀ n target, e.navigation? item.property = some n →
      s.entity? n.target = some target →
      ∃ sub, ofOptions limits (some s) target item.options = .ok sub)
    (nested : ∀ item ∈ items, ∀ n target sub, e.navigation? item.property = some n →
      s.entity? n.target = some target →
      ofOptions limits (some s) target item.options = .ok sub →
        WellFormed limits s target item.options sub) :
    WellFormed limits s e options q

/-- The options of a query that was read fit the entity type and the limits. -/
theorem fitsOptions_of_ofOptions {schema : Option Schema} (hfields : e.fields ≠ [])
    {options : List (String × String)} {q : Query}
    (h : ofOptions limits schema e options = .ok q) : FitsOptions limits e options q := by
  have hselect := view_of_addOptions rfl (fun hne hsets => hsets.kept.select hne) h
  have hfilter := view_of_addOptions rfl (fun hne hsets => hsets.kept.filter hne) h
  have horder := view_of_addOptions rfl (fun hne hsets => hsets.kept.order hne) h
  have htop := view_of_addOptions rfl (fun hne hsets => hsets.kept.top hne) h
  have hexpand := view_of_addOptions rfl (fun hne hsets => hsets.kept.expand hne) h
  refine ⟨(nodup_of_addOptions h).1, hselect.1, fun hgiven => ?_, ?_, hfilter.1, ?_, ?_, ?_⟩
  · obtain ⟨value, hvalue⟩ := Option.ne_none_iff_exists'.1 hgiven
    obtain ⟨before, after, hsets, hview⟩ := hselect.2 value hvalue
    rw [hview]
    exact SelectOption.isSelection_of_parse hfields (hsets.isRead.select rfl)
  · cases hgiven : given? "$orderby" options with
    | none =>
      rw [horder.1 hgiven]
      exact ⟨Nat.zero_le _, by simp [plain], .nil⟩
    | some value =>
      obtain ⟨before, after, hsets, hview⟩ := horder.2 value hgiven
      rw [hview]
      exact OrderByOption.isOrder_of_parse (hsets.isRead.order rfl)
  · intro text hgiven
    obtain ⟨before, after, hsets, hview⟩ := hfilter.2 text hgiven
    rw [hview]
    exact FilterOption.isClause_of_parse (hsets.isRead.filter rfl)
  · intro top most htopEq hmost
    cases hgiven : given? "$top" options with
    | none =>
      rw [htop.1 hgiven] at htopEq
      cases htopEq
    | some value =>
      obtain ⟨before, after, hsets, hview⟩ := htop.2 value hgiven
      obtain ⟨read, hread, hcap⟩ := hsets.isRead.top rfl
      rw [hview, hread] at htopEq
      cases htopEq
      exact QueryLimits.checkTop_eq_ok_iff.1 hcap most hmost
  · cases hgiven : given? "$expand" options with
    | none =>
      rw [hexpand.1 hgiven]
      rfl
    | some value =>
      obtain ⟨before, after, hsets, hview⟩ := hexpand.2 value hgiven
      rw [hview]
      exact (hsets.isRead.expand rfl).1

/-- A query that was read with the schema at hand is well formed. -/
theorem wellFormed_of_ofOptions_of_sound {s : Schema} (hsound : s.Sound) (he : e ∈ s.entities)
    {options : List (String × String)} {q : Query}
    (h : ofOptions limits (some s) e options = .ok q) : WellFormed limits s e options q := by
  -- by induction on the expand text: the options of an item make a query with a shorter one
  induction hlength : q.expand.length using Nat.strong_induction_on generalizing e options q with
  | _ length ih =>
  obtain ⟨items, hparse, hitems⟩ := expandsWithin_of_ofOptions h
  refine .intro (fitsOptions_of_ofOptions (hsound.entities e he).fields_ne_nil h) hparse ?_
    hitems.nested ?_
  · intro hstrict item hitem
    by_contra hnone
    rw [hitems.named item hitem (by simpa using hnone)] at hstrict
    cases hstrict
  · intro item hitem n target sub hn hentity hsub
    have hshorter := length_expand_lt hparse hitem hsub
    rw [hlength] at hshorter
    exact ih _ hshorter (List.mem_of_find?_eq_some hentity) hsub rfl

/-- Every query that was read with a built schema is well formed: no cap and no declaration is
passed by at a deeper level, in another case, by a star or by giving an option again. The schema has
the target type of every navigation property, but for some that were inherited. -/
theorem wellFormed_of_ofOptions {d : Draft} {s : Schema} (hbuild : d.build = .ok s)
    {e : EntityType} (he : e ∈ s.entities) {options : List (String × String)} {q : Query}
    (h : ofOptions limits (some s) e options = .ok q) :
    WellFormed limits s e options q ∧ ∀ e ∈ s.entities, ∀ n ∈ e.navigations,
      (∃ target, s.entity? n.target = some target) ∨
        ∃ declared ∈ d.entities, declared.name = e.name ∧ n ∈ declared.inherited := by
  have hsound := Schema.sound_of_build hbuild
  refine ⟨wellFormed_of_ofOptions_of_sound hsound he h, fun e he n hn => ?_⟩
  rcases Schema.inherited_or_linked_of_build hbuild he hn with hinherited | ⟨hlinks, -⟩
  · exact .inr hinherited
  · obtain ⟨c, -, -, htarget⟩ := hsound.exists_target hlinks
    exact .inl ⟨c.entity, htarget⟩

end Query

namespace Library

/-! ## Tight limits -/

/-- Limits that just let a star and pages of two through for the authors, and no unknown names. -/
def tightLimits : QueryLimits where
  maxSelectFields := 3
  maxTop := some 2
  strictExpand := true

/-- All fields of an author, with two books and the names of their authors, the options written in
several ways. -/
def withBooks : List (String × String) :=
  [("$select", "*"), (" $EXPAND", "books($top=2; $Expand = author($select=name) )")]

/-- The query is read under the tight limits, and well formed at all three levels. -/
theorem wellFormed_withBooks :
    ∃ q, Query.ofOptions tightLimits (some schema) authors.entity withBooks = .ok q ∧
      q.select = ["Id", "Name", "Favourites"] ∧
      Query.WellFormed tightLimits schema authors.entity withBooks q := by
  have hread : (Query.ofOptions tightLimits (some schema) authors.entity withBooks).toOption.map
      (·.select) = some ["Id", "Name", "Favourites"] := by
    decide +kernel
  obtain ⟨q, hq, hselect⟩ := Option.map_eq_some_iff.1 hread
  have hq := eq_ok_of_toOption hq
  exact ⟨q, hq, hselect, (Query.wellFormed_of_ofOptions build_draft (by decide) hq).1⟩

/-- Where there are no books, as many as you like may be asked for, though no entity type allows
three; and an option may come twice with a blank in its name. -/
theorem unread_abroad :
    abroadDraft.build = .ok abroadSchema ∧ authors.entity ∈ abroadSchema.entities ∧
      (∃ q, Query.ofOptions tightLimits (some abroadSchema) authors.entity
          [("$expand", "Books($top=3)")] = .ok q ∧
        Expand.parse q.expand = .ok [⟨"Books", [("$top", "3")]⟩] ∧
        (∃ n, authors.entity.navigation? "Books" = some n ∧ abroadSchema.entity? n.target = none) ∧
        ∀ e, ∃ fault,
          Query.ofOptions tightLimits (some abroadSchema) e [("$top", "3")] = .error fault) ∧
      ∃ q, Query.ofOptions {} (some abroadSchema) authors.entity
          [("$top", "1"), ("$ top", "2")] = .ok q ∧ q.top = some 1 ∧
        "$ top".toList.filter (!Text.isBlank ·) = "$top".toList := by
  refine ⟨build_abroadDraft, List.mem_cons_self, ?_, ?_⟩
  · refine ⟨{ Query.plain authors.entity with expand := "Books($top=3)" }, ?_, ?_, ⟨_, rfl, rfl⟩,
      fun e => ⟨_, rfl⟩⟩
    · with_unfolding_all rfl
    · with_unfolding_all rfl
  · exact ⟨{ Query.plain authors.entity with top := some 1 }, rfl, rfl, by decide⟩

end Library

end ODataEngine
