import Mathlib.Data.List.TakeDrop
import Mathlib.Data.List.TakeWhile
import ODataEngine.Json.Basic

/-!
# Members of records

What setting and removing members does to the names of a record and to its other members. A record
that is built by setting members has each name once, and only then does removing a member leave none
of its name.
-/

namespace ODataEngine

/-! ## Looking up -/

/-- Where each name stands once, looking up a name finds the entry of that name. -/
theorem lookup_eq_some_of_mem {β : Type} {entries : List (String × β)}
    (h : (entries.map Prod.fst).Nodup) {name : String} {b : β} (hmem : (name, b) ∈ entries) :
    entries.lookup name = some b := by
  induction entries with
  | nil => cases hmem
  | cons entry rest ih =>
    obtain ⟨n, b'⟩ := entry
    rw [List.map_cons, List.nodup_cons] at h
    rw [List.lookup_cons]
    rcases List.mem_cons.1 hmem with he | hmem
    · cases he
      rw [beq_self_eq_true]
    · have hname : name ∈ rest.map Prod.fst := List.mem_map_of_mem (f := Prod.fst) hmem
      have hne : name ≠ n := fun he => h.1 (he ▸ hname)
      rw [beq_eq_false_iff_ne.2 hne]
      exact ih h.2 hmem

namespace Record

theorem names_cons (name : String) (value : Json) (rest : Record) :
    names ((name, value) :: rest) = name :: names rest := rfl

theorem get?_cons (n : String) (v : Json) (rest : Record) (name : String) :
    get? ((n, v) :: rest) name = if n = name then some v else get? rest name := by
  rw [get?, List.lookup_cons]
  by_cases hn : n = name
  · rw [if_pos hn, hn, beq_self_eq_true]
  · rw [if_neg hn, beq_eq_false_iff_ne.2 (Ne.symm hn)]
    rfl

theorem mem_of_get? {r : Record} {name : String} {v : Json} (h : r.get? name = some v) :
    (name, v) ∈ r := by
  obtain ⟨before, after, hr, -⟩ := List.lookup_eq_some_iff.1 h
  rw [hr]
  exact List.mem_append_right before List.mem_cons_self

/-- A member that is not null is there. -/
theorem get?_of_valueOf {r : Record} {name : String} (h : (r.valueOf name).isNull = false) :
    r.get? name = some (r.valueOf name) := by
  unfold valueOf at h ⊢
  cases hget : r.get? name with
  | none =>
    rw [hget] at h
    cases h
  | some v => rfl

theorem valueOf_of_get? {r : Record} {name : String} {v : Json} (h : r.get? name = some v) :
    r.valueOf name = v := by
  rw [valueOf, h, Option.getD_some]

theorem get?_eq_none_iff {r : Record} {name : String} : r.get? name = none ↔ name ∉ r.names := by
  induction r with
  | nil => exact iff_of_true rfl List.not_mem_nil
  | cons m rest ih =>
    rw [get?_cons, names_cons, List.mem_cons, not_or]
    split
    · next hname => exact iff_of_false nofun fun h => h.1 hname.symm
    · next hname => rw [ih, and_iff_right (Ne.symm hname)]

/-- Where each name stands once, looking up finds every member. -/
theorem get?_eq_some_iff {r : Record} (h : r.names.Nodup) {name : String} {v : Json} :
    r.get? name = some v ↔ (name, v) ∈ r := by
  refine ⟨mem_of_get?, lookup_eq_some_of_mem h⟩

/-! ## Setting members -/

/-- Setting a member brings in nothing but that member. -/
theorem mem_insert {r : Record} {name : String} {value : Json} {m : String × Json}
    (h : m ∈ r.insert name value) : m ∈ r ∨ m = (name, value) := by
  induction r with
  | nil => exact .inr (List.mem_singleton.1 h)
  | cons m' rest ih =>
    obtain ⟨n, v⟩ := m'
    unfold insert at h
    split at h
    · next hn =>
      rcases List.mem_cons.1 h with rfl | h
      · exact .inr (by rw [hn])
      · exact .inl (List.mem_cons_of_mem _ h)
    · rcases List.mem_cons.1 h with rfl | h
      · exact .inl List.mem_cons_self
      · exact (ih h).imp_left (List.mem_cons_of_mem _)

theorem mem_names_insert {r : Record} {name other : String} {value : Json}
    (h : other ∈ (r.insert name value).names) : other ∈ r.names ∨ other = name := by
  obtain ⟨m, hm, rfl⟩ := List.mem_map.1 h
  rcases mem_insert hm with hm | rfl
  · exact .inl (List.mem_map_of_mem hm)
  · exact .inr rfl

/-- Setting a member keeps the names apart. -/
theorem nodup_names_insert {r : Record} (h : r.names.Nodup) (name : String) (value : Json) :
    (r.insert name value).names.Nodup := by
  induction r with
  | nil => exact List.pairwise_singleton _ name
  | cons m rest ih =>
    obtain ⟨n, v⟩ := m
    obtain ⟨hn, hrest⟩ := List.nodup_cons.1 h
    unfold insert
    split
    · exact h
    · next hne =>
      refine List.nodup_cons.2 ⟨fun hmem => ?_, ih hrest⟩
      rcases mem_names_insert hmem with hmem | he
      · exact hn hmem
      · exact hne he

/-- Setting one member for each item sets them all. -/
theorem foldl_insert {α : Type} (name : α → String) (value : α → Json) (items : List α)
    (r : Record) : items.foldl (fun r a => r.insert (name a) (value a)) r
      = r.insertAll (items.map fun a => (name a, value a)) := by
  rw [insertAll, List.foldl_map]

theorem mem_insertAll {r changes : Record} {m : String × Json} (h : m ∈ r.insertAll changes) :
    m ∈ r ∨ m ∈ changes := by
  induction changes generalizing r with
  | nil => exact .inl h
  | cons change rest ih =>
    rcases ih h with h | h
    · rcases mem_insert h with h | rfl
      · exact .inl h
      · exact .inr List.mem_cons_self
    · exact .inr (List.mem_cons_of_mem change h)

/-- Setting members leaves every other member as it is. -/
theorem get?_insertAll_of_not_mem {r changes : Record} {name : String} (h : name ∉ changes.names) :
    (r.insertAll changes).get? name = r.get? name := by
  induction changes generalizing r with
  | nil => rfl
  | cons change rest ih =>
    have hname : name ≠ change.1 := fun he => h (he ▸ List.mem_cons_self)
    have hrest : name ∉ names rest := fun hmem => h (List.mem_cons_of_mem change.1 hmem)
    show ((r.insert change.1 change.2).insertAll rest).get? name = r.get? name
    rw [ih hrest, get?_insert_of_ne r change.2 hname]

theorem nodup_names_insertAll {r : Record} (h : r.names.Nodup) (changes : Record) :
    (r.insertAll changes).names.Nodup := by
  induction changes generalizing r with
  | nil => exact h
  | cons change rest ih => exact ih (nodup_names_insert h change.1 change.2)

/-- Where each name stands once, the changes stand before the record. -/
theorem get?_insertAll_of_nodup (r : Record) {changes : Record} (h : changes.names.Nodup)
    (name : String) : (r.insertAll changes).get? name = (changes.get? name).or (r.get? name) := by
  induction changes generalizing r with
  | nil => rfl
  | cons change rest ih =>
    obtain ⟨n, v⟩ := change
    obtain ⟨hn, hrest⟩ := List.nodup_cons.1 h
    show ((r.insert n v).insertAll rest).get? name = _
    rw [get?_cons]
    by_cases hname : n = name
    · rw [if_pos hname, ← hname, get?_insertAll_of_not_mem hn, get?_insert_self, Option.some_or]
    · rw [if_neg hname, ih (r.insert n v) hrest, get?_insert_of_ne r v (Ne.symm hname)]

/-- Setting a member to the value it has changes nothing. -/
theorem insert_get? {r : Record} {name : String} {value : Json} (h : r.get? name = some value) :
    r.insert name value = r := by
  induction r with
  | nil => cases h
  | cons m rest ih =>
    obtain ⟨n, v⟩ := m
    rw [get?_cons] at h
    rw [insert]
    by_cases hn : n = name
    · rw [if_pos hn] at h ⊢
      rw [Option.some.inj h]
    · rw [if_neg hn] at h ⊢
      rw [ih h]

theorem insertAll_eq_self {r changes : Record} (h : ∀ m ∈ changes, r.get? m.1 = some m.2) :
    r.insertAll changes = r := by
  induction changes with
  | nil => rfl
  | cons change rest ih =>
    obtain ⟨hchange, hrest⟩ := List.forall_mem_cons.1 h
    show (r.insert change.1 change.2).insertAll rest = r
    rw [insert_get? hchange, ih hrest]

/-- Setting members twice is setting them once. -/
theorem insertAll_insertAll {changes : Record} (h : changes.names.Nodup) (r : Record) :
    (r.insertAll changes).insertAll changes = r.insertAll changes := by
  refine insertAll_eq_self fun m hm => ?_
  rw [get?_insertAll_of_nodup r h, (get?_eq_some_iff h).2 hm, Option.some_or]

theorem names_insert (r : Record) (name : String) (value : Json) :
    (r.insert name value).names = if name ∈ r.names then r.names else r.names ++ [name] := by
  induction r with
  | nil => rfl
  | cons m rest ih =>
    obtain ⟨n, v⟩ := m
    rw [insert, names_cons]
    by_cases hn : n = name
    · rw [if_pos hn, if_pos (hn ▸ List.mem_cons_self), names_cons]
    · rw [if_neg hn, names_cons, ih]
      simp only [List.mem_cons, Ne.symm hn, false_or]
      split
      · rfl
      · rfl

/-- The names of a record keep their places, and the new ones follow. -/
theorem names_insertAll (r : Record) {changes : Record} (h : changes.names.Nodup) :
    (r.insertAll changes).names = r.names ++ changes.names.filter (· ∉ r.names) := by
  induction changes generalizing r with
  | nil => exact (List.append_nil _).symm
  | cons change rest ih =>
    obtain ⟨n, v⟩ := change
    obtain ⟨hn, hrest⟩ := List.nodup_cons.1 h
    show ((r.insert n v).insertAll rest).names = _
    rw [ih (r.insert n v) hrest, names_insert, names_cons, List.filter_cons]
    by_cases hold : n ∈ r.names
    · simp [hold]
    · have hsame : (names rest).filter (· ∉ r.names ++ [n])
          = (names rest).filter (· ∉ r.names) := by
        refine List.filter_congr fun name hname => ?_
        have hne : name ≠ n := fun he => hn (he ▸ hname)
        simp [hne]
      simp only [hold, if_false, not_false_eq_true, decide_true, if_true, hsame,
        List.append_assoc, List.singleton_append]

theorem insert_append {r : Record} {name : String} (h : name ∉ r.names) (r' : Record)
    (value : Json) : insert (r ++ r') name value = r ++ insert r' name value := by
  induction r with
  | nil => rfl
  | cons m rest ih =>
    have hne : m.1 ≠ name := fun he => h (he ▸ List.mem_cons_self)
    have hrest : name ∉ names rest := fun hmem => h (List.mem_cons_of_mem m.1 hmem)
    rw [List.cons_append, insert, if_neg hne, ih hrest, List.cons_append]

/-- Setting members of other names leaves the first part of a record alone. -/
theorem insertAll_append {r changes : Record} (h : ∀ name ∈ changes.names, name ∉ r.names)
    (r' : Record) : insertAll (r ++ r') changes = r ++ insertAll r' changes := by
  induction changes generalizing r' with
  | nil => rfl
  | cons change rest ih =>
    show insertAll (insert (r ++ r') change.1 change.2) rest = _
    rw [insert_append (h change.1 List.mem_cons_self),
      ih fun name hname => h name (List.mem_cons_of_mem change.1 hname)]
    rfl

/-- Members of different names are set one after the other. -/
theorem insertAll_nil {changes : Record} (h : changes.names.Nodup) :
    insertAll [] changes = changes := by
  induction changes with
  | nil => rfl
  | cons change rest ih =>
    obtain ⟨hchange, hrest⟩ := List.nodup_cons.1 h
    show insertAll ([change] ++ []) rest = change :: rest
    rw [insertAll_append, ih hrest]
    · rfl
    · rintro name hname hmem
      exact hchange (List.mem_singleton.1 hmem ▸ hname)

/-- Members of different names, none of them set before, are put behind a record. -/
theorem insertAll_eq_append {r changes : Record} (h : changes.names.Nodup)
    (hnew : ∀ name ∈ changes.names, name ∉ r.names) : insertAll r changes = r ++ changes := by
  have hbehind := insertAll_append hnew []
  rwa [List.append_nil, insertAll_nil h] at hbehind

/-! ## Removing members -/

/-- Removing a member takes out the first one of the name, and may move another one. -/
theorem erase_perm {r : Record} {name : String} (h : name ∈ r.names) :
    ∃ before v after, r = before ++ (name, v) :: after ∧ (r.erase name).Perm (before ++ after) := by
  obtain ⟨m, hm, rfl⟩ := List.mem_map.1 h
  have hsplit := List.takeWhile_append_dropWhile (p := (·.1 != m.1)) (l := r)
  unfold erase
  rw [List.span_eq_takeWhile_dropWhile]
  generalize r.takeWhile (·.1 != m.1) = before at hsplit ⊢
  cases hdrop : r.dropWhile (·.1 != m.1) with
  | nil =>
    have hnone := List.dropWhile_eq_nil_iff.1 hdrop m hm
    simp at hnone
  | cons first after =>
    have hfirst : first.1 = m.1 := by
      have hhead := List.head?_dropWhile_not (·.1 != m.1) r
      rw [hdrop] at hhead
      simpa using hhead
    rw [hdrop] at hsplit
    refine ⟨before, first.2, after, ?_, ?_⟩
    · rw [← hsplit, ← hfirst]
    · dsimp only
      cases hlast : after.getLast? with
      | none => rw [List.getLast?_eq_none_iff.1 hlast, List.append_nil]
      | some last =>
        -- the last member comes to the front of what stood behind the hole
        obtain ⟨rest, rfl⟩ := List.getLast?_eq_some_iff.1 hlast
        rw [List.dropLast_concat]
        exact (List.perm_append_singleton last rest).symm.append_left before

theorem erase_of_not_mem {r : Record} {name : String} (h : name ∉ r.names) :
    r.erase name = r := by
  have hall : r.dropWhile (·.1 != name) = [] := by
    refine List.dropWhile_eq_nil_iff.2 fun m hm => ?_
    have hne : m.1 ≠ name := fun he => h (he ▸ List.mem_map_of_mem hm)
    simpa using hne
  unfold erase
  rw [List.span_eq_takeWhile_dropWhile, hall]

theorem mem_of_mem_erase {r : Record} {name : String} {m : String × Json} (h : m ∈ r.erase name) :
    m ∈ r := by
  by_cases hname : name ∈ r.names
  · obtain ⟨before, v, after, hr, hperm⟩ := erase_perm hname
    rw [hr]
    rcases List.mem_append.1 (hperm.mem_iff.1 h) with hm | hm
    · exact List.mem_append_left _ hm
    · exact List.mem_append_right _ (List.mem_cons_of_mem _ hm)
  · rw [erase_of_not_mem hname] at h
    exact h

/-- Where each name stands once, removing a member leaves none of its name. -/
theorem not_mem_names_erase {r : Record} (h : r.names.Nodup) (name : String) :
    name ∉ (r.erase name).names := by
  by_cases hname : name ∈ r.names
  · obtain ⟨before, v, after, hr, hperm⟩ := erase_perm hname
    rw [hr, names, List.map_append, List.map_cons, List.nodup_append] at h
    intro hmem
    have hkept : name ∈ (before ++ after).map Prod.fst := (hperm.map Prod.fst).mem_iff.1 hmem
    rw [List.map_append] at hkept
    rcases List.mem_append.1 hkept with hm | hm
    · exact h.2.2 name hm name List.mem_cons_self rfl
    · exact (List.nodup_cons.1 h.2.1).1 hm
  · rw [erase_of_not_mem hname]
    exact hname

theorem nodup_names_erase {r : Record} (h : r.names.Nodup) (name : String) :
    (r.erase name).names.Nodup := by
  by_cases hname : name ∈ r.names
  · obtain ⟨before, v, after, hr, hperm⟩ := erase_perm hname
    have hsub : (before ++ after).Sublist r := by
      rw [hr]
      exact (List.sublist_cons_self (name, v) after).append_left before
    exact (hperm.map Prod.fst).nodup_iff.2 (h.sublist (hsub.map Prod.fst))
  · rwa [erase_of_not_mem hname]

/-- Removing a member leaves the others as they are. -/
theorem get?_erase {r : Record} (h : r.names.Nodup) (name other : String) :
    (r.erase name).get? other = if other = name then none else r.get? other := by
  split
  · next hsame =>
    rw [hsame]
    exact get?_eq_none_iff.2 (not_mem_names_erase h name)
  · next hne =>
    refine Option.ext fun v => ?_
    rw [get?_eq_some_iff (nodup_names_erase h name), get?_eq_some_iff h]
    by_cases hname : name ∈ r.names
    · obtain ⟨before, w, after, hr, hperm⟩ := erase_perm hname
      have hskip : (other, v) ≠ (name, w) := fun he => hne (congrArg Prod.fst he)
      rw [hperm.mem_iff, hr, List.mem_append, List.mem_append, List.mem_cons, or_iff_right hskip]
    · rw [erase_of_not_mem hname]

/-! ## Leaving members out -/

/-- The members of other names. -/
def without (r : Record) (name : String) : Record := r.filter (·.1 != name)

/-- Setting a member that is left out changes nothing, and setting another one is as good before as
behind. -/
theorem filter_insert (p : String → Bool) (r : Record) (name : String) (value : Json) :
    (r.insert name value).filter (fun m => p m.1) =
      if p name then insert (r.filter fun m => p m.1) name value else r.filter fun m => p m.1 := by
  induction r with
  | nil =>
    rw [insert, List.filter_cons]
    rfl
  | cons m rest ih =>
    obtain ⟨n, v⟩ := m
    by_cases hn : n = name
    · rw [insert, if_pos hn, List.filter_cons, List.filter_cons, hn]
      split
      · rw [insert, if_pos rfl]
      · rfl
    · rw [insert, if_neg hn, List.filter_cons, List.filter_cons, ih]
      split
      · split
        · rw [insert, if_neg hn]
        · rfl
      · rfl

theorem without_insert_self (r : Record) (name : String) (value : Json) :
    (r.insert name value).without name = r.without name := by
  rw [without, filter_insert (· != name), bne_self_eq_false, if_neg Bool.false_ne_true, without]

theorem without_insert_of_ne (r : Record) {name other : String} (h : other ≠ name) (value : Json) :
    (r.insert other value).without name = (r.without name).insert other value := by
  rw [without, filter_insert (· != name), if_pos (bne_iff_ne.2 h), without]

/-- What is set under a name does not show in the other members. -/
theorem without_insertAll (r changes : Record) (name : String) :
    (r.insertAll changes).without name = (r.without name).insertAll (changes.without name) := by
  induction changes generalizing r with
  | nil => rfl
  | cons change rest ih =>
    show ((r.insert change.1 change.2).insertAll rest).without name = _
    rw [ih]
    by_cases hname : change.1 = name
    · have hskip : without (change :: rest) name = without rest name :=
        List.filter_cons_of_neg (by simp [hname])
      rw [hskip, ← hname, without_insert_self]
    · have hkeep : without (change :: rest) name = change :: without rest name :=
        List.filter_cons_of_pos (by simp [hname])
      rw [hkeep, without_insert_of_ne r hname]
      rfl

theorem without_eq_self {r : Record} {name : String} (h : name ∉ r.names) : r.without name = r := by
  refine List.filter_eq_self.2 fun m hm => ?_
  have hne : m.1 ≠ name := fun he => h (he ▸ List.mem_map_of_mem hm)
  simpa using hne

/-- A member in front that others are set behind, or that they replace. -/
theorem without_insertAll_singleton {r : Record} (h : r.names.Nodup) (name : String)
    (value : Json) : (insertAll [(name, value)] r).without name = r.without name := by
  have hfront : without [(name, value)] name = [] := by simp [without]
  have hnodup : (r.without name).names.Nodup := h.sublist (List.filter_sublist.map _)
  rw [without_insertAll, hfront, insertAll_nil hnodup]

/-! ## Laying records over records -/

/-- The record with the values that another one has for its names, and the other members of that
behind it. -/
def overlay (r upper : Record) : Record :=
  r.map (fun m => (m.1, (upper.get? m.1).getD m.2)) ++ upper.filter fun m => m.1 ∉ r.names

end Record

end ODataEngine
