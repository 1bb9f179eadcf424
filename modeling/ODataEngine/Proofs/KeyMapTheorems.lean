import Mathlib.Data.List.Find
import Mathlib.Data.List.Nodup
import ODataEngine.Proofs.PredicateTheorems
import ODataEngine.Proofs.StoreTheorems

/-!
# A store is a map

A store in memory keeps a list of records and looks for keys by the order of values. With keys that
are integers of 64 bits, texts and truth values it cannot be told from a finite map from keys to
records that remembers the order of its insertions.

- `KeyMap` is that map, and `KeyMap.Step` says what each call does to it and answers.
- `KeyMap.steps`: every call on a store that holds a map is a step of the map.
- `Store.ran_keyMap`: so every run of calls on an empty store is a run of steps on the empty map.
-/

namespace ODataEngine

/-! ## Calls and their results -/

/-- What a call on a store yields. -/
inductive StoreReply where
  | records (rows : List Record)
  | count (n : Nat)
  | found (r : Option Record)
  | stored (r : Record)
  | removed

/-- The reply to a call that changes the store, and the store after it. A call that fails changes
nothing. -/
def Store.settle {α : Type} (s : Store) (reply : α → StoreReply × Store) :
    Except StoreError α → Except StoreError StoreReply × Store
  | .ok a => (.ok (reply a).1, (reply a).2)
  | .error e => (.error e, s)

/-- The reply to a call and the store after it. `fresh` is the identifier for a record that is added
without a key. -/
def Store.perform (s : Store) (fresh : String) :
    StoreCall → Except StoreError StoreReply × Store
  | .find q => s.settle (fun rows => (.records rows, s)) (s.find q)
  | .count p => s.settle (fun n => (.count n, s)) (s.count p)
  | .get key select => s.settle (fun r => (.found r, s)) (s.get key select)
  | .add r => s.settle (fun (stored, s') => (.stored stored, s')) (s.add fresh r)
  | .update key patch => s.settle (fun (stored, s') => (.stored stored, s')) (s.update key patch)
  | .remove key => s.settle (fun s' => (.removed, s')) (s.remove key)

/-- Calls with their results, in order. -/
abbrev StoreTrace := List (StoreCall × Except StoreError StoreReply)

/-- The keys in a call are plain; only a record to add may come without a key, or with null. The
members to set have a name each. -/
def StoreCall.HasPlainKeys (name : String) : StoreCall → Prop
  | .find _ | .count _ => True
  | .get key _ | .remove key => key.isPlainKey = true
  | .add r => (r.valueOf name).isNull = true ∨ (r.valueOf name).isPlainKey = true
  | .update key patch => key.isPlainKey = true ∧ patch.names.Nodup ∧
      ∀ v, patch.get? name = some v → v.isPlainKey = true

/-- The calls of the trace, made in order on the first store with any new identifiers, have these
results and lead to the second store. -/
inductive Store.Ran (s₀ : Store) : StoreTrace → Store → Prop
  | nil : Ran s₀ [] s₀
  | snoc {trace : StoreTrace} {s : Store} {call : StoreCall} {fresh : String}
      (h : Ran s₀ trace s) (hplain : call.HasPlainKeys s₀.key)
      (hfresh : ∀ r ∈ s.records, s.keyOf r ≠ .string fresh) :
      Ran s₀ (trace ++ [(call, (s.perform fresh call).1)]) (s.perform fresh call).2

/-! ## Maps -/

/-- A key of a map: an integer of 64 bits, a text or a truth value. -/
abbrev PlainKey := { v : Json // v.isPlainKey = true }

instance : DecidableEq PlainKey := fun a b =>
  decidable_of_iff (a.1.sameKey b.1 = true) ((Json.sameKey_iff a.2 b.2).trans Subtype.ext_iff.symm)

/-- A finite map from keys to records, in the order of insertion. -/
structure KeyMap where
  entries : List (PlainKey × Record)
  nodup : (entries.map (·.1)).Nodup

namespace KeyMap

/-- The map without records. -/
def empty : KeyMap := ⟨[], .nil⟩

/-- The records in the order of their keys' insertion. -/
def records (m : KeyMap) : List Record := m.entries.map (·.2)

/-- The record under a key. -/
def get? (m : KeyMap) (k : PlainKey) : Option Record := (m.entries.find? (·.1 = k)).map (·.2)

theorem get?_eq_none_iff {m : KeyMap} {k : PlainKey} :
    m.get? k = none ↔ ∀ p ∈ m.entries, p.1 ≠ k := by
  rw [get?, Option.map_eq_none_iff, List.find?_eq_none]
  simp

/-- The map with a record under a new key, at the end. -/
def add (m : KeyMap) (k : PlainKey) (r : Record) (h : m.get? k = none) : KeyMap where
  entries := m.entries ++ [(k, r)]
  nodup := by
    rw [List.map_append]
    refine pairwise_snoc m.nodup fun k' hk' => ?_
    obtain ⟨p, hp, rfl⟩ := List.mem_map.1 hk'
    exact get?_eq_none_iff.1 h p hp

/-- The map with another record under a key, in its place. -/
def set (m : KeyMap) (k : PlainKey) (r : Record) : KeyMap where
  entries := m.entries.map fun p => if p.1 = k then (k, r) else p
  nodup := by
    have hkeys : (m.entries.map fun p => if p.1 = k then (k, r) else p).map (·.1)
        = m.entries.map (·.1) := by
      rw [List.map_map]
      refine List.map_congr_left fun p _ => ?_
      simp only [Function.comp_apply]
      split
      · next hk => exact hk.symm
      · rfl
    rw [hkeys]
    exact m.nodup

/-- The map without a key. -/
def remove (m : KeyMap) (k : PlainKey) : KeyMap where
  entries := m.entries.filter (·.1 ≠ k)
  nodup := m.nodup.sublist (List.filter_sublist.map _)

/-- The record has the members of the patch, and all others of the old one. The old names stay in
their places, the new ones follow in the order of the patch. -/
structure IsMerge (old patch new : Record) : Prop where
  get? : ∀ name, new.get? name = (patch.get? name).or (old.get? name)
  names : new.names = old.names ++ patch.names.filter (· ∉ old.names)

/-- What a call does to a map of records whose keys stand under a name, and its result. -/
inductive Step (name : String) (m : KeyMap) :
    StoreCall → Except StoreError StoreReply → KeyMap → Prop
  | add {r : Record} {k : PlainKey} (hkey : r.get? name = some k.1) (hnew : m.get? k = none) :
      Step name m (.add r) (.ok (.stored r)) (m.add k r hnew)
  | conflict {r old : Record} {k : PlainKey} (hkey : r.get? name = some k.1)
      (hold : m.get? k = some old) : Step name m (.add r) (.error (.conflict k.1.render)) m
  | generate {r : Record} {k : PlainKey} (hkey : (r.valueOf name).isNull = true)
      (hnew : m.get? k = none) :
      Step name m (.add r) (.ok (.stored (r.insert name k.1))) (m.add k (r.insert name k.1) hnew)
  | keyless {r : Record} (reason : String) (hkey : (r.valueOf name).isNull = true) :
      Step name m (.add r) (.error (.invalid reason)) m
  | update {k : PlainKey} {old patch new : Record} (hold : m.get? k = some old)
      (hkey : ∀ v, patch.get? name = some v → v = k.1) (hmerge : IsMerge old patch new) :
      Step name m (.update k.1 patch) (.ok (.stored new)) (m.set k new)
  | rekey {k : PlainKey} {old patch : Record} {v : Json} (hold : m.get? k = some old)
      (hkey : patch.get? name = some v) (hdiffers : v ≠ k.1) :
      Step name m (.update k.1 patch) (.error (.invalid s!"key '{name}' cannot be changed")) m
  | updateMissing {k : PlainKey} {patch : Record} (hmissing : m.get? k = none) :
      Step name m (.update k.1 patch) (.error (.notFound k.1.render)) m
  | remove {k : PlainKey} {old : Record} (hold : m.get? k = some old) :
      Step name m (.remove k.1) (.ok .removed) (m.remove k)
  | removeMissing {k : PlainKey} (hmissing : m.get? k = none) :
      Step name m (.remove k.1) (.error (.notFound k.1.render)) m
  | get {k : PlainKey} {select : List String} :
      Step name m (.get k.1 select) (.ok (.found ((m.get? k).map (·.project select)))) m
  | find {q : Query} :
      Step name m (.find q) (.ok (.records ((q.page (OrderKey.sort q.order
        (m.records.filter q.filter.holds))).map (·.project q.select)))) m
  | count {p : Predicate} :
      Step name m (.count p) (.ok (.count (m.records.filter p.holds).length)) m

/-- The calls of the trace, made in order on the empty map, can have these results and lead to the
map. -/
inductive Ran (name : String) : StoreTrace → KeyMap → Prop
  | nil : Ran name [] empty
  | snoc {trace : StoreTrace} {m m' : KeyMap} {call : StoreCall}
      {result : Except StoreError StoreReply} (h : Ran name trace m)
      (hstep : Step name m call result m') : Ran name (trace ++ [(call, result)]) m'

/-! ## Stores that hold a map -/

/-- Every record holds its key under the name. -/
def Keyed (m : KeyMap) (name : String) : Prop := ∀ p ∈ m.entries, p.2.get? name = some p.1.1

/-- The store with the records of a map. -/
def store (m : KeyMap) (name : String) (t : EdmType) : Store :=
  { key := name, keyType := t, records := m.records }

section

variable {m : KeyMap} {name : String} {t : EdmType}

theorem get?_keyed (h : m.Keyed name) {k : PlainKey} {r : Record} (hr : m.get? k = some r) :
    r.get? name = some k.1 := by
  obtain ⟨p, hp, rfl⟩ := Option.map_eq_some_iff.1 hr
  have hk : p.1 = k := by simpa using List.find?_some hp
  rw [← hk]
  exact h p (List.mem_of_find?_eq_some hp)

theorem hasKey_store_iff (h : m.Keyed name) {p : PlainKey × Record} (hp : p ∈ m.entries)
    (k : PlainKey) : (m.store name t).hasKey k.1 p.2 = true ↔ p.1 = k := by
  have hkey : (m.store name t).keyOf p.2 = p.1.1 := Record.valueOf_of_get? (h p hp)
  rw [Store.hasKey, hkey, Json.sameKey_iff p.1.2 k.2, Subtype.ext_iff]

theorem lookup?_store (h : m.Keyed name) (k : PlainKey) :
    (m.store name t).lookup? k.1 = m.get? k := by
  have hfind : m.entries.find? ((m.store name t).hasKey k.1 ∘ (·.2))
      = m.entries.find? (·.1 = k) := by
    refine List.find?_congr fun p hp => ?_
    rw [Bool.eq_iff_iff, Function.comp_apply, hasKey_store_iff h hp, decide_eq_true_iff]
  show (m.entries.map (·.2)).find? _ = _
  rw [List.find?_map, hfind, get?]

theorem Keyed.add (h : m.Keyed name) {k : PlainKey} {r : Record} (hnew : m.get? k = none)
    (hr : r.get? name = some k.1) : (m.add k r hnew).Keyed name :=
  List.forall_mem_append.2 ⟨h, List.forall_mem_singleton.2 hr⟩

theorem Keyed.set (h : m.Keyed name) {k : PlainKey} {r : Record} (hr : r.get? name = some k.1) :
    (m.set k r).Keyed name := by
  intro p hp
  obtain ⟨p', hp', rfl⟩ := List.mem_map.1 hp
  split
  · exact hr
  · exact h p' hp'

theorem Keyed.remove (h : m.Keyed name) (k : PlainKey) : (m.remove k).Keyed name :=
  fun p hp => h p (List.mem_of_mem_filter hp)

/-! ## Keys that are there -/

/-- A record under a key stands between records under other keys. -/
theorem exists_split {k : PlainKey} {r : Record} (h : m.get? k = some r) :
    ∃ before after, m.entries = before ++ (k, r) :: after ∧
      (∀ p ∈ before, p.1 ≠ k) ∧ ∀ p ∈ after, p.1 ≠ k := by
  obtain ⟨⟨k', r⟩, hfind, rfl⟩ := Option.map_eq_some_iff.1 h
  obtain ⟨hk, before, after, hentries, hbefore⟩ := List.find?_eq_some_iff_append.1 hfind
  obtain rfl : k' = k := by simpa using hk
  have hnodup := m.nodup
  rw [hentries, List.map_append, List.map_cons] at hnodup
  refine ⟨before, after, hentries, fun p hp => by simpa using hbefore p hp, fun p hp he => ?_⟩
  have hmem : p.1 ∈ after.map (·.1) := List.mem_map_of_mem hp
  exact (List.nodup_cons.1 (List.nodup_append.1 hnodup).2.1).1 (he ▸ hmem)

theorem records_set {k : PlainKey} {r : Record} {before after : List (PlainKey × Record)}
    (hentries : m.entries = before ++ (k, r) :: after) (hbefore : ∀ p ∈ before, p.1 ≠ k)
    (hafter : ∀ p ∈ after, p.1 ≠ k) (new : Record) :
    (m.set k new).records = before.map (·.2) ++ new :: after.map (·.2) := by
  have hkept {entries : List (PlainKey × Record)} (h : ∀ p ∈ entries, p.1 ≠ k) :
      (entries.map fun p => if p.1 = k then (k, new) else p) = entries := by
    conv_rhs => rw [← List.map_id entries]
    exact List.map_congr_left fun p hp => if_neg (h p hp)
  have hset : (m.set k new).entries = before ++ (k, new) :: after := by
    show (m.entries.map fun p => if p.1 = k then (k, new) else p) = _
    rw [hentries, List.map_append, List.map_cons, hkept hbefore, hkept hafter, if_pos rfl]
  rw [records, hset, List.map_append, List.map_cons]

theorem records_remove {k : PlainKey} {r : Record} {before after : List (PlainKey × Record)}
    (hentries : m.entries = before ++ (k, r) :: after) (hbefore : ∀ p ∈ before, p.1 ≠ k)
    (hafter : ∀ p ∈ after, p.1 ≠ k) :
    (m.remove k).records = before.map (·.2) ++ after.map (·.2) := by
  have hkept {entries : List (PlainKey × Record)} (h : ∀ p ∈ entries, p.1 ≠ k) :
      entries.filter (·.1 ≠ k) = entries :=
    List.filter_eq_self.2 fun p hp => decide_eq_true (h p hp)
  have hremove : (m.remove k).entries = before ++ after := by
    show m.entries.filter (·.1 ≠ k) = _
    rw [hentries, List.filter_append, List.filter_cons_of_neg (by simp), hkept hbefore,
      hkept hafter]
  rw [records, hremove, List.map_append]

/-- Of the records of a store that holds a map, only the one under the key has the key. -/
theorem exists_split_store (h : m.Keyed name) {k : PlainKey} {old : Record}
    (hold : m.get? k = some old) : ∃ before after : List Record,
      m.records = before ++ old :: after ∧
      (∀ new, (m.set k new).records = before ++ new :: after) ∧
      (m.remove k).records = before ++ after ∧
      (∀ r ∈ before, (m.store name t).hasKey k.1 r = false) ∧
      (m.store name t).hasKey k.1 old = true ∧
      ∀ r ∈ after, (m.store name t).hasKey k.1 r = false := by
  obtain ⟨before, after, hentries, hbefore, hafter⟩ := exists_split hold
  have hmisses {entries : List (PlainKey × Record)} (hmem : ∀ p ∈ entries, p ∈ m.entries)
      (hother : ∀ p ∈ entries, p.1 ≠ k) :
      ∀ r ∈ entries.map (·.2), (m.store name t).hasKey k.1 r = false := by
    refine List.forall_mem_map.2 fun p hp => Bool.eq_false_iff.2 fun hhit => ?_
    exact hother p hp ((hasKey_store_iff h (hmem p hp) k).1 hhit)
  have hmem : ∀ p ∈ before ++ (k, old) :: after, p ∈ m.entries := fun p hp => hentries ▸ hp
  obtain ⟨hmemBefore, hmemRest⟩ := List.forall_mem_append.1 hmem
  obtain ⟨hmemOld, hmemAfter⟩ := List.forall_mem_cons.1 hmemRest
  refine ⟨before.map (·.2), after.map (·.2), ?_, records_set hentries hbefore hafter,
    records_remove hentries hbefore hafter, hmisses hmemBefore hbefore,
    (hasKey_store_iff h hmemOld k).2 rfl, hmisses hmemAfter hafter⟩
  rw [records, hentries, List.map_append, List.map_cons]

/-- The store changes the record that the map has under the key. -/
theorem changeFirst_store (h : m.Keyed name) {k : PlainKey} {old : Record}
    (hold : m.get? k = some old) (change : Record → Record) :
    Store.changeFirst ((m.store name t).hasKey k.1) change m.records
      = (m.set k (change old)).records := by
  obtain ⟨before, after, hrecords, hset, -, hmisses, hhit, -⟩ := @exists_split_store _ _ t h _ _ hold
  rw [hset, hrecords, Store.changeFirst_append hmisses hhit]

/-- The store removes the record that the map has under the key. -/
theorem eraseP_store (h : m.Keyed name) {k : PlainKey} {old : Record}
    (hold : m.get? k = some old) :
    m.records.eraseP ((m.store name t).hasKey k.1) = (m.remove k).records := by
  obtain ⟨before, after, hrecords, -, hremove, hmisses, hhit, -⟩ :=
    @exists_split_store _ _ t h _ _ hold
  have hnone : ∀ r ∈ before, ¬ (m.store name t).hasKey k.1 r = true :=
    fun r hr => Bool.eq_false_iff.1 (hmisses r hr)
  rw [hremove, hrecords, List.eraseP_append_right _ hnone, List.eraseP_cons_of_pos hhit]

/-- A search by key finds the record that the map has under the key, or nothing. -/
theorem filter_store (h : m.Keyed name) (k : PlainKey) :
    m.records.filter ((m.store name t).hasKey k.1) = (m.get? k).toList := by
  cases hget : m.get? k with
  | none =>
    refine List.filter_eq_nil_iff.2 fun r hr hhit => ?_
    obtain ⟨p, hp, rfl⟩ := List.mem_map.1 hr
    exact get?_eq_none_iff.1 hget p hp ((hasKey_store_iff h hp k).1 hhit)
  | some old =>
    obtain ⟨before, after, hrecords, -, -, hbefore, hhit, hafter⟩ :=
      @exists_split_store _ _ t h _ _ hget
    have hnone {records : List Record}
        (hmisses : ∀ r ∈ records, (m.store name t).hasKey k.1 r = false) :
        records.filter ((m.store name t).hasKey k.1) = [] :=
      List.filter_eq_nil_iff.2 fun r hr => Bool.eq_false_iff.1 (hmisses r hr)
    rw [hrecords, List.filter_append, List.filter_cons_of_pos hhit, hnone hbefore, hnone hafter]
    rfl

/-- Filters find plain keys equal where the store finds them the same. -/
theorem equals_eq_sameKey {a b : Json} (ha : a.isPlainKey = true) (hb : b.isPlainKey = true) :
    a.equals b = a.sameKey b := by
  cases a with
  | null | array | object => cases ha
  | number x => cases b <;> rfl
  | string | bool =>
    rw [Bool.eq_iff_iff, Json.sameKey_iff ha hb]
    cases b <;> simp [Json.equals, Json.same]

/-- The filter for a key finds the record that the map has under it, or nothing. -/
theorem find_store (h : m.Keyed name) (k : PlainKey) {q : Query}
    (hq : q.filter = .fieldEquals name k.1) :
    (m.store name t).find q = .ok ((q.page (m.get? k).toList).map (·.project q.select)) := by
  have hfilter : m.records.filter q.filter.holds = (m.get? k).toList := by
    rw [← filter_store (t := t) h k]
    refine List.filter_congr fun r hr => ?_
    obtain ⟨p, hp, rfl⟩ := List.mem_map.1 hr
    have hvalue : p.2.valueOf name = p.1.1 := Record.valueOf_of_get? (h p hp)
    rw [hq, Predicate.fieldEquals, Predicate.holds_field, hvalue, Store.hasKey, Store.keyOf]
    show p.1.1.equals k.1 = (p.2.valueOf name).sameKey k.1
    rw [hvalue, equals_eq_sameKey p.1.2 k.2]
  have hsorted (r : Option Record) : OrderKey.sort q.order r.toList = r.toList := by
    cases r with
    | none => exact List.perm_nil.1 (OrderKey.sort_perm _ _)
    | some r => exact List.perm_singleton.1 (OrderKey.sort_perm _ _)
  rw [Store.find, Store.guarded_of_not_refused rfl, Store.rows]
  show Except.ok ((q.page (OrderKey.sort q.order (m.records.filter q.filter.holds))).map _) = _
  rw [hfilter, hsorted]

/-! ## Keys that are made -/

/-- No integer among the keys of a store is above the greatest. -/
theorem le_greatestKey {s : Store} {r : Record} (hr : r ∈ s.records) {n : Int}
    (hn : Store.integerKey? (s.keyOf r) = some n) : n ≤ s.greatestKey := by
  have hmem : n ∈ s.records.filterMap fun r => Store.integerKey? (s.keyOf r) :=
    List.mem_filterMap.2 ⟨r, hr, hn⟩
  unfold Store.greatestKey
  cases hmax : (s.records.filterMap fun r => Store.integerKey? (s.keyOf r)).max? with
  | none =>
    rw [List.max?_eq_none_iff.1 hmax] at hmem
    cases hmem
  | some greatest => exact (List.max?_eq_some_iff.1 hmax).2 n hmem

/-- A key that a store makes is new to the map that the store holds, if the identifier is. -/
theorem nextKey_store (h : m.Keyed name) {fresh : String}
    (hfresh : ∀ r ∈ m.records, (m.store name t).keyOf r ≠ .string fresh) {key : Json}
    (hkey : (m.store name t).nextKey fresh = .ok key) :
    ∃ k : PlainKey, k.1 = key ∧ m.get? k = none := by
  have hkeyOf : ∀ p ∈ m.entries, (m.store name t).keyOf p.2 = p.1.1 :=
    fun p hp => Record.valueOf_of_get? (h p hp)
  have hmem : ∀ p ∈ m.entries, p.2 ∈ m.records := fun p hp => List.mem_map_of_mem hp
  unfold Store.nextKey at hkey
  split at hkey
  · split at hkey
    · next hroom =>
      cases hkey
      have hsmall : (m.store name t).greatestKey + 1 < Nat.pow 2 63 := by
        have hbound := (m.store name t).keyType.integerRange_bounds.2
        omega
      have hinteger : (JsonNumber.int ((m.store name t).greatestKey + 1)).int64?
          = some ((m.store name t).greatestKey + 1) := if_pos hsmall
      have hplain : (Json.ofInt ((m.store name t).greatestKey + 1)).isPlainKey = true :=
        Option.isSome_iff_exists.2 ⟨_, hinteger⟩
      refine ⟨⟨_, hplain⟩, rfl, get?_eq_none_iff.2 fun p hp hk => ?_⟩
      have hnext : Store.integerKey? ((m.store name t).keyOf p.2)
          = some ((m.store name t).greatestKey + 1) := by
        rw [hkeyOf p hp, hk]
        exact hinteger
      have hle := le_greatestKey (hmem p hp) hnext
      omega
    · cases hkey
  · split at hkey
    · cases hkey
      refine ⟨⟨.string fresh, rfl⟩, rfl, get?_eq_none_iff.2 fun p hp hk => ?_⟩
      exact hfresh p.2 (hmem p hp) (by rw [hkeyOf p hp, hk])
    · cases hkey

theorem nextKey_eq_error {s : Store} {fresh : String} {e : StoreError}
    (h : s.nextKey fresh = .error e) : ∃ reason, e = .invalid reason := by
  unfold Store.nextKey at h
  split at h
  · split at h
    · cases h
    · cases h
      exact ⟨_, rfl⟩
  · split at h
    · cases h
    · cases h
      exact ⟨_, rfl⟩

/-! ## Every call is a step of the map -/

/-- The call on the store that holds a map leaves one that holds a map, and is a step from the one
map to the other. -/
def Steps (m : KeyMap) (name : String) (t : EdmType) (fresh : String) (call : StoreCall) : Prop :=
  ∃ m' : KeyMap, m'.Keyed name ∧ ((m.store name t).perform fresh call).2 = m'.store name t ∧
    Step name m call ((m.store name t).perform fresh call).1 m'

theorem steps_of_perform {fresh : String} {call : StoreCall} {m' : KeyMap} (hkeyed : m'.Keyed name)
    {result : Except StoreError StoreReply}
    (hperform : (m.store name t).perform fresh call = (result, m'.store name t))
    (hstep : Step name m call result m') : m.Steps name t fresh call :=
  ⟨m', hkeyed, by rw [hperform], by rw [hperform]; exact hstep⟩

theorem steps_get (h : m.Keyed name) (fresh : String) (k : PlainKey) (select : List String) :
    m.Steps name t fresh (.get k.1 select) := by
  refine steps_of_perform h ?_ .get
  rw [Store.perform, Store.get, Store.guarded_of_not_refused rfl, lookup?_store h]
  rfl

theorem steps_remove (h : m.Keyed name) (fresh : String) (k : PlainKey) :
    m.Steps name t fresh (.remove k.1) := by
  cases hget : m.get? k with
  | none =>
    refine steps_of_perform h ?_ (.removeMissing hget)
    rw [Store.perform, Store.remove, Store.guarded_of_not_refused rfl, lookup?_store h, hget]
    rfl
  | some old =>
    refine steps_of_perform (h.remove k) ?_ (.remove hget)
    rw [Store.perform, Store.remove, Store.guarded_of_not_refused rfl, lookup?_store h, hget,
      store, store, ← eraseP_store (t := t) h hget]
    rfl

/-- A patch that does not change the key is merged into the record under it. -/
theorem steps_merge (h : m.Keyed name) {fresh : String} {k : PlainKey} {old patch : Record}
    (hold : m.get? k = some old) (hnames : patch.names.Nodup)
    (hkey : ∀ v, patch.get? name = some v → v = k.1)
    (hkept : (patch.get? name).any (fun new => !new.sameKey k.1) = false) :
    m.Steps name t fresh (.update k.1 patch) := by
  have hmerge : IsMerge old patch (old.insertAll patch) :=
    ⟨Record.get?_insertAll_of_nodup old hnames, Record.names_insertAll old hnames⟩
  have hsame : (old.insertAll patch).get? name = some k.1 := by
    rw [hmerge.get? name, get?_keyed h hold]
    cases hpatch : patch.get? name with
    | none => rfl
    | some v => rw [hkey v hpatch, Option.some_or]
  have hany : (patch.get? (m.store name t).key).any (fun new => !new.sameKey k.1) = false := hkept
  refine steps_of_perform (h.set hsame) ?_ (.update hold hkey hmerge)
  rw [Store.perform, Store.update, Store.guarded_of_not_refused rfl, lookup?_store h, hold]
  simp only [hany, Bool.false_eq_true, if_false]
  rw [store, store, ← changeFirst_store (t := t) h hold (·.insertAll patch)]
  rfl

theorem steps_update (h : m.Keyed name) (fresh : String) (k : PlainKey) {patch : Record}
    (hnames : patch.names.Nodup) (hplain : ∀ v, patch.get? name = some v → v.isPlainKey = true) :
    m.Steps name t fresh (.update k.1 patch) := by
  cases hget : m.get? k with
  | none =>
    refine steps_of_perform h ?_ (.updateMissing hget)
    rw [Store.perform, Store.update, Store.guarded_of_not_refused rfl, lookup?_store h, hget]
    rfl
  | some old =>
    cases hpatch : patch.get? name with
    | none => exact steps_merge h hget hnames (by rw [hpatch]; nofun) (by rw [hpatch]; rfl)
    | some v =>
      by_cases hsame : v = k.1
      · refine steps_merge h hget hnames ?_ ?_
        · rw [hpatch]
          rintro w ⟨⟩
          exact hsame
        · rw [hpatch, hsame, Option.any_some, (Json.sameKey_iff k.2 k.2).2 rfl]
          rfl
      · have hdiffers : v.sameKey k.1 = false :=
          Bool.eq_false_iff.2 fun hv => hsame ((Json.sameKey_iff (hplain v hpatch) k.2).1 hv)
        refine steps_of_perform h ?_ (.rekey hget hpatch hsame)
        rw [Store.perform, Store.update, Store.guarded_of_not_refused rfl, lookup?_store h, hget]
        have hany : (patch.get? (m.store name t).key).any (fun new => !new.sameKey k.1) = true := by
          show (patch.get? name).any _ = true
          rw [hpatch, Option.any_some, hdiffers]
          rfl
        simp only [hany, if_true]
        rfl

/-- A record under a new key, given or made, comes to the end. -/
theorem perform_add_of_new (h : m.Keyed name) {fresh : String} {r : Record} {k : PlainKey}
    (hkey : (m.store name t).keyFor fresh r = .ok k.1) (hnew : m.get? k = none) :
    (m.store name t).perform fresh (.add r) =
      (.ok (.stored (r.insert name k.1)), (m.add k (r.insert name k.1) hnew).store name t) := by
  have hrecords : (m.add k (r.insert name k.1) hnew).records = m.records ++ [r.insert name k.1] := by
    rw [records, add, List.map_append]
    rfl
  rw [Store.perform, Store.add_eq, Store.guarded_of_not_refused rfl, hkey, ok_bind,
    lookup?_store h, hnew, store, store, hrecords]
  rfl

theorem steps_add_keyless (h : m.Keyed name) {fresh : String}
    (hfresh : ∀ r ∈ m.records, (m.store name t).keyOf r ≠ .string fresh) {r : Record}
    (hnull : (r.valueOf name).isNull = true) : m.Steps name t fresh (.add r) := by
  have hkey : (m.store name t).keyFor fresh r = (m.store name t).nextKey fresh :=
    @Store.keyFor_of_isNull (m.store name t) r hnull fresh
  cases hmade : (m.store name t).nextKey fresh with
  | error e =>
    obtain ⟨reason, rfl⟩ := nextKey_eq_error hmade
    refine steps_of_perform h ?_ (.keyless reason hnull)
    rw [Store.perform, Store.add_eq, Store.guarded_of_not_refused rfl, hkey, hmade]
    rfl
  | ok key =>
    obtain ⟨k, rfl, hnew⟩ := nextKey_store h hfresh hmade
    refine steps_of_perform (h.add hnew (Record.get?_insert_self r name k.1)) ?_
      (.generate hnull hnew)
    exact perform_add_of_new h (hkey.trans hmade) hnew

theorem steps_add_keyed (h : m.Keyed name) (fresh : String) {r : Record} {k : PlainKey}
    (hkey : r.get? name = some k.1) : m.Steps name t fresh (.add r) := by
  have hkeyOf : (m.store name t).keyOf r = k.1 := Record.valueOf_of_get? hkey
  have hown : (m.store name t).keyFor fresh r = .ok k.1 := by
    rw [Store.keyFor_of_not_isNull (hkeyOf ▸ Json.isNull_of_isPlainKey k.2), hkeyOf]
  cases hget : m.get? k with
  | some old =>
    refine steps_of_perform h ?_ (.conflict hkey hget)
    rw [Store.perform, Store.add_eq, Store.guarded_of_not_refused rfl, hown, ok_bind,
      lookup?_store h, hget]
    rfl
  | none =>
    refine steps_of_perform (h.add hget hkey) ?_ (.add hkey hget)
    have hadd := perform_add_of_new (t := t) h hown hget
    rw [Record.insert_get? hkey] at hadd
    exact hadd

/-- Every call with plain keys on a store that holds a map is a step of the map. -/
theorem steps (h : m.Keyed name) {fresh : String}
    (hfresh : ∀ r ∈ m.records, (m.store name t).keyOf r ≠ .string fresh) {call : StoreCall}
    (hplain : call.HasPlainKeys name) : m.Steps name t fresh call := by
  cases call with
  | find q => exact ⟨m, h, rfl, .find⟩
  | count p => exact ⟨m, h, rfl, .count⟩
  | get key select => exact steps_get h fresh ⟨key, hplain⟩ select
  | add r =>
    rcases hplain with hnull | hkey
    · exact steps_add_keyless h hfresh hnull
    · have hget := Record.get?_of_valueOf (Json.isNull_of_isPlainKey hkey)
      exact @steps_add_keyed m name t h fresh r ⟨_, hkey⟩ hget
  | update key patch =>
    obtain ⟨hkey, hnames, hpatch⟩ := hplain
    exact steps_update h fresh ⟨key, hkey⟩ hnames hpatch
  | remove key => exact steps_remove h fresh ⟨key, hplain⟩

end

end KeyMap

/-! ## Runs -/

/-- Every run of calls on an empty store, with keys that are integers of 64 bits, texts and truth
values, is a run of the same calls with the same results on the empty map: each call does and
answers what `KeyMap.Step` says. The store holds the records of the map in their order, each under
its key, and a search by key finds the record under it, or nothing. -/
theorem Store.ran_keyMap {name : String} {t : EdmType} {trace : StoreTrace} {s : Store}
    (h : Ran { key := name, keyType := t } trace s) :
    ∃ m : KeyMap, m.Keyed name ∧ s = m.store name t ∧ KeyMap.Ran name trace m ∧
      ∀ (k : PlainKey) (q : Query), q.filter = .fieldEquals name k.1 →
        s.find q = .ok ((q.page (m.get? k).toList).map (·.project q.select)) := by
  have hruns : ∃ m : KeyMap, m.Keyed name ∧ s = m.store name t ∧ KeyMap.Ran name trace m := by
    induction h with
    | nil => exact ⟨.empty, nofun, rfl, .nil⟩
    | snoc _ hplain hfresh ih =>
      obtain ⟨m, hkeyed, rfl, hran⟩ := ih
      obtain ⟨m', hkeyed', hstore, hstep⟩ := KeyMap.steps hkeyed hfresh hplain
      exact ⟨m', hkeyed', hstore, hran.snoc hstep⟩
  obtain ⟨m, hkeyed, rfl, hran⟩ := hruns
  exact ⟨m, hkeyed, rfl, hran, fun k q hq => KeyMap.find_store hkeyed k hq⟩

/-- A record is added with its key and one without, a third under the key that the second was given;
then the first is changed and the second removed. -/
def someCalls : List StoreCall := [
  .add [("id", .ofInt 5), ("name", .string "Ann")],
  .add [("name", .string "Bob")],
  .add [("id", .ofInt 6)],
  .update (.ofInt 5) [("name", .string "Amy"), ("age", .ofInt 30)],
  .remove (.ofInt 6)]

/-- The five calls leave the record that was changed, and they were a run of the map. -/
theorem Store.ran_keyMap_someCalls : ∃ trace s, Ran { key := "id", keyType := .int32 } trace s ∧
    trace.map Prod.fst = someCalls ∧
    s.records = [[("id", .ofInt 5), ("name", .string "Amy"), ("age", .ofInt 30)]] ∧
    ∃ m : KeyMap, m.Keyed "id" ∧ s = m.store "id" .int32 ∧ KeyMap.Ran "id" trace m ∧
      ∀ (k : PlainKey) (q : Query), q.filter = .fieldEquals "id" k.1 →
        s.find q = .ok ((q.page (m.get? k).toList).map (·.project q.select)) := by
  have hfresh {s : Store} (h : s.records.all fun r => !(s.keyOf r).sameKey (.string "")) :
      ∀ r ∈ s.records, s.keyOf r ≠ .string "" := by
    intro r hr hkey
    have hother := List.all_eq_true.1 h r hr
    rw [hkey] at hother
    cases hother
  have hpatch : ∀ v, Record.get? [("name", .string "Amy"), ("age", .ofInt 30)] "id" = some v →
      v.isPlainKey = true := nofun
  have h₁ := @Ran.snoc { key := "id", keyType := .int32 } _ _ someCalls[0] "" .nil (.inr rfl) (hfresh (by rfl))
  have h₂ := @Ran.snoc _ _ _ someCalls[1] "" h₁ (.inl rfl) (hfresh (by rfl))
  have h₃ := @Ran.snoc _ _ _ someCalls[2] "" h₂ (.inr rfl) (hfresh (by rfl))
  have h₄ := @Ran.snoc _ _ _ someCalls[3] "" h₃ ⟨rfl, by decide, hpatch⟩ (hfresh (by rfl))
  have h₅ := @Ran.snoc _ _ _ someCalls[4] "" h₄ rfl (hfresh (by rfl))
  exact ⟨_, _, h₅, rfl, rfl, ran_keyMap h₅⟩

end ODataEngine
