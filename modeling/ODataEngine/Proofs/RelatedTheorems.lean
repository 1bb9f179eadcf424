import Mathlib.Data.List.Perm.Subperm
import ODataEngine.Proofs.NavigationTheorems
import ODataEngine.Proofs.PredicateTheorems

/-!
# Which records are related

A link narrows a query: it adds its own condition to the filter and leaves the rest as it is. The
conjunction that is made of the two goes field by field, and is a conjunction all the same
(`Predicate.holds_conj`), whatever fields and groups the filter has. So following a link finds the
records that pass the filter and have the value, or one of the values, that the link leads to
(`Link.resolve_narrows`).
-/

namespace ODataEngine

/-! ## Finding by a test -/

namespace Store

variable {s : Store} {q : Query}

/-- The result is what the store finds for the query with another filter: any predicate that just
the records which pass the test pass, and there is one. -/
structure FindsWhere (s : Store) (q : Query) (test : Record → Bool)
    (result : Except StoreError (List Record)) : Prop where
  exists_filter : ∃ p : Predicate, ∀ r, p.holds r = test r
  eq_find : ∀ p : Predicate, (∀ r, p.holds r = test r) → result = s.find { q with filter := p }

variable (haccepts : ∀ call, s.refuses call = none)

include haccepts

/-- Filters that let the same records through find the same. -/
theorem find_filter_congr {p p' : Predicate} (h : ∀ r, p.holds r = p'.holds r) :
    s.find { q with filter := p } = s.find { q with filter := p' } := by
  have hholds : p.holds = p'.holds := funext h
  rw [find, find, guarded_of_not_refused (haccepts _), guarded_of_not_refused (haccepts _)]
  show Except.ok ((q.page (OrderKey.sort q.order (s.records.filter p.holds))).map
    (·.project q.select)) = _
  rw [hholds]
  rfl

theorem findsWhere_find (p : Predicate) :
    s.FindsWhere q p.holds (s.find { q with filter := p }) where
  exists_filter := ⟨p, fun _ => rfl⟩
  eq_find _ h := find_filter_congr haccepts fun r => (h r).symm

/-- What is found are records of the store, each no more often than it is stored, cut to the
selected members. -/
theorem exists_subperm_of_find :
    ∃ found : List Record, found.Subperm s.records ∧
      s.find q = .ok (found.map (·.project q.select)) := by
  refine ⟨q.page (OrderKey.sort q.order (s.records.filter q.filter.holds)), ?_, ?_⟩
  · have hsorted := OrderKey.sort_perm q.order (s.records.filter q.filter.holds)
    have hpage := (Query.page_sublist q _).subperm.trans hsorted.subperm
    exact hpage.trans List.filter_sublist.subperm
  · exact guarded_of_not_refused (haccepts _) _

end Store

/-! ## Following links -/

namespace Link

variable {s : Store} (haccepts : ∀ call, s.refuses call = none)

include haccepts

/-- Where there is a condition to meet, it is met besides the filter of the query. -/
theorem findsWhere_resolve {l : Link} {base : Record} {condition : Predicate}
    (h : l.condition? base = some condition) (q : Query) :
    s.FindsWhere q (fun r => condition.holds r && q.filter.holds r) (l.resolve base s q) := by
  have hboth : (fun r => condition.holds r && q.filter.holds r) =
      (condition.conj q.filter).holds := by
    funext r
    exact (Predicate.holds_conj condition q.filter r).symm
  rw [hboth, resolve, h]
  exact Store.findsWhere_find haccepts _

/-- A foreign key leads to the records that have the value of the record at hand and pass the
filter, a list of keys to those that have one of its values and pass the filter; there are none
where the record at hand has no value, or no value in its list. No record is found twice, however
often its key is listed. -/
theorem resolve_narrows (near remote : String) (base : Record) (q : Query) :
    ((base.valueOf near).isNull = true →
        resolve ⟨.foreignKey, near, remote⟩ base s q = .ok []) ∧
      ((base.valueOf near).isNull = false →
        s.FindsWhere q (fun r => (r.valueOf remote).equals (base.valueOf near) && q.filter.holds r)
          (resolve ⟨.foreignKey, near, remote⟩ base s q)) ∧
      ((∀ keys, base.get? near = some (.array keys) → keys = []) →
        resolve ⟨.keyList, near, remote⟩ base s q = .ok []) ∧
      (∀ keys, base.get? near = some (.array keys) → keys ≠ [] →
        s.FindsWhere q (fun r => keys.any (r.valueOf remote).equals && q.filter.holds r)
          (resolve ⟨.keyList, near, remote⟩ base s q)) ∧
      ∀ rule, ∃ found : List Record, found.Subperm s.records ∧
        resolve ⟨rule, near, remote⟩ base s q = .ok (found.map (·.project q.select)) := by
  refine ⟨fun hnull => ?_, fun hvalue => ?_, fun hempty => ?_, fun keys hkeys hne => ?_,
    fun rule => ?_⟩
  · have hnone : condition? ⟨.foreignKey, near, remote⟩ base = none := by
      unfold condition?
      rw [Record.valueOf] at hnull
      cases hget : base.get? near with
      | none => rfl
      | some v =>
        rw [hget] at hnull
        exact if_pos hnull
    rw [resolve, hnone]
  · have hget := Record.get?_of_valueOf hvalue
    have hsome : condition? ⟨.foreignKey, near, remote⟩ base =
        some (.field remote (.compare .eq (base.valueOf near))) := by
      unfold condition?
      rw [hget]
      exact if_neg (Bool.eq_false_iff.1 hvalue)
    have hfinds := findsWhere_resolve haccepts hsome q
    simp only [Predicate.holds_field] at hfinds
    exact hfinds
  · have hnone : condition? ⟨.keyList, near, remote⟩ base = none := by
      unfold condition?
      cases hget : base.get? near with
      | none => rfl
      | some v =>
        cases v with
        | array keys =>
          obtain rfl := hempty keys hget
          rfl
        | _ => rfl
    rw [resolve, hnone]
  · have hsome : condition? ⟨.keyList, near, remote⟩ base =
        some (.field remote (.isIn keys)) := by
      unfold condition?
      rw [hkeys]
      exact if_neg (by simpa using hne)
    have hfinds := findsWhere_resolve haccepts hsome q
    simp only [Predicate.holds_field] at hfinds
    exact hfinds
  · unfold resolve
    cases condition? ⟨rule, near, remote⟩ base with
    | none => exact ⟨[], List.nil_subperm, rfl⟩
    | some p => exact Store.exists_subperm_of_find haccepts

end Link

namespace Library

/-- A reader who lists one book twice. -/
def dan : Record := [("Id", .ofInt 4), ("Favourites", .array [.ofInt 3, .ofInt 1, .ofInt 3])]

/-- A filter with a group, and with a clause on the keys that lists of favourites are about. -/
def notTheFirst : Query where
  filter := ((Predicate.field "Id" (.compare .ne (.ofInt 1))).disj
    (.fieldEquals "Title" (.string "Rain"))).conj (.field "Id" (.compare .gt (.ofInt 1)))

/-- Of the three favourites, two of which are one book, only that book passes a filter on the keys
that the list is about. -/
theorem dan_favourites :
    (∀ call, (Store.new books.entity (records "Books")).refuses call = none) ∧
      dan.get? "Favourites" = some (.array [.ofInt 3, .ofInt 1, .ofInt 3]) ∧
      (Store.new books.entity (records "Books")).FindsWhere notTheFirst
        (fun r => [Json.ofInt 3, .ofInt 1, .ofInt 3].any (r.valueOf "Id").equals &&
          notTheFirst.filter.holds r)
        (best.link.resolve dan (.new books.entity (records "Books")) notTheFirst) ∧
      best.link.resolve dan (.new books.entity (records "Books")) notTheFirst =
        .ok [[("Id", .ofInt 3), ("Title", .string "Wind"), ("AuthorId", .null)]] := by
  have haccepts : ∀ call, (Store.new books.entity (records "Books")).refuses call = none :=
    fun _ => rfl
  have hkeys : dan.get? "Favourites" = some (.array [.ofInt 3, .ofInt 1, .ofInt 3]) := rfl
  obtain ⟨-, -, -, hlisted, -⟩ := Link.resolve_narrows haccepts "Favourites" "Id" dan notTheFirst
  exact ⟨haccepts, hkeys, hlisted _ hkeys (List.cons_ne_nil _ _), by with_unfolding_all rfl⟩

end Library

end ODataEngine
