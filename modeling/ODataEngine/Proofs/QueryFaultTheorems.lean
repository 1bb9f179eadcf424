import ODataEngine.Proofs.QueryTheorems
import ODataEngine.Proofs.SchemaTheorems

/-!
# Faults in queries

Reading a query fails with a fault of the query and with nothing else (`faultsOnly_ofOptions`). The
options inside the expand text are read with it, for the target types of the navigation properties
that the items name. That leaves out what stands below a navigation property which does not lead to
a collection of its target type: such a query strays (`Strays`). In a linked schema none does.
-/

namespace ODataEngine

/-- The failure is a fault in a query string: in one of its options, at any level. -/
def RequestError.isQueryFault : RequestError → Bool
  | invalidFilter _ _ | invalidOrderBy _ _ | invalidSelect _ _ | invalidPaging _ _ _
  | invalidExpand _ _ | invalidQuery _ _ | navigationNotFound _ _ => true
  | _ => false

namespace Query

variable {limits : QueryLimits} {schema : Option Schema} {e : EntityType}

/-- A step whose failures are faults in a query. -/
abbrev FaultsOnly {α : Type} (x : Except RequestError α) : Prop :=
  FailsOnly (fun e => e.isQueryFault = true) x

theorem faultsOnly_selectOption (limits : QueryLimits) (e : EntityType) (text : String) :
    FaultsOnly (SelectOption.parse limits e text) := by
  unfold SelectOption.parse QueryLimits.checkSelect
  split
  · exact .error rfl
  · split
    · exact .error rfl
    · exact .ok _

theorem faultsOnly_filterOption (limits : QueryLimits) (e : EntityType) (text : String) :
    FaultsOnly (FilterOption.parse limits e text) := by
  unfold FilterOption.parse QueryLimits.checkFilter
  split
  · exact .error rfl
  · rw [ok_bind]
    split
    · exact .ok _
    · exact .error rfl

theorem faultsOnly_orderByOption (limits : QueryLimits) (e : EntityType) (text : String) :
    FaultsOnly (OrderByOption.parse limits e text) := by
  unfold OrderByOption.parse QueryLimits.checkOrderBy
  split
  · exact .error rfl
  · split
    · exact .error rfl
    · exact .ok _

theorem faultsOnly_pagingOption (option text : String) :
    FaultsOnly (PagingOption.parse option text) := by
  unfold PagingOption.parse
  split
  · exact .ok _
  · exact .error rfl

theorem faultsOnly_checkTop (limits : QueryLimits) (top : Nat) :
    FaultsOnly (limits.checkTop top) := by
  unfold QueryLimits.checkTop
  split
  · split
    · exact .error rfl
    · exact .ok _
  · exact .ok _

theorem faultsOnly_setOption {check : String → Except RequestError Unit}
    (hcheck : ∀ text, FaultsOnly (check text)) (option value : String) (q : Query) :
    FaultsOnly (setOption limits e check option value q) := by
  unfold setOption
  split
  · exact .bind (faultsOnly_selectOption limits e value) fun _ _ => .ok _
  · exact .bind (faultsOnly_filterOption limits e value) fun _ _ => .ok _
  · exact .bind (faultsOnly_orderByOption limits e value) fun _ _ => .ok _
  · exact .bind (faultsOnly_pagingOption "$top" value) fun top _ =>
      .bind (faultsOnly_checkTop limits top) fun _ _ => .ok _
  · exact .bind (faultsOnly_pagingOption "$skip" value) fun _ _ => .ok _
  · exact .bind (hcheck value) fun _ _ => .ok _
  · exact .ok _

theorem faultsOnly_addOptions {check : String → Except RequestError Unit}
    (hcheck : ∀ text, FaultsOnly (check text)) (sofar : OptionsSoFar)
    (options : List (String × String)) : FaultsOnly (addOptions limits e check sofar options) := by
  induction options generalizing sofar with
  | nil => exact .ok _
  | cons o rest ih =>
    unfold addOptions
    extract_lets name option
    split
    · exact ih sofar
    · split
      · exact .error rfl
      · exact .bind (faultsOnly_setOption hcheck _ _ _) fun _ _ => ih _

theorem faultsOnly_parse (text : String) : FaultsOnly (Expand.parse text) := by
  unfold Expand.parse
  split
  · exact .ok _
  · exact .error rfl

theorem faultsOnly_checkItem {s : Schema} {nested : EntityType → String → Except RequestError Unit}
    (hnested : ∀ target text, FaultsOnly (nested target text)) (item : ExpandItem) :
    FaultsOnly (checkItem limits s e nested item) := by
  unfold checkItem
  split
  · split
    · exact .error rfl
    · exact .ok _
  · split
    · exact .ok _
    · exact .bind (faultsOnly_addOptions (hnested _) _ _) fun _ _ => .ok _

theorem faultsOnly_checkItems {check : ExpandItem → Except RequestError Unit}
    (hcheck : ∀ item, FaultsOnly (check item)) (items : List ExpandItem) :
    FaultsOnly (checkItems check items) := by
  induction items with
  | nil => exact .ok _
  | cons item rest ih => exact .bind (hcheck item) fun _ _ => ih

theorem faultsOnly_checkExpand (levels : Nat) (e : EntityType) (text : String) :
    FaultsOnly (checkExpand limits schema levels e text) := by
  induction levels generalizing e text with
  | zero => exact .ok _
  | succ levels ih =>
    rw [checkExpand]
    refine .bind (faultsOnly_parse text) fun items _ => ?_
    cases schema with
    | none => exact .ok _
    | some s => exact faultsOnly_checkItems (faultsOnly_checkItem ih) items

/-- Options that make no query have a fault. -/
theorem faultsOnly_ofOptions (limits : QueryLimits) (schema : Option Schema) (e : EntityType)
    (options : List (String × String)) : FaultsOnly (ofOptions limits schema e options) :=
  faultsOnly_addOptions (fun _ => faultsOnly_checkExpand _ e _) _ _

/-! ## Queries that stray -/

/-- At some level of its expand text the query goes along a navigation property that does not lead
to a collection of its target type. What is asked for there was not read with the query, or not for
the entities that are there. -/
inductive Strays (limits : QueryLimits) (s : Schema) : EntityType → Query → Prop where
  | here {e : EntityType} {q : Query} {items : List ExpandItem} {item : ExpandItem} {n : Navigation}
    (read : Expand.parse q.expand = .ok items) (mem : item ∈ items)
    (names : e.navigation? item.property = some n) (lost : ¬ s.Links n) : Strays limits s e q
  | inside {e : EntityType} {q sub : Query} {items : List ExpandItem} {item : ExpandItem}
    {n : Navigation} {target : Collection} (read : Expand.parse q.expand = .ok items)
    (mem : item ∈ items) (names : e.navigation? item.property = some n)
    (leads : s.collection? n.collection = some target)
    (makes : ofOptions limits none target.entity item.options = .ok sub)
    (strays : Strays limits s target.entity sub) : Strays limits s e q

end Query

end ODataEngine
