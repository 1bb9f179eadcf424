import ODataEngine.Proofs.ResultTheorems
import ODataEngine.Proofs.TextTheorems
import ODataEngine.Query.Options

/-!
# What the options of a query do

Options are read one after the other, each by the reader and under the cap of its own.

- `Query.setOption_eq_ok_iff` and `Query.addOptions_cons_eq_ok_iff` say all that reading an option
  can come to; what follows about options goes by them.
- `Query.view_of_addOptions`: each part of a query comes from the one value that was given for its
  option, or is as it was before.
- `Query.addOptions_mono`: options that are read under some limits are read under laxer ones too,
  as the same query.
-/

namespace ODataEngine

variable {limits limits' : QueryLimits} {e : EntityType}

/-! ## Readers and their caps -/

theorem QueryLimits.checkTop_eq_ok_iff {top : Nat} :
    limits.checkTop top = .ok () ↔ ∀ most, limits.maxTop = some most → top ≤ most := by
  unfold checkTop
  cases limits.maxTop with
  | none => simp
  | some most =>
    show (if most < top then _ else _) = _ ↔ _
    split
    · next hover => simpa using hover
    · next hwithin => simpa using hwithin

/-- A list of members is read where it is right and not too long. -/
theorem SelectOption.parse_eq_ok_iff {text : String} {names : List String} :
    parse limits e text = .ok names ↔
      read e text = .ok names ∧ names.length ≤ limits.maxSelectFields := by
  unfold parse QueryLimits.checkSelect
  cases read e text with
  | error fault => simp
  | ok found =>
    show (if limits.maxSelectFields < found.length then _ else _) >>= _ = _ ↔ _
    split
    · next hover =>
      refine ⟨nofun, ?_⟩
      rintro ⟨hfound, hcap⟩
      cases hfound
      omega
    · next hwithin =>
      constructor
      · intro h
        cases h
        exact ⟨rfl, Nat.le_of_not_lt hwithin⟩
      · rintro ⟨hfound, -⟩
        cases hfound
        rfl

/-- An order is read where it is right and has not too many keys. -/
theorem OrderByOption.parse_eq_ok_iff {text : String} {keys : List OrderKey} :
    parse limits e text = .ok keys ↔
      read e text = .ok keys ∧ keys.length ≤ limits.maxOrderByFields := by
  unfold parse QueryLimits.checkOrderBy
  cases read e text with
  | error fault => simp
  | ok found =>
    show (if limits.maxOrderByFields < found.length then _ else _) >>= _ = _ ↔ _
    split
    · next hover =>
      refine ⟨nofun, ?_⟩
      rintro ⟨hfound, hcap⟩
      cases hfound
      omega
    · next hwithin =>
      constructor
      · intro h
        cases h
        exact ⟨rfl, Nat.le_of_not_lt hwithin⟩
      · rintro ⟨hfound, -⟩
        cases hfound
        rfl

/-- A filter is read where it is right and its text is not too long. -/
theorem FilterOption.parse_eq_ok_iff {text : String} {p : Predicate} :
    parse limits e text = .ok p ↔
      text.utf8ByteSize ≤ limits.maxFilterLength ∧ read e text = .ok p := by
  unfold parse QueryLimits.checkFilter
  split
  · next hover => exact ⟨nofun, fun h => absurd h.1 (Nat.not_le_of_lt hover)⟩
  · next hwithin =>
    rw [ok_bind, and_iff_right (Nat.le_of_not_lt hwithin)]
    cases read e text <;> simp

/-! ## Tighter limits -/

/-- Every cap of the first limits is at most that of the second, where no cap on `$top` is the
greatest, and the first are strict if the second are. -/
structure QueryLimits.AtMost (limits limits' : QueryLimits) : Prop where
  filterLength : limits.maxFilterLength ≤ limits'.maxFilterLength
  orderByFields : limits.maxOrderByFields ≤ limits'.maxOrderByFields
  selectFields : limits.maxSelectFields ≤ limits'.maxSelectFields
  top : ∀ most', limits'.maxTop = some most' → ∃ most, limits.maxTop = some most ∧ most ≤ most'
  strict : limits'.strictExpand = true → limits.strictExpand = true

theorem QueryLimits.AtMost.refl (limits : QueryLimits) : limits.AtMost limits :=
  ⟨Nat.le_refl _, Nat.le_refl _, Nat.le_refl _, fun most h => ⟨most, h, Nat.le_refl most⟩, id⟩

theorem QueryLimits.AtMost.checkTop (h : limits.AtMost limits') {top : Nat}
    (htop : limits.checkTop top = .ok ()) : limits'.checkTop top = .ok () := by
  rw [checkTop_eq_ok_iff] at htop ⊢
  intro most' hmost'
  obtain ⟨most, hmost, hle⟩ := h.top most' hmost'
  exact (htop most hmost).trans hle

namespace Query

/-! ## One option -/

variable {check check' : String → Except RequestError Unit}

/-- What reading one option does to a query: it sets the part of the query that the option is for,
to a value that its reader has let through. -/
inductive Sets (limits : QueryLimits) (e : EntityType) (check : String → Except RequestError Unit)
    (option value : String) (q : Query) : Query → Prop where
  | select {names : List String} (hoption : option = "$select")
    (hvalue : SelectOption.parse limits e value = .ok names) :
    Sets limits e check option value q { q with select := names }
  | filter {p : Predicate} (hoption : option = "$filter")
    (hvalue : FilterOption.parse limits e value = .ok p) :
    Sets limits e check option value q { q with filter := p }
  | order {keys : List OrderKey} (hoption : option = "$orderby")
    (hvalue : OrderByOption.parse limits e value = .ok keys) :
    Sets limits e check option value q { q with order := keys }
  | top {top : Nat} (hoption : option = "$top")
    (hvalue : PagingOption.parse "$top" value = .ok top) (hcap : limits.checkTop top = .ok ()) :
    Sets limits e check option value q { q with top := some top }
  | skip {skip : Nat} (hoption : option = "$skip")
    (hvalue : PagingOption.parse "$skip" value = .ok skip) :
    Sets limits e check option value q { q with skip := some skip }
  | expand (hoption : option = "$expand") (hcheck : check value = .ok ()) :
    Sets limits e check option value q { q with expand := Text.trimmed value }
  | other (hoption : option ∉ ["$select", "$filter", "$orderby", "$top", "$skip", "$expand"]) :
    Sets limits e check option value q q

theorem setOption_eq_ok_iff {option value : String} {q q' : Query} :
    setOption limits e check option value q = .ok q' ↔ Sets limits e check option value q q' := by
  constructor
  · intro h
    unfold setOption at h
    split at h
    case h_1 =>
      obtain ⟨names, hvalue, h⟩ := bind_eq_ok_iff.1 h
      cases h
      exact .select rfl hvalue
    case h_2 =>
      obtain ⟨p, hvalue, h⟩ := bind_eq_ok_iff.1 h
      cases h
      exact .filter rfl hvalue
    case h_3 =>
      obtain ⟨keys, hvalue, h⟩ := bind_eq_ok_iff.1 h
      cases h
      exact .order rfl hvalue
    case h_4 =>
      obtain ⟨top, hvalue, h⟩ := bind_eq_ok_iff.1 h
      obtain ⟨hcap, h⟩ := check_bind_eq_ok_iff.1 h
      cases h
      exact .top rfl hvalue hcap
    case h_5 =>
      obtain ⟨skip, hvalue, h⟩ := bind_eq_ok_iff.1 h
      cases h
      exact .skip rfl hvalue
    case h_6 =>
      obtain ⟨hcheck, h⟩ := check_bind_eq_ok_iff.1 h
      cases h
      exact .expand rfl hcheck
    case h_7 hselect hfilter horder htop hskip hexpand =>
      cases h
      exact .other (by simpa using ⟨hselect, hfilter, horder, htop, hskip, hexpand⟩)
  · intro h
    cases h with
    | select hoption hvalue | filter hoption hvalue | order hoption hvalue | skip hoption hvalue =>
      rw [hoption]
      exact bind_eq_ok_iff.2 ⟨_, hvalue, rfl⟩
    | top hoption hvalue hcap =>
      rw [hoption]
      exact bind_eq_ok_iff.2 ⟨_, hvalue, check_bind_eq_ok_iff.2 ⟨hcap, rfl⟩⟩
    | expand hoption hcheck =>
      rw [hoption]
      exact check_bind_eq_ok_iff.2 ⟨hcheck, rfl⟩
    | other hoption =>
      unfold setOption
      split <;> simp_all

/-- The check of expand texts matters only on the values that are read. -/
theorem setOption_congr {option value : String} {q : Query} (h : check value = check' value) :
    setOption limits e check option value q = setOption limits e check' option value q := by
  simp only [setOption, h]

/-- The parts of a query that the option is not for are the same in another query. -/
structure Kept (option : String) (q q' : Query) : Prop where
  select : option ≠ "$select" → q'.select = q.select
  filter : option ≠ "$filter" → q'.filter = q.filter
  order : option ≠ "$orderby" → q'.order = q.order
  top : option ≠ "$top" → q'.top = q.top
  expand : option ≠ "$expand" → q'.expand = q.expand

theorem Sets.kept {option value : String} {q q' : Query}
    (h : Sets limits e check option value q q') : Kept option q q' := by
  cases h <;> constructor <;> simp [*]

/-- The part of a query that the option is for is what the reader of the option makes of the value,
and within its cap. -/
structure IsRead (limits : QueryLimits) (e : EntityType)
    (check : String → Except RequestError Unit) (option value : String) (q : Query) : Prop where
  select : option = "$select" → SelectOption.parse limits e value = .ok q.select
  filter : option = "$filter" → FilterOption.parse limits e value = .ok q.filter
  order : option = "$orderby" → OrderByOption.parse limits e value = .ok q.order
  top : option = "$top" → ∃ top, q.top = some top ∧ limits.checkTop top = .ok ()
  expand : option = "$expand" → q.expand = Text.trimmed value ∧ check value = .ok ()

theorem Sets.isRead {option value : String} {q q' : Query}
    (h : Sets limits e check option value q q') : IsRead limits e check option value q' := by
  cases h with
  | other hoption => constructor <;> (intro ho; simp [ho] at hoption)
  | _ => constructor <;> simp [*]

/-- Laxer limits and a laxer check let the same value through. -/
theorem Sets.mono (hlimits : limits.AtMost limits') {option value : String} {q q' : Query}
    (hcheck : check value = .ok () → check' value = .ok ())
    (h : Sets limits e check option value q q') : Sets limits' e check' option value q q' := by
  cases h with
  | select hoption hvalue =>
    obtain ⟨hread, hcap⟩ := SelectOption.parse_eq_ok_iff.1 hvalue
    exact .select hoption (SelectOption.parse_eq_ok_iff.2 ⟨hread, hcap.trans hlimits.selectFields⟩)
  | filter hoption hvalue =>
    obtain ⟨hcap, hread⟩ := FilterOption.parse_eq_ok_iff.1 hvalue
    exact .filter hoption (FilterOption.parse_eq_ok_iff.2 ⟨hcap.trans hlimits.filterLength, hread⟩)
  | order hoption hvalue =>
    obtain ⟨hread, hcap⟩ := OrderByOption.parse_eq_ok_iff.1 hvalue
    exact .order hoption (OrderByOption.parse_eq_ok_iff.2 ⟨hread, hcap.trans hlimits.orderByFields⟩)
  | top hoption hvalue hcap => exact .top hoption hvalue (hlimits.checkTop hcap)
  | skip hoption hvalue => exact .skip hoption hvalue
  | expand hoption hvalue => exact .expand hoption (hcheck hvalue)
  | other hoption => exact .other hoption

/-! ## All options -/

/-- The name of an option as it is compared: in lower case, without the blanks around it. -/
def optionName (o : String × String) : String := Text.lowered (Text.trimmed o.1)

/-- The name of the option begins with a dollar sign; other options are not read. -/
def isOwn (o : String × String) : Bool := (Text.trimmed o.1).toList.head? == some '$'

/-- The value given for an option, in whatever way its name is written. -/
def given? (option : String) (options : List (String × String)) : Option String :=
  (options.find? fun o => optionName o == option).map (·.2)

theorem addOptions_congr {sofar : OptionsSoFar} {options : List (String × String)}
    (h : ∀ o ∈ options, check o.2 = check' o.2) :
    addOptions limits e check sofar options = addOptions limits e check' sofar options := by
  induction options generalizing sofar with
  | nil => rfl
  | cons o rest ih =>
    have hrest := fun o' ho' => h o' (List.mem_cons_of_mem o ho')
    have hset : ∀ option q, setOption limits e check option o.2 q
        = setOption limits e check' option o.2 q :=
      fun option q => setOption_congr (h o List.mem_cons_self)
    simp only [addOptions, ih hrest, hset]

/-- The first option is not one of ours, or it is new and is read before the others. -/
theorem addOptions_cons_eq_ok_iff {sofar : OptionsSoFar} {o : String × String}
    {rest : List (String × String)} {q : Query} :
    addOptions limits e check sofar (o :: rest) = .ok q ↔
      (isOwn o = false ∧ addOptions limits e check sofar rest = .ok q) ∨
      (isOwn o = true ∧ optionName o ∉ sofar.seen ∧
        ∃ query, Sets limits e check (optionName o) o.2 sofar.query query ∧
          addOptions limits e check ⟨sofar.seen ++ [optionName o], query⟩ rest = .ok q) := by
  simp only [addOptions, bne_iff_ne, List.contains_iff_mem]
  split
  · next hother =>
    have hother : isOwn o = false := by simpa [isOwn] using hother
    simp [hother]
  · next hown =>
    have hown : isOwn o = true := by simpa [isOwn] using hown
    split
    · next hseen =>
      have hseen : optionName o ∈ sofar.seen := hseen
      simp [hown, hseen]
    · next hnew =>
      have hnew : optionName o ∉ sofar.seen := hnew
      simp only [bind_eq_ok_iff, setOption_eq_ok_iff, hown, hnew, reduceCtorEq, not_false_eq_true,
        true_and, false_and, false_or]
      rfl

/-- Options that are read are read under laxer limits and with a laxer check, as the same query. -/
theorem addOptions_mono (hlimits : limits.AtMost limits') {sofar : OptionsSoFar}
    {options : List (String × String)} {q : Query}
    (hcheck : ∀ o ∈ options, check o.2 = .ok () → check' o.2 = .ok ())
    (h : addOptions limits e check sofar options = .ok q) :
    addOptions limits' e check' sofar options = .ok q := by
  induction options generalizing sofar with
  | nil => exact h
  | cons o rest ih =>
    obtain ⟨ho, hrest⟩ := List.forall_mem_cons.1 hcheck
    rw [addOptions_cons_eq_ok_iff] at h ⊢
    rcases h with ⟨hother, h⟩ | ⟨hown, hnew, query, hsets, h⟩
    · exact .inl ⟨hother, ih hrest h⟩
    · exact .inr ⟨hown, hnew, query, hsets.mono hlimits ho, ih hrest h⟩

/-- No option is read twice, in whatever way its name is written. -/
theorem nodup_of_addOptions {sofar : OptionsSoFar} {options : List (String × String)} {q : Query}
    (h : addOptions limits e check sofar options = .ok q) :
    ((options.filter isOwn).map optionName).Nodup ∧
      ∀ o ∈ options, isOwn o = true → optionName o ∉ sofar.seen := by
  induction options generalizing sofar with
  | nil => exact ⟨.nil, by simp⟩
  | cons o rest ih =>
    rcases addOptions_cons_eq_ok_iff.1 h with ⟨hother, h⟩ | ⟨hown, hnew, query, -, h⟩
    · obtain ⟨hnodup, hseen⟩ := ih h
      refine ⟨by rwa [List.filter_cons_of_neg (by simp [hother])], ?_⟩
      refine List.forall_mem_cons.2 ⟨fun hown => ?_, hseen⟩
      rw [hother] at hown
      cases hown
    · obtain ⟨hnodup, hseen⟩ := ih h
      have hlater : ∀ o' ∈ rest, isOwn o' = true →
          optionName o' ∉ sofar.seen ∧ optionName o' ≠ optionName o := by
        intro o' ho' hown'
        simpa using hseen o' ho' hown'
      constructor
      · rw [List.filter_cons_of_pos hown, List.map_cons, List.nodup_cons]
        refine ⟨fun hmem => ?_, hnodup⟩
        obtain ⟨o', ho', hsame⟩ := List.mem_map.1 hmem
        obtain ⟨hmem', hown'⟩ := List.mem_filter.1 ho'
        exact (hlater o' hmem' hown').2 hsame
      · exact List.forall_mem_cons.2 ⟨fun _ => hnew, fun o' ho' hown' => (hlater o' ho' hown').1⟩

/-! ## The parts of a query -/

theorem isOwn_of_optionName {option : String} (hown : option.toList.head? = some '$')
    {o : String × String} (ho : optionName o = option) : isOwn o = true := by
  have hhead : ((Text.trimmed o.1).toList.map Char.toLower).head? = some '$' := by
    rw [← hown, ← ho, optionName, Text.lowered, String.toList_ofList]
    rfl
  rw [List.head?_map] at hhead
  obtain ⟨c, hc, hlower⟩ := Option.map_eq_some_iff.1 hhead
  -- only the dollar sign itself is one in lower case
  have hdollar : c = '$' := Text.eq_of_toLower_eq (by decide) hlower.symm
  rw [isOwn, hc, hdollar]
  rfl

theorem given?_cons_of_eq {option : String} {o : String × String} (ho : optionName o = option)
    (rest : List (String × String)) : given? option (o :: rest) = some o.2 := by
  rw [given?, List.find?_cons_of_pos (by simpa using ho)]
  rfl

theorem given?_cons_of_ne {option : String} {o : String × String} (ho : optionName o ≠ option)
    (rest : List (String × String)) : given? option (o :: rest) = given? option rest := by
  rw [given?, List.find?_cons_of_neg (by simpa using ho), given?]

theorem exists_of_given? {option value : String} {options : List (String × String)}
    (h : given? option options = some value) :
    ∃ o ∈ options, optionName o = option ∧ o.2 = value := by
  obtain ⟨o, ho, hvalue⟩ := Option.map_eq_some_iff.1 h
  exact ⟨o, List.mem_of_find?_eq_some ho, by simpa using List.find?_some ho, hvalue⟩

/-- A part of a query that only one option sets is as it was where the option is not given, and
comes from the value given for it where it is. -/
theorem view_of_addOptions {α : Type} {view : Query → α} {option : String}
    (hown : option.toList.head? = some '$')
    (hkept : ∀ {name value q q'}, name ≠ option → Sets limits e check name value q q' →
      view q' = view q)
    {sofar : OptionsSoFar} {options : List (String × String)} {q : Query}
    (h : addOptions limits e check sofar options = .ok q) :
    (given? option options = none → view q = view sofar.query) ∧
      ∀ value, given? option options = some value →
        ∃ before after, Sets limits e check option value before after ∧ view q = view after := by
  induction options generalizing sofar with
  | nil =>
    cases h
    exact ⟨fun _ => rfl, nofun⟩
  | cons o rest ih =>
    rcases addOptions_cons_eq_ok_iff.1 h with ⟨hother, h⟩ | ⟨-, -, query, hsets, h⟩
    · have hne : optionName o ≠ option := by
        intro hsame
        rw [isOwn_of_optionName hown hsame] at hother
        cases hother
      rw [given?_cons_of_ne hne]
      exact ih h
    obtain ⟨hnone, hsome⟩ := ih h
    by_cases hsame : optionName o = option
    · -- no later option has the name again
      have hlast : given? option rest = none := by
        refine Option.map_eq_none_iff.2 (List.find?_eq_none.2 fun o' ho' hsame' => ?_)
        have hsame' : optionName o' = option := by simpa using hsame'
        have hseen := (nodup_of_addOptions h).2 o' ho' (isOwn_of_optionName hown hsame')
        exact hseen (by simp [hsame, hsame'])
      rw [given?_cons_of_eq hsame]
      refine ⟨nofun, fun value hvalue => ?_⟩
      cases hvalue
      exact ⟨sofar.query, query, hsame ▸ hsets, hnone hlast⟩
    · rw [given?_cons_of_ne hsame]
      exact ⟨fun hgiven => (hnone hgiven).trans (hkept hsame hsets), hsome⟩

end Query

end ODataEngine
