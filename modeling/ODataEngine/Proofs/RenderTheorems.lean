import ODataEngine.Proofs.PlaceTheorems

/-!
# Writing expand texts and reading them back

`Expand.render` writes items as one text. The text holds the values of options as they are, with
their quotes, parentheses and commas, and with further texts of the same kind among them.
`parse_render` says that every such text is read back, level by level.

Both halves of it go through `StableItem`: items that can be written are stable
(`IsWritable.stable`), items that were read are stable (`stable_of_parse`), and stable items are
read back from their text (`parse_render_of_stable`).
-/

namespace ODataEngine.Expand

/-! ## Items that are read back -/

/-- The characters of an option in its text. -/
def optionChars (o : String × String) : List Char := o.1.toList ++ '=' :: o.2.toList

/-- The characters of an item in its text. -/
def itemChars (item : ExpandItem) : List Char :=
  item.property.toList ++
    if item.options.isEmpty then []
    else '(' :: ([';'].intercalate (item.options.map optionChars) ++ [')'])

theorem toList_optionText (o : String × String) : (optionText o).toList = optionChars o := by
  simp [optionText, optionChars, ToString.toString]

theorem toList_itemText (item : ExpandItem) : (itemText item).toList = itemChars item := by
  unfold itemText itemChars
  have hoptions : item.options.map (String.toList ∘ optionText) = item.options.map optionChars :=
    List.map_congr_left fun o _ => toList_optionText o
  split <;> simp [ToString.toString, String.toList_intercalate, hoptions]

theorem toList_render (items : List ExpandItem) :
    (render items).toList = [','].intercalate (items.map itemChars) := by
  have hitems : items.map (String.toList ∘ itemText) = items.map itemChars :=
    List.map_congr_left fun item _ => toList_itemText item
  simp [render, String.toList_intercalate, hitems]

/-- An option whose text is whole and says where its key ends and its value begins. -/
structure StableOption (o : String × String) : Prop where
  sign : '=' ∉ o.1.toList
  key : Text.trim o.1.toList = o.1.toList
  value : Text.trim o.2.toList = o.2.toList
  whole : isWhole (optionChars o) = true

/-- An item with a plain name whose options are all of that kind. -/
structure StableItem (item : ExpandItem) : Prop where
  named : item.property.toList ≠ []
  plain : ∀ c ∈ item.property.toList,
    Text.isBlank c = false ∧ c ≠ '\'' ∧ Token.ofPunctuation? c = none
  options : ∀ o ∈ item.options, StableOption o

namespace StableOption

variable {o : String × String}

theorem trim_optionChars (h : StableOption o) : Text.trim (optionChars o) = optionChars o := by
  unfold optionChars
  refine Text.trim_eq_self (fun c hc => ?_) fun c hc => ?_
  · rw [List.head?_append] at hc
    cases hkey : o.1.toList.head? with
    | none =>
      rw [hkey] at hc
      cases hc
      rfl
    | some d =>
      rw [hkey] at hc
      cases hc
      exact Text.not_isBlank_head h.key hkey
  · rw [List.getLast?_append, List.getLast?_cons] at hc
    cases hvalue : o.2.toList.getLast? with
    | none =>
      rw [hvalue] at hc
      cases hc
      rfl
    | some d =>
      rw [hvalue] at hc
      cases hc
      exact Text.not_isBlank_getLast h.value hvalue

theorem readOption_optionChars (h : StableOption o) : readOption (optionChars o) = .ok [o] := by
  have hcut : Text.cutAtFirst '=' (optionChars o) = some (o.1.toList, o.2.toList) :=
    Text.cutAtFirst_append h.sign o.2.toList
  have hne : (optionChars o).isEmpty = false := by simp [optionChars]
  unfold readOption
  simp only [h.trim_optionChars, hne, hcut, h.key, h.value, String.ofList_toList,
    Bool.false_eq_true, if_false]

/-- The options between parentheses are read back. -/
theorem readOptions_putText {options : List (String × String)} (hne : options ≠ [])
    (h : ∀ o ∈ options, StableOption o) (rest : List Token) :
    readOptions (Token.putText false ([';'].intercalate (options.map optionChars))
      (.closing :: rest)) = .ok (options, rest) := by
  induction options with
  | nil => exact absurd rfl hne
  | cons o more ih =>
    obtain ⟨ho, hmore⟩ := List.forall_mem_cons.1 h
    have hwhole := isWhole_iff.1 ho.whole
    cases more with
    | nil =>
      have htake := takeOption_putText hwhole (.inl rfl) rest
      refine readOptions_eq_ok_iff.2 ⟨[o], ?_, .inl ⟨?_, rfl⟩⟩
      · rw [List.map_cons, List.map_nil, List.intercalate_singleton, htake,
          ho.readOption_optionChars]
      · rw [List.map_cons, List.map_nil, List.intercalate_singleton, htake]
    | cons o' more =>
      have hread := ih (List.cons_ne_nil _ _) hmore
      have hsplit : [';'].intercalate ((o :: o' :: more).map optionChars)
          = optionChars o ++ ';' :: [';'].intercalate ((o' :: more).map optionChars) :=
        Text.intercalate_cons_cons
      generalize [';'].intercalate ((o' :: more).map optionChars) = later at hread hsplit
      have hput : Token.putText false (optionChars o ++ ';' :: later) (.closing :: rest)
          = Token.putText false (optionChars o)
            (.semicolon :: Token.putText false later (.closing :: rest)) :=
        Token.putText_append hwhole _ _
      have htake := takeOption_putText hwhole (.inr rfl)
        (Token.putText false later (.closing :: rest))
      rw [hsplit, hput]
      refine readOptions_eq_ok_iff.2 ⟨[o], ?_, .inr ⟨_, o' :: more, ?_, hread, rfl⟩⟩
      · rw [htake, ho.readOption_optionChars]
      · rw [htake]

end StableOption

namespace StableItem

variable {item : ExpandItem}

theorem after_property (h : StableItem item) (p : Place) :
    p.after item.property.toList = some p :=
  Place.after_eq_self fun c hc => p.step_eq_self_of_plain (h.plain c hc).2.1 (h.plain c hc).2.2

theorem trim_property (h : StableItem item) :
    Text.trim item.property.toList = item.property.toList :=
  Text.trim_eq_self (fun c hc => (h.plain c (List.mem_of_mem_head? hc)).1)
    fun c hc => (h.plain c (List.mem_of_getLast? hc)).1

theorem readName_property (h : StableItem item) :
    readName item.property.toList = .ok item.property.toList := by
  have hne : item.property.toList.isEmpty = false := by simpa using h.named
  have hblank : item.property.toList.any Text.isBlank = false := by
    simpa using fun c hc => (h.plain c hc).1
  have hquote : item.property.toList.contains '\'' = false := by
    simpa using fun hc => (h.plain _ hc).2.1 rfl
  unfold readName
  simp only [h.trim_property, hne, hblank, hquote, Bool.false_eq_true, Bool.or_self, if_false]

/-- The options of an item stand as a whole between its parentheses. -/
theorem after_options (h : StableItem item) :
    Place.after ⟨false, 1⟩ ([';'].intercalate (item.options.map optionChars))
      = some ⟨false, 1⟩ := by
  refine Place.after_intercalate rfl (List.forall_mem_map.2 fun o ho => ?_)
  exact Place.after_deeper (isWhole_iff.1 (h.options o ho).whole) 1

theorem isWhole_itemChars (h : StableItem item) : isWhole (itemChars item) = true := by
  refine isWhole_iff.2 (Place.after_append_eq_some_iff.2 ⟨_, h.after_property _, ?_⟩)
  split
  · rfl
  · exact Place.after_cons_eq_some_iff.2 ⟨_, rfl,
      Place.after_append_eq_some_iff.2 ⟨_, h.after_options, rfl⟩⟩

theorem trim_itemChars (h : StableItem item) : Text.trim (itemChars item) = itemChars item := by
  unfold itemChars
  split
  · rw [List.append_nil]
    exact h.trim_property
  · rw [← List.cons_append, ← List.append_assoc]
    refine Text.trim_between h.named (List.cons_ne_nil _ _)
      (fun c hc => Text.not_isBlank_head h.trim_property hc) (fun c hc => ?_) _
    cases hc
    rfl

theorem itemChars_ne_nil (h : StableItem item) : itemChars item ≠ [] :=
  List.append_ne_nil_of_left_ne_nil h.named _

/-- An item is read back where the text ends behind it or goes on with a comma. -/
theorem readItem_putText (h : StableItem item) {tokens : List Token}
    (htokens : tokens = [] ∨ ∃ rest, tokens = .comma :: rest) :
    readItem (Token.putText false (itemChars item) tokens) = .ok (item, tokens) := by
  have hplain : ∀ c ∈ item.property.toList, c ≠ '\'' ∧ Token.ofPunctuation? c = none :=
    fun c hc => (h.plain c hc).2
  have hproperty : item.property = String.ofList item.property.toList :=
    String.ofList_toList.symm
  unfold itemChars
  rw [Token.putText_append (h.after_property ⟨false, 0⟩)]
  split
  · next hnone =>
    have hput : Token.putText false item.property.toList tokens
        = .text item.property.toList :: tokens :=
      Token.putText_name h.named hplain (by rcases htokens with rfl | ⟨_, rfl⟩ <;> simp)
    rw [Token.putText, hput]
    refine readItem_eq_ok_iff.2
      ⟨_, tokens, _, rfl, h.readName_property, hproperty, .inr ⟨?_, ?_, rfl⟩⟩
    · rcases htokens with rfl | ⟨_, rfl⟩ <;> simp
    · simpa using hnone
  · next hsome =>
    have hne : item.options ≠ [] := by simpa using hsome
    have hread := StableOption.readOptions_putText hne h.options tokens
    have hinside := Token.putText_append (h.after_options) [')'] tokens
    generalize [';'].intercalate (item.options.map optionChars) = inside at hread hinside
    have hput : Token.putText false ('(' :: (inside ++ [')'])) tokens
        = .opening :: Token.putText false inside (.closing :: tokens) := congrArg _ hinside
    rw [hput, Token.putText_name h.named hplain (by simp)]
    exact readItem_eq_ok_iff.2
      ⟨_, _, _, rfl, h.readName_property, hproperty, .inl ⟨_, rfl, hread⟩⟩

end StableItem

/-- A list of stable items is read back. The fuel suffices as soon as it exceeds the number of
tokens. -/
theorem readItems_putText {items : List ExpandItem} (hne : items ≠ [])
    (h : ∀ item ∈ items, StableItem item) {total fuel : Nat}
    (hfuel : (Token.putText false ([','].intercalate (items.map itemChars)) []).length < fuel) :
    readItems total fuel (Token.putText false ([','].intercalate (items.map itemChars)) [])
      = .ok items := by
  induction items generalizing fuel with
  | nil => exact absurd rfl hne
  | cons item more ih =>
    obtain ⟨fuel, rfl⟩ : ∃ n, fuel = n + 1 := ⟨fuel - 1, by omega⟩
    obtain ⟨hitem, hmore⟩ := List.forall_mem_cons.1 h
    cases more with
    | nil =>
      rw [List.map_cons, List.map_nil, List.intercalate_singleton]
      exact readItems_eq_ok_iff.2
        ⟨item, [], hitem.readItem_putText (.inl rfl), .inl ⟨rfl, rfl⟩⟩
    | cons item' more =>
      have hread := @ih (List.cons_ne_nil _ _) hmore
      have hsplit : [','].intercalate ((item :: item' :: more).map itemChars)
          = itemChars item ++ ',' :: [','].intercalate ((item' :: more).map itemChars) :=
        Text.intercalate_cons_cons
      generalize [','].intercalate ((item' :: more).map itemChars) = later at hread hsplit
      have hput : Token.putText false (itemChars item ++ ',' :: later) []
          = Token.putText false (itemChars item) (.comma :: Token.putText false later []) :=
        Token.putText_append (isWhole_iff.1 hitem.isWhole_itemChars) _ _
      have hfirst := hitem.readItem_putText (.inr ⟨Token.putText false later [], rfl⟩)
      have hlt := length_rest_lt_of_readItem hfirst
      rw [hsplit, hput] at hfuel ⊢
      rw [List.length_cons] at hlt
      exact readItems_eq_ok_iff.2 ⟨item, _, hfirst,
        .inr ⟨_, item' :: more, rfl, hread (by omega), rfl⟩⟩

/-- The texts of stable items with commas between them are whole. -/
theorem isWhole_items {items : List ExpandItem} (h : ∀ item ∈ items, StableItem item) :
    isWhole ([','].intercalate (items.map itemChars)) = true := by
  refine isWhole_iff.2 (Place.after_intercalate rfl (List.forall_mem_map.2 fun item hitem => ?_))
  exact isWhole_iff.1 (h item hitem).isWhole_itemChars

/-- The text of stable items has no blanks around it, and is empty only if there are none. -/
theorem trim_items {items : List ExpandItem} (hne : items ≠ [])
    (h : ∀ item ∈ items, StableItem item) :
    let chars := [','].intercalate (items.map itemChars)
    Text.trim chars = chars ∧ chars ≠ [] := by
  intro chars
  induction items with
  | nil => exact absurd rfl hne
  | cons item more ih =>
    obtain ⟨hitem, hmore⟩ := List.forall_mem_cons.1 h
    cases more with
    | nil =>
      simp only [chars, List.map_cons, List.map_nil, List.intercalate_singleton]
      exact ⟨hitem.trim_itemChars, hitem.itemChars_ne_nil⟩
    | cons item' more =>
      obtain ⟨htrim, hlater⟩ := ih (List.cons_ne_nil _ _) hmore
      simp only [chars, List.map_cons, List.intercalate_cons_cons]
      rw [← List.map_cons]
      exact ⟨Text.trim_between hitem.itemChars_ne_nil hlater
          (fun c hc => Text.not_isBlank_head hitem.trim_itemChars hc)
          (fun c hc => Text.not_isBlank_getLast htrim hc) _,
        List.append_ne_nil_of_right_ne_nil _ hlater⟩

/-- Stable items are read back from their text. -/
theorem parse_render_of_stable {items : List ExpandItem} (h : ∀ item ∈ items, StableItem item) :
    parse (render items) = .ok items := by
  by_cases hne : items = []
  · rw [hne]
    rfl
  suffices hread : readText (render items) = .ok items by rw [parse, hread]
  obtain ⟨htrim, hchars⟩ := trim_items hne h
  have hblank : Text.isAllBlank (render items) = false := by
    rw [Text.isAllBlank, toList_render]
    refine Bool.eq_false_iff.2 fun hblank => hchars ?_
    rw [← htrim, Text.trim_eq_nil_iff.2 hblank]
  have hscan := Token.scan_eq_putText (isWhole_iff.1 (isWhole_items h)) rfl
  have hread := @readItems_putText items hne h (render items).utf8ByteSize _ (Nat.lt_succ_self _)
  unfold readText
  rw [toList_render, hscan, hblank]
  exact hread

/-! ## What was read is stable -/

/-- An option that was read from a whole text is stable: trimming it and its parts takes away
nothing but blanks, which move no place. -/
theorem stable_of_readOption {text : List Char} (hwhole : isWhole text = true)
    {options : List (String × String)} (h : readOption text = .ok options) :
    ∀ o ∈ options, StableOption o := by
  simp only [readOption] at h
  split at h
  · cases h
    simp
  · split at h
    · next key value hcut =>
      cases h
      intro o ho
      obtain rfl := List.mem_singleton.1 ho
      have hsplit := Text.eq_of_cutAtFirst hcut
      have hparts := isWhole_iff.1 hwhole
      rw [← Place.after_trim, hsplit] at hparts
      obtain ⟨next, hkey, hvalue⟩ := Place.after_append_eq_some_iff.1 hparts
      obtain ⟨next', hsign, hvalue⟩ := Place.after_cons_eq_some_iff.1 hvalue
      have hwhole' : isWhole (Text.trim key ++ '=' :: Text.trim value) = true :=
        isWhole_iff.2 (Place.after_append_eq_some_iff.2 ⟨next, by rw [Place.after_trim, hkey],
          Place.after_cons_eq_some_iff.2 ⟨next', hsign, by rw [Place.after_trim, hvalue]⟩⟩)
      have hfirst : '=' ∉ Text.trim key :=
        fun hmem => Text.not_mem_of_cutAtFirst hcut (Text.mem_of_mem_trim hmem)
      refine ⟨?_, ?_, ?_, ?_⟩
      · simpa only [String.toList_ofList] using hfirst
      · simp only [String.toList_ofList, Text.trim_trim]
      · simp only [String.toList_ofList, Text.trim_trim]
      · simpa only [optionChars, String.toList_ofList] using hwhole'
    · cases h

/-- The options between parentheses were read from whole texts. -/
theorem stable_of_readOptions {tokens rest : List Token} (hscanned : Token.Scanned false tokens)
    {options : List (String × String)} (h : readOptions tokens = .ok (options, rest)) :
    (∀ o ∈ options, StableOption o) ∧ Token.Scanned false rest := by
  obtain ⟨option, hoption, ⟨hrest, rfl⟩ | ⟨later, more, hrest, hmore, rfl⟩⟩ :=
    readOptions_eq_ok_iff.1 h
  all_goals
    obtain ⟨hwhole, hlater⟩ := after_takeOption hscanned hrest
    have hstable := stable_of_readOption (isWhole_iff.2 hwhole) hoption
  · exact ⟨hstable, hlater.tail⟩
  · obtain ⟨hothers, hbehind⟩ := stable_of_readOptions hlater.tail hmore
    exact ⟨List.forall_mem_append.2 ⟨hstable, hothers⟩, hbehind⟩
termination_by tokens.length
decreasing_by
  have := length_takeOption_le 0 tokens
  rw [hrest, List.length_cons] at this
  omega

/-- A name that was read is what trimming leaves of its text. -/
theorem readName_spec {chars name : List Char} (h : readName chars = .ok name) :
    name = Text.trim chars ∧ name ≠ [] ∧ (∀ c ∈ name, Text.isBlank c = false) ∧ '\'' ∉ name := by
  simp only [readName] at h
  split at h
  · cases h
  · next hne =>
    split at h
    · cases h
    · next hplain =>
      cases h
      rw [Bool.or_eq_true, not_or, Bool.not_eq_true, Bool.not_eq_true] at hplain
      refine ⟨rfl, by simpa using hne, by simpa using hplain.1, by simpa using hplain.2⟩

theorem stable_of_readItem {tokens rest : List Token} (hscanned : Token.Scanned false tokens)
    {item : ExpandItem} (h : readItem tokens = .ok (item, rest)) :
    StableItem item ∧ Token.Scanned false rest := by
  obtain ⟨chars, after, name, rfl, hname, hproperty, hafter⟩ := readItem_eq_ok_iff.1 h
  have hstable : name ≠ [] ∧ ∀ c ∈ name,
      Text.isBlank c = false ∧ c ≠ '\'' ∧ Token.ofPunctuation? c = none := by
    obtain ⟨htrim, hne, hblank, hquote⟩ := readName_spec hname
    -- the blanks around the name hold no quotes either
    have hquotes : '\'' ∉ chars := fun hmem =>
      (Text.mem_trim_or_isBlank hmem).elim (fun h => hquote (htrim ▸ h))
        fun h => (isBlank_ne_punctuation h).2 rfl
    refine ⟨hne, fun c hc => ⟨hblank c hc, fun he => hquote (he ▸ hc), ?_⟩⟩
    rw [htrim] at hc
    exact Token.plain_of_isStretch hscanned.head hquotes c (Text.mem_of_mem_trim hc)
  have hnamed : item.property.toList = name := by rw [hproperty, String.toList_ofList]
  obtain ⟨inside, rfl, hoptions⟩ | ⟨-, hnone, rfl⟩ := hafter
  · obtain ⟨hoptions, hrest⟩ := stable_of_readOptions hscanned.tail.tail hoptions
    exact ⟨⟨hnamed ▸ hstable.1, hnamed ▸ hstable.2, hoptions⟩, hrest⟩
  · exact ⟨⟨hnamed ▸ hstable.1, hnamed ▸ hstable.2, by simp [hnone]⟩, hscanned.tail⟩

theorem stable_of_readItems {total fuel : Nat} {tokens : List Token}
    (hscanned : Token.Scanned false tokens) {items : List ExpandItem}
    (h : readItems total fuel tokens = .ok items) : ∀ item ∈ items, StableItem item := by
  induction fuel generalizing tokens items with
  | zero => cases h
  | succ fuel ih =>
    obtain ⟨item, rest, hitem, hrest⟩ := readItems_eq_ok_iff.1 h
    obtain ⟨hstable, hbehind⟩ := stable_of_readItem hscanned hitem
    rcases hrest with ⟨-, rfl⟩ | ⟨after, more, hafter, hmore, rfl⟩
    · simpa using hstable
    · have hskipped := hbehind.of_suffix (List.dropWhile_suffix Token.isBlank)
      rw [hafter] at hskipped
      exact List.forall_mem_cons.2 ⟨hstable, ih hskipped.tail hmore⟩

/-- Items that were read from a text are stable. -/
theorem stable_of_parse {s : String} {items : List ExpandItem} (h : parse s = .ok items) :
    ∀ item ∈ items, StableItem item := by
  unfold parse at h
  split at h
  · next items' hread =>
    cases h
    unfold readText at hread
    split at hread
    · cases hread
      simp
    · split at hread
      · cases hread
      · next tokens hscan =>
        exact stable_of_readItems (Token.scanned_of_scan hscan) hread
  · cases h

/-! ## What can be written -/

/-- A name that can be written: some characters, none of them a blank, a quote or punctuation. -/
def isNameText (name : String) : Bool :=
  !name.toList.isEmpty && name.toList.all fun c => !Text.isBlank c && !"'(),;".toList.contains c

/-- A key that can be written: trimmed, and without equals signs, quotes, parentheses and
semicolons. -/
def isKeyText (key : String) : Bool :=
  Text.trimmed key == key && key.toList.all fun c => !"='();".toList.contains c

/-- A value that can be written: trimmed and whole. -/
def isValueText (value : String) : Bool := Text.trimmed value == value && isWhole value.toList

/-- An item that can be written. -/
structure IsWritable (item : ExpandItem) : Prop where
  name : isNameText item.property = true
  options : ∀ o ∈ item.options, isKeyText o.1 = true ∧ isValueText o.2 = true

theorem StableOption.of_texts {o : String × String} (hkey : isKeyText o.1 = true)
    (hvalue : isValueText o.2 = true) : StableOption o := by
  rw [isKeyText, Bool.and_eq_true, beq_iff_eq, List.all_eq_true] at hkey
  rw [isValueText, Bool.and_eq_true, beq_iff_eq] at hvalue
  have hnone : ∀ c ∈ o.1.toList, ∀ d ∈ "='();".toList, c ≠ d := by
    rintro c hc d hd rfl
    have hall := hkey.2 c hc
    rw [List.contains_iff_mem.2 hd] at hall
    cases hall
  refine ⟨fun hmem => hnone _ hmem '=' (by decide) rfl, Text.trim_eq_of_trimmed hkey.1,
    Text.trim_eq_of_trimmed hvalue.1, isWhole_iff.2 ?_⟩
  have hbefore : Place.after ⟨false, 0⟩ o.1.toList = some ⟨false, 0⟩ := by
    refine Place.after_eq_self fun c hc => Place.step_eq_self _ ?_
    refine Bool.eq_false_iff.2 fun hmem => ?_
    rw [List.contains_iff_mem] at hmem
    exact hnone c hc c (List.mem_cons_of_mem _ hmem) rfl
  exact Place.after_append_eq_some_iff.2 ⟨_, hbefore,
    Place.after_cons_eq_some_iff.2 ⟨_, rfl, isWhole_iff.1 hvalue.2⟩⟩

theorem IsWritable.stable {item : ExpandItem} (h : IsWritable item) : StableItem item := by
  obtain ⟨hname, hoptions⟩ := h
  rw [isNameText, Bool.and_eq_true, List.all_eq_true] at hname
  refine ⟨by simpa using hname.1, fun c hc => ?_, fun o ho => ?_⟩
  · have hc := hname.2 c hc
    rw [Bool.and_eq_true, Bool.not_eq_true', Bool.not_eq_true'] at hc
    have hne : ∀ d ∈ "'(),;".toList, c ≠ d := by
      rintro d hd rfl
      rw [List.contains_iff_mem.2 hd] at hc
      cases hc.2
    refine ⟨hc.1, hne '\'' (by decide), ?_⟩
    unfold Token.ofPunctuation?
    split
    · exact absurd rfl (hne '(' (by decide))
    · exact absurd rfl (hne ')' (by decide))
    · exact absurd rfl (hne ',' (by decide))
    · exact absurd rfl (hne ';' (by decide))
    · rfl
  · exact .of_texts (hoptions o ho).1 (hoptions o ho).2

/-- The text of writable items is itself a value that can be written. -/
theorem isValueText_render {items : List ExpandItem} (h : ∀ item ∈ items, IsWritable item) :
    isValueText (render items) = true := by
  have hstable := fun item hitem => (h item hitem).stable
  rw [isValueText, Bool.and_eq_true, beq_iff_eq, toList_render]
  refine ⟨?_, isWhole_items hstable⟩
  by_cases hne : items = []
  · rw [hne]
    rfl
  · rw [Text.trimmed, toList_render, (trim_items hne hstable).1, ← toList_render,
      String.ofList_toList]

/-! ## Trees of expansions -/

/-- A navigation property to expand, with its options and the expansions nested in it. -/
inductive Expansion where
  | node (property : String) (options : List (String × String)) (nested : List Expansion)

namespace Expansion

/-- The expansions of the next level. -/
def nested : Expansion → List Expansion
  | node _ _ nested => nested

/-- The option that holds the items of the next level, if there are any. -/
def nestedOption (items : List ExpandItem) : List (String × String) :=
  if items.isEmpty then [] else [("$expand", render items)]

mutual

/-- The item of an expansion: its options, and the text of what is nested in it as one more. -/
def item : Expansion → ExpandItem
  | node property options nested => ⟨property, options ++ nestedOption (items nested)⟩

/-- The items of some expansions. -/
def items : List Expansion → List ExpandItem
  | [] => []
  | t :: rest => item t :: items rest

end

theorem mem_items {expansions : List Expansion} {i : ExpandItem} (h : i ∈ items expansions) :
    ∃ t ∈ expansions, i = item t := by
  induction expansions with
  | nil => cases h
  | cons t rest ih =>
    rcases List.mem_cons.1 h with rfl | h
    · exact ⟨t, List.mem_cons_self, rfl⟩
    · obtain ⟨t', ht', rfl⟩ := ih h
      exact ⟨t', List.mem_cons_of_mem t ht', rfl⟩

/-- A tree that can be written, level by level. -/
inductive IsWritable : Expansion → Prop
  | node {property : String} {options : List (String × String)} {nested : List Expansion}
    (hname : isNameText property = true)
    (hoptions : ∀ o ∈ options, isKeyText o.1 = true ∧ isValueText o.2 = true)
    (hnested : ∀ t ∈ nested, IsWritable t) : IsWritable (node property options nested)

/-- The text is read as the items of some expansions, and the text nested in each of them as the
items of the next level, all the way down. -/
inductive ReadAs : String → List Expansion → Prop
  | level {text : String} {expansions : List Expansion} (h : parse text = .ok (items expansions))
    (hnested : ∀ t ∈ expansions, ReadAs (render (items t.nested)) t.nested) :
    ReadAs text expansions

theorem IsWritable.item {t : Expansion} (h : t.IsWritable) : Expand.IsWritable t.item := by
  induction h with
  | @node property options nested hname hoptions _ ih =>
    refine ⟨hname, fun o ho => ?_⟩
    rcases List.mem_append.1 ho with ho | ho
    · exact hoptions o ho
    · unfold nestedOption at ho
      split at ho
      · cases ho
      · obtain rfl := List.mem_singleton.1 ho
        refine ⟨(by decide : isKeyText "$expand" = true), isValueText_render fun i hi => ?_⟩
        obtain ⟨t, ht, rfl⟩ := mem_items hi
        exact ih t ht

theorem readAs_render {expansions : List Expansion} (h : ∀ t ∈ expansions, t.IsWritable) :
    ReadAs (render (items expansions)) expansions := by
  have hlevel : ∀ {expansions : List Expansion}, (∀ t ∈ expansions, t.IsWritable) →
      parse (render (items expansions)) = .ok (items expansions) := by
    refine fun h => parse_render_of_stable fun i hi => ?_
    obtain ⟨t, ht, rfl⟩ := mem_items hi
    exact (h t ht).item.stable
  have hbelow : ∀ t : Expansion, t.IsWritable → ReadAs (render (items t.nested)) t.nested := by
    intro t ht
    induction ht with
    | node _ _ hnested ih => exact .level (hlevel hnested) ih
  exact .level (hlevel h) fun t ht => hbelow t (h t ht)

end Expansion

/-! ## Writing and reading -/

/-- Items that can be written are read back from their text; so are the items of a whole tree of
expansions, level by level, when the text of each level is an option of the level above; and
whatever items were read from a text, in whatever way it was written, are read back from the text
that they are written as. -/
theorem parse_render :
    (∀ items, (∀ item ∈ items, IsWritable item) → parse (render items) = .ok items) ∧
      (∀ expansions : List Expansion, (∀ t ∈ expansions, t.IsWritable) →
        Expansion.ReadAs (render (Expansion.items expansions)) expansions) ∧
      ∀ s items, parse s = .ok items → parse (render items) = .ok items := by
  refine ⟨fun items h => ?_, fun expansions h => ?_, fun s items h => ?_⟩
  · exact parse_render_of_stable fun item hitem => (h item hitem).stable
  · exact Expansion.readAs_render h
  · exact parse_render_of_stable (stable_of_parse h)

/-- Quoted separators, two levels of expansions in a tree, and a text with blanks, empty options and
a key that opens a literal which its value closes. -/
theorem parse_render_members :
    (∃ items, (∀ item ∈ items, IsWritable item) ∧
        render items = "members($filter=name eq 'a,b;(c)''';$expand=tags($top=2;$skip=1)),owner" ∧
        parse (render items) = .ok items) ∧
      (∃ t : Expansion, t.IsWritable ∧
        render [t.item] = "members($top=2;$expand=tags($select=id;$expand=owner))" ∧
        Expansion.ReadAs (render [t.item]) [t]) ∧
      ∃ items, parse " members ( ; ' = ' ; $top = 2 ;) ,owner" = .ok items ∧
        render items = "members('=';$top=2),owner" ∧ parse (render items) = .ok items := by
  refine ⟨?_, ?_, ?_⟩
  · let items : List ExpandItem :=
      [⟨"members", [("$filter", "name eq 'a,b;(c)'''"), ("$expand", "tags($top=2;$skip=1)")]⟩,
        ⟨"owner", []⟩]
    have hitems : ∀ item ∈ items, IsWritable item :=
      List.forall_mem_cons.2
        ⟨⟨by decide, by decide⟩, List.forall_mem_singleton.2 ⟨by decide, by decide⟩⟩
    exact ⟨items, hitems, by decide +kernel, parse_render.1 items hitems⟩
  · let t : Expansion := .node "members" [("$top", "2")]
      [.node "tags" [("$select", "id")] [.node "owner" [] []]]
    have ht : t.IsWritable :=
      .node (by decide) (by decide) (List.forall_mem_singleton.2 (.node (by decide) (by decide)
        (List.forall_mem_singleton.2 (.node (by decide) (by decide) nofun))))
    exact ⟨t, ht, by decide +kernel, parse_render.2.1 [t] (List.forall_mem_singleton.2 ht)⟩
  · have hread : parse " members ( ; ' = ' ; $top = 2 ;) ,owner"
        = .ok [⟨"members", [("'", "'"), ("$top", "2")]⟩, ⟨"owner", []⟩] := by
      decide +kernel
    exact ⟨_, hread, by decide +kernel, parse_render.2.2 _ _ hread⟩

end ODataEngine.Expand
