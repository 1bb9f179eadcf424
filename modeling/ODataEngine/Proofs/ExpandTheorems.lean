import ODataEngine.Expand.Item
import ODataEngine.Proofs.ResultTheorems
import ODataEngine.Proofs.TextTheorems

/-!
# Reading one level of an expand text

Two facts about `Expand.parse` that everything which goes down the levels of an expand text rests
on:

* `isPart_of_parse`: the value of an option is a proper part of the text it was read from, so going
  into the options of an item ends;
* `parse_trimmed`: blanks around a text do not change its items, so the trimmed text that a query
  keeps has the items that were checked.
-/

namespace ODataEngine.Expand

open Token (spell)

/-! ## What the readers accept -/

/-- Taking an option splits the characters of the tokens in two. -/
theorem spell_takeOption (depth : Nat) (tokens : List Token) :
    (takeOption depth tokens).1 ++ spell (takeOption depth tokens).2 = spell tokens := by
  induction tokens generalizing depth with
  | nil => rfl
  | cons t rest ih =>
    cases t with
    | closing | semicolon =>
      simp only [takeOption]
      split
      · rfl
      · rw [Token.spell_cons, List.append_assoc, ih]
    | opening | comma | text => simp only [takeOption, Token.spell_cons, List.append_assoc, ih]

/-- After an option stands a closing parenthesis, or a semicolon and further options. -/
theorem readOptions_eq (tokens : List Token) :
    readOptions tokens = (do
      let option ← readOption (takeOption 0 tokens).1
      match (takeOption 0 tokens).2 with
      | .closing :: rest => return (option, rest)
      | .semicolon :: rest =>
        let (options, rest) ← readOptions rest
        return (option ++ options, rest)
      | _ => .error .unbalanced) := by
  rw [readOptions]
  split
  · next e hoption =>
    rw [hoption]
    rfl
  · next option rest hoption hrest =>
    rw [hoption, hrest]
    rfl
  · next option rest hoption hrest =>
    rw [hoption, hrest]
    show _ = (readOptions rest >>= _)
    cases readOptions rest <;> rfl
  · next option hoption hclosing hsemicolon =>
    rw [hoption, ok_bind]
    split
    · next hrest => exact absurd hrest (hclosing _)
    · next hrest => exact absurd hrest (hsemicolon _)
    · rfl

/-- Options are read one by one, each followed by a semicolon but the last, which is followed by the
closing parenthesis. -/
theorem readOptions_eq_ok_iff {tokens rest : List Token} {options : List (String × String)} :
    readOptions tokens = .ok (options, rest) ↔
      ∃ option, readOption (takeOption 0 tokens).1 = .ok option ∧
        ((takeOption 0 tokens).2 = .closing :: rest ∧ options = option ∨
          ∃ later more, (takeOption 0 tokens).2 = .semicolon :: later ∧
            readOptions later = .ok (more, rest) ∧ options = option ++ more) := by
  rw [readOptions_eq, bind_eq_ok_iff]
  apply exists_congr
  intro option
  apply and_congr_right
  intro hoption
  generalize (takeOption 0 tokens).2 = behind
  constructor
  · intro h
    split at h
    · cases h
      exact .inl ⟨rfl, rfl⟩
    · next later =>
      obtain ⟨read, hread, h⟩ := bind_eq_ok_iff.1 h
      cases h
      exact .inr ⟨later, read.1, rfl, hread, rfl⟩
    · cases h
  · intro h
    rcases h with ⟨rfl, rfl⟩ | ⟨later, more, rfl, hmore, rfl⟩
    · rfl
    · exact bind_eq_ok_iff.2 ⟨(more, rest), hmore, rfl⟩

/-- An item is a name, with options if a parenthesis opens right behind it. -/
theorem readItem_eq_ok_iff {tokens rest : List Token} {item : ExpandItem} :
    readItem tokens = .ok (item, rest) ↔
      ∃ chars after name, tokens = .text chars :: after ∧ readName chars = .ok name ∧
        item.property = String.ofList name ∧
        ((∃ inside, after = .opening :: inside ∧ readOptions inside = .ok (item.options, rest)) ∨
          (∀ inside, after ≠ .opening :: inside) ∧ item.options = [] ∧ rest = after) := by
  obtain ⟨property, options⟩ := item
  constructor
  · intro h
    unfold readItem at h
    split at h
    · next chars after =>
      split at h
      · cases h
      · next name hname =>
        split at h
        · next inside =>
          split at h
          · cases h
          · next hoptions =>
            cases h
            exact ⟨chars, _, name, rfl, hname, rfl, .inl ⟨inside, rfl, hoptions⟩⟩
        · next hopening =>
          cases h
          exact ⟨chars, _, name, rfl, hname, rfl, .inr ⟨hopening, rfl, rfl⟩⟩
    · cases h
  · rintro ⟨chars, after, name, rfl, hname, rfl, ⟨inside, rfl, hoptions⟩ | ⟨hopening, rfl, rfl⟩⟩
    · simp only [readItem, hname, hoptions]
    · simp only [readItem, hname]

/-- After an item the text ends, or a comma and further items follow. -/
theorem readItems_eq_ok_iff {total fuel : Nat} {tokens : List Token} {items : List ExpandItem} :
    readItems total (fuel + 1) tokens = .ok items ↔
      ∃ item rest, readItem tokens = .ok (item, rest) ∧
        (rest.dropWhile Token.isBlank = [] ∧ items = [item] ∨
          ∃ after more, rest.dropWhile Token.isBlank = .comma :: after ∧
            readItems total fuel after = .ok more ∧ items = item :: more) := by
  constructor
  · intro h
    simp only [readItems] at h
    split at h
    · cases h
    · next item rest hitem =>
      split at h
      · next hend =>
        cases h
        exact ⟨item, rest, hitem, .inl ⟨hend, rfl⟩⟩
      · next after hafter =>
        split at h
        · cases h
        · next more hmore =>
          cases h
          exact ⟨item, rest, hitem, .inr ⟨after, more, hafter, hmore, rfl⟩⟩
      · cases h
  · rintro ⟨item, rest, hitem, ⟨hend, rfl⟩ | ⟨after, more, hafter, hmore, rfl⟩⟩
    · simp only [readItems, hitem, hend]
    · simp only [readItems, hitem, hafter, hmore]

/-! ## Options are parts of their text -/

/-- The value stands in the text, behind at least one other character. -/
def IsPart (value text : List Char) : Prop :=
  ∃ before after, before ≠ [] ∧ text = before ++ value ++ after

theorem IsPart.length_lt {value text : List Char} (h : IsPart value text) :
    value.length < text.length := by
  obtain ⟨before, after, hne, rfl⟩ := h
  have hbefore := List.length_pos_iff.2 hne
  simp only [List.length_append]
  omega

/-- A part of a text is a part of every text that has it inside. -/
theorem IsPart.within {value text whole : List Char} (h : IsPart value text)
    (hinside : text <:+: whole) : IsPart value whole := by
  obtain ⟨before, after, hne, rfl⟩ := h
  obtain ⟨first, last, rfl⟩ := hinside
  refine ⟨first ++ before, after ++ last, ?_, ?_⟩
  · intro hnil
    exact hne (List.append_eq_nil_iff.1 hnil).2
  · simp only [List.append_assoc]

/-- The equals sign and the name before it are left out of the value of an option. -/
theorem isPart_of_readOption {text : List Char} {options : List (String × String)}
    (h : readOption text = .ok options) : ∀ o ∈ options, IsPart o.2.toList text := by
  simp only [readOption] at h
  split at h
  · cases h
    simp
  · split at h
    · next key value hcut =>
      cases h
      intro o ho
      obtain rfl := List.mem_singleton.1 ho
      have htrimmed : IsPart (Text.trim value) (Text.trim text) := by
        obtain ⟨b, b', -, -, hvalue⟩ := Text.exists_eq_trim value
        refine ⟨key ++ '=' :: b, b', by simp, ?_⟩
        rw [Text.eq_of_cutAtFirst hcut, List.append_assoc key, List.append_assoc key,
          List.cons_append, List.cons_append, ← hvalue]
      obtain ⟨b, b', -, -, htext⟩ := Text.exists_eq_trim text
      show IsPart (String.ofList (Text.trim value)).toList text
      rw [String.toList_ofList]
      exact htrimmed.within ⟨b, b', htext.symm⟩
    · cases h

theorem isPart_of_readOptions {tokens rest : List Token} {options : List (String × String)}
    (h : readOptions tokens = .ok (options, rest)) :
    (∀ o ∈ options, IsPart o.2.toList (spell tokens)) ∧ spell rest <:+ spell tokens := by
  obtain ⟨option, hoption, hafter⟩ := readOptions_eq_ok_iff.1 h
  have hspell := spell_takeOption 0 tokens
  have htaken : ∀ o ∈ option, IsPart o.2.toList (spell tokens) := fun o ho =>
    (isPart_of_readOption hoption o ho).within ⟨[], spell (takeOption 0 tokens).2, hspell⟩
  rcases hafter with ⟨hrest, rfl⟩ | ⟨later, more, hrest, hmore, rfl⟩
  all_goals rw [hrest, Token.spell_cons, ← List.append_assoc] at hspell
  · exact ⟨htaken, _, hspell⟩
  · have ih := isPart_of_readOptions hmore
    have hlater : spell later <:+ spell tokens := ⟨_, hspell⟩
    refine ⟨?_, ih.2.trans hlater⟩
    intro o ho
    rcases List.mem_append.1 ho with ho | ho
    · exact htaken o ho
    · exact (ih.1 o ho).within hlater.isInfix
termination_by tokens.length
decreasing_by
  have := length_takeOption_le 0 tokens
  rw [hrest, List.length_cons] at this
  omega

theorem isPart_of_readItem {tokens rest : List Token} {item : ExpandItem}
    (h : readItem tokens = .ok (item, rest)) :
    (∀ o ∈ item.options, IsPart o.2.toList (spell tokens)) ∧ spell rest <:+ spell tokens := by
  obtain ⟨chars, after, name, rfl, -, -, ⟨inside, rfl, hoptions⟩ | ⟨-, hnone, rfl⟩⟩ :=
    readItem_eq_ok_iff.1 h
  · obtain ⟨hparts, hrest⟩ := isPart_of_readOptions hoptions
    have hinside : spell inside <:+ spell (.text chars :: .opening :: inside) :=
      ⟨chars ++ ['('], by simp [Token.lexeme]⟩
    exact ⟨fun o ho => (hparts o ho).within hinside.isInfix, hrest.trans hinside⟩
  · rw [hnone]
    exact ⟨fun o ho => absurd ho List.not_mem_nil, chars, rfl⟩

theorem isPart_of_readItems {total fuel : Nat} {tokens : List Token} {items : List ExpandItem}
    (h : readItems total fuel tokens = .ok items) :
    ∀ item ∈ items, ∀ o ∈ item.options, IsPart o.2.toList (spell tokens) := by
  induction fuel generalizing tokens items with
  | zero => cases h
  | succ fuel ih =>
    obtain ⟨item, rest, hitem, ⟨-, rfl⟩ | ⟨after, more, hafter, hmore, rfl⟩⟩ :=
      readItems_eq_ok_iff.1 h
    all_goals have hparts := isPart_of_readItem hitem
    · intro item' hmem
      obtain rfl := List.mem_singleton.1 hmem
      exact hparts.1
    · -- what follows the comma is a part of what the item left
      have hsplit := congrArg spell
        (List.takeWhile_append_dropWhile (p := Token.isBlank) (l := rest))
      rw [hafter, spell, List.flatMap_append, List.flatMap_cons, ← List.append_assoc] at hsplit
      have hbehind : spell after <:+ spell tokens :=
        List.IsSuffix.trans ⟨_, hsplit⟩ hparts.2
      intro item' hmem o ho
      rcases List.mem_cons.1 hmem with rfl | hmem
      · exact hparts.1 o ho
      · exact (ih hmore item' hmem o ho).within hbehind.isInfix

/-- The value of an option is a part of the expand text that it stands in. -/
theorem isPart_of_parse {s : String} {items : List ExpandItem} (h : parse s = .ok items) :
    ∀ item ∈ items, ∀ o ∈ item.options, IsPart o.2.toList s.toList := by
  unfold parse at h
  split at h
  · next items' hread =>
    cases h
    unfold readText at hread
    split at hread
    · cases hread
      simp
    · split at hread
      · cases hread
      · next tokens hscan =>
        rw [← Token.spell_scan hscan]
        exact isPart_of_readItems hread
  · cases h

/-- The value of an option is shorter than the expand text that it stands in. -/
theorem length_lt_of_parse {s : String} {items : List ExpandItem} (h : parse s = .ok items) :
    ∀ item ∈ items, ∀ o ∈ item.options, o.2.length < s.length := by
  intro item hitem o ho
  rw [← String.length_toList, ← String.length_toList]
  exact (isPart_of_parse h item hitem o ho).length_lt

/-! ## Blanks behind a text -/

/-- The second tokens are the first with blanks behind them: as a token of their own, or in the last
token if that is text. -/
inductive BlankBehind : List Token → List Token → Prop
  | nil : BlankBehind [] []
  | new {b : List Char} (hb : Text.allBlank b = true) : BlankBehind [] [.text b]
  | last (chars : List Char) {b : List Char} (hb : Text.allBlank b = true) :
    BlankBehind [.text chars] [.text (chars ++ b)]
  | cons (t : Token) {tokens tokens' : List Token} (h : BlankBehind tokens tokens') :
    BlankBehind (t :: tokens) (t :: tokens')

/-- Text in front goes into the same token with and without blanks behind. -/
theorem BlankBehind.consText {tokens tokens' : List Token} (h : BlankBehind tokens tokens')
    (c : Char) : BlankBehind (Token.consText c tokens) (Token.consText c tokens') := by
  cases h with
  | nil => exact .cons _ .nil
  | new hb => exact .last [c] hb
  | last chars hb => exact .last (c :: chars) hb
  | cons t h =>
    cases t with
    | text chars => exact .cons _ h
    | _ => exact .cons _ (.cons _ h)

theorem isBlank_ne_punctuation {c : Char} (h : Text.isBlank c = true) :
    Token.ofPunctuation? c = none ∧ c ≠ '\'' := by
  have hne : ∀ d, Text.isBlank d = false → c ≠ d := fun d hd he => by simp [he, hd] at h
  constructor
  · unfold Token.ofPunctuation?
    split
    · exact absurd rfl (hne _ (by decide))
    · exact absurd rfl (hne _ (by decide))
    · exact absurd rfl (hne _ (by decide))
    · exact absurd rfl (hne _ (by decide))
    · rfl
  · exact hne _ (by decide)

/-- A character that is neither a quote nor punctuation goes into the token behind it. -/
theorem scan_plain {inQuote : Bool} {c : Char} (hc : c ≠ '\'')
    (hplain : inQuote = true ∨ Token.ofPunctuation? c = none) (s : List Char) :
    Token.scan inQuote (c :: s) = (Token.scan inQuote s).map (Token.consText c) := by
  have htext : (if inQuote then none else Token.ofPunctuation? c) = none := by
    rcases hplain with h | h
    · rw [if_pos h]
    · rw [h, ite_self]
  rw [Token.scan, htext, beq_false_of_ne hc, Bool.bne_false]

/-- Blanks in front of a text go into its first token. -/
theorem scan_blanks_append {inQuote : Bool} {b : List Char} (hb : Text.allBlank b = true)
    (s : List Char) :
    Token.scan inQuote (b ++ s)
      = (Token.scan inQuote s).map fun tokens => b.foldr Token.consText tokens := by
  induction b with
  | nil => simp
  | cons c b ih =>
    simp only [Text.allBlank, List.all_cons, Bool.and_eq_true] at hb ih
    obtain ⟨hplain, hquote⟩ := isBlank_ne_punctuation hb.1
    rw [List.cons_append, scan_plain hquote (.inr hplain), ih hb.2, Option.map_map]
    rfl

/-- In front of punctuation, or of nothing, text is a token of its own. -/
theorem foldr_consText {stretch : List Char} (hstretch : stretch ≠ []) {tokens : List Token}
    (htokens : ∀ chars rest, tokens ≠ .text chars :: rest) :
    stretch.foldr Token.consText tokens = .text stretch :: tokens := by
  induction stretch with
  | nil => exact absurd rfl hstretch
  | cons c rest ih =>
    by_cases hlast : rest = []
    · rw [hlast]
      show Token.consText c tokens = .text [c] :: tokens
      unfold Token.consText
      split
      · next chars more => exact absurd rfl (htokens chars more)
      · rfl
    · rw [List.foldr_cons, ih hlast]
      rfl

theorem foldr_consText_nil (b : List Char) :
    b.foldr Token.consText [] = if b = [] then [] else [.text b] := by
  by_cases hb : b = []
  · rw [if_pos hb, hb]
    rfl
  · rw [if_neg hb]
    exact foldr_consText hb nofun

/-- A text with blanks behind it has the tokens of the text with blanks behind them. -/
theorem scan_append_blanks {inQuote : Bool} {s b : List Char} {tokens' : List Token}
    (hb : Text.allBlank b = true) (h : Token.scan inQuote (s ++ b) = some tokens') :
    ∃ tokens, Token.scan inQuote s = some tokens ∧ BlankBehind tokens tokens' := by
  induction s generalizing inQuote tokens' with
  | nil =>
    have hscan : Token.scan inQuote (b ++ [])
        = (Token.scan inQuote []).map fun tokens => b.foldr Token.consText tokens :=
      scan_blanks_append hb []
    rw [List.append_nil] at hscan
    rw [List.nil_append, hscan] at h
    obtain ⟨tokens, htokens, rfl⟩ := Option.map_eq_some_iff.1 h
    obtain rfl : tokens = [] := by
      rw [Token.scan] at htokens
      split at htokens
      · cases htokens
      · exact (Option.some.inj htokens).symm
    refine ⟨[], htokens, ?_⟩
    rw [foldr_consText_nil]
    split
    · exact .nil
    · exact .new hb
  | cons c rest ih =>
    simp only [List.cons_append, Token.scan] at h ⊢
    split at h
    · obtain ⟨ts', hts', rfl⟩ := Option.map_eq_some_iff.1 h
      obtain ⟨ts, hts, hblank⟩ := ih hts'
      exact ⟨_, by rw [hts]; rfl, .cons _ hblank⟩
    · obtain ⟨ts', hts', rfl⟩ := Option.map_eq_some_iff.1 h
      obtain ⟨ts, hts, hblank⟩ := ih hts'
      exact ⟨_, by rw [hts]; rfl, hblank.consText c⟩

/-! ## Blanks around a text do not change its items -/

/-- Where an option ends before the text does, blanks behind the text stay behind what is left. -/
theorem BlankBehind.takeOption {tokens tokens' : List Token} (h : BlankBehind tokens tokens')
    {depth : Nat} {t : Token} {rest' : List Token}
    (hrest' : (takeOption depth tokens').2 = t :: rest') :
    ∃ rest, takeOption depth tokens = ((takeOption depth tokens').1, t :: rest) ∧
      BlankBehind rest rest' := by
  induction h generalizing depth with
  | nil => cases hrest'
  | new hb => cases hrest'
  | last chars hb => cases hrest'
  | @cons u tokens tokens' h ih =>
    cases u with
    | closing | semicolon =>
      simp only [Expand.takeOption] at hrest' ⊢
      split at hrest'
      · next hdepth =>
        cases hrest'
        exact ⟨tokens, by simp only [if_pos hdepth], h⟩
      · next hdepth =>
        obtain ⟨rest, htake, hblank⟩ := ih hrest'
        exact ⟨rest, by simp only [if_neg hdepth, htake], hblank⟩
    | opening | comma | text =>
      simp only [Expand.takeOption] at hrest' ⊢
      obtain ⟨rest, htake, hblank⟩ := ih hrest'
      exact ⟨rest, by rw [htake], hblank⟩

theorem BlankBehind.readOptions {tokens tokens' : List Token} (h : BlankBehind tokens tokens')
    {options : List (String × String)} {rest' : List Token}
    (hread : Expand.readOptions tokens' = .ok (options, rest')) :
    ∃ rest, Expand.readOptions tokens = .ok (options, rest) ∧ BlankBehind rest rest' := by
  obtain ⟨option, hoption, ⟨hrest', rfl⟩ | ⟨later', more, hrest', hmore, rfl⟩⟩ :=
    readOptions_eq_ok_iff.1 hread
  · obtain ⟨rest, htake, hblank⟩ := h.takeOption hrest'
    refine ⟨rest, readOptions_eq_ok_iff.2 ⟨options, ?_, .inl ⟨?_, rfl⟩⟩, hblank⟩
    · rw [htake, hoption]
    · rw [htake]
  · obtain ⟨later, htake, hlater⟩ := h.takeOption hrest'
    obtain ⟨rest, hrest, hblank⟩ := hlater.readOptions hmore
    refine ⟨rest, readOptions_eq_ok_iff.2 ⟨option, ?_, .inr ⟨later, more, ?_, hrest, rfl⟩⟩, hblank⟩
    · rw [htake, hoption]
    · rw [htake]
termination_by tokens'.length
decreasing_by
  have := length_takeOption_le 0 tokens'
  rw [hrest', List.length_cons] at this
  omega

theorem readName_congr {chars chars' : List Char} (h : Text.trim chars = Text.trim chars') :
    readName chars = readName chars' := by
  simp only [readName, h]

theorem BlankBehind.readItem {tokens tokens' : List Token} (h : BlankBehind tokens tokens')
    {item : ExpandItem} {rest' : List Token} (hread : Expand.readItem tokens' = .ok (item, rest')) :
    ∃ rest, Expand.readItem tokens = .ok (item, rest) ∧ BlankBehind rest rest' := by
  obtain ⟨chars', after', name, rfl, hname, hproperty, hafter'⟩ := readItem_eq_ok_iff.1 hread
  cases h with
  | new hb =>
    -- the only token is blank, and that is no name
    rw [readName, Text.trim_eq_nil_iff.2 hb] at hname
    cases hname
  | last chars hb =>
    obtain ⟨inside, hinside, -⟩ | ⟨-, hnone, rfl⟩ := hafter'
    · cases hinside
    · rw [readName_congr (Text.trim_append_right hb)] at hname
      exact ⟨[], readItem_eq_ok_iff.2 ⟨chars, [], name, rfl, hname, hproperty,
        .inr ⟨by simp, hnone, rfl⟩⟩, .nil⟩
  | @cons _ after _ h =>
    obtain ⟨inside', rfl, hoptions⟩ | ⟨hopening, hnone, rfl⟩ := hafter'
    · cases h with
      | cons _ h =>
        obtain ⟨rest, hrest, hblank⟩ := h.readOptions hoptions
        exact ⟨rest, readItem_eq_ok_iff.2 ⟨chars', _, name, rfl, hname, hproperty,
          .inl ⟨_, rfl, hrest⟩⟩, hblank⟩
    · refine ⟨after, readItem_eq_ok_iff.2 ⟨chars', after, name, rfl, hname, hproperty,
        .inr ⟨?_, hnone, rfl⟩⟩, h⟩
      rintro inside rfl
      cases h with
      | cons _ h => exact hopening _ rfl

theorem length_le_of_readOptions {tokens rest : List Token} {options : List (String × String)}
    (h : Expand.readOptions tokens = .ok (options, rest)) : rest.length ≤ tokens.length := by
  have htake := length_takeOption_le 0 tokens
  obtain ⟨option, -, ⟨hrest, rfl⟩ | ⟨later, more, hrest, hmore, rfl⟩⟩ := readOptions_eq_ok_iff.1 h
  · rw [hrest, List.length_cons] at htake
    omega
  · rw [hrest, List.length_cons] at htake
    have := length_le_of_readOptions hmore
    omega
termination_by tokens.length
decreasing_by
  rw [hrest, List.length_cons] at htake
  omega

/-- An item takes up at least one token. -/
theorem length_rest_lt_of_readItem {tokens rest : List Token} {item : ExpandItem}
    (h : Expand.readItem tokens = .ok (item, rest)) : rest.length < tokens.length := by
  obtain ⟨chars, after, name, rfl, -, -, ⟨inside, rfl, hoptions⟩ | ⟨-, -, rfl⟩⟩ :=
    readItem_eq_ok_iff.1 h
  · have := length_le_of_readOptions hoptions
    simp only [List.length_cons]
    omega
  · simp

/-- Blank tokens are skipped together with the blanks behind the text. -/
theorem BlankBehind.dropWhile {tokens tokens' : List Token} (h : BlankBehind tokens tokens') :
    BlankBehind (tokens.dropWhile Token.isBlank) (tokens'.dropWhile Token.isBlank) := by
  induction h with
  | nil => exact .nil
  | new hb =>
    rw [List.dropWhile_cons_of_pos (by simpa [Token.isBlank] using hb)]
    exact .nil
  | @last chars b hb =>
    have hsame : Token.isBlank (.text (chars ++ b)) = Token.isBlank (.text chars) := by
      simp only [Token.isBlank, Text.allBlank, List.all_append] at hb ⊢
      rw [hb, Bool.and_true]
    rw [List.dropWhile_cons, List.dropWhile_cons, hsame]
    split
    · exact .nil
    · exact .last chars hb
  | cons t h ih =>
    rw [List.dropWhile_cons, List.dropWhile_cons]
    split
    · exact ih
    · exact .cons t h

/-- Blanks behind a text do not change its items. The fuel suffices as soon as it exceeds the number
of tokens. -/
theorem BlankBehind.readItems {total total' fuel fuel' : Nat} {tokens tokens' : List Token}
    (h : BlankBehind tokens tokens') (hfuel : tokens.length < fuel) {items : List ExpandItem}
    (hread : Expand.readItems total' fuel' tokens' = .ok items) :
    Expand.readItems total fuel tokens = .ok items := by
  induction fuel' generalizing fuel tokens tokens' items with
  | zero => cases hread
  | succ fuel' ih =>
    obtain ⟨fuel, rfl⟩ : ∃ n, fuel = n + 1 := ⟨fuel - 1, by omega⟩
    obtain ⟨item, rest', hitem', hrest'⟩ := readItems_eq_ok_iff.1 hread
    obtain ⟨rest, hitem, hblank⟩ := h.readItem hitem'
    have hskip := hblank.dropWhile
    refine readItems_eq_ok_iff.2 ⟨item, rest, hitem, ?_⟩
    generalize hdrop : rest.dropWhile Token.isBlank = dropped at hskip
    rcases hrest' with ⟨hend, rfl⟩ | ⟨after', more, hafter', hmore, rfl⟩
    · rw [hend] at hskip
      left
      cases hskip
      exact ⟨rfl, rfl⟩
    · rw [hafter'] at hskip
      right
      have hlt := length_rest_lt_of_readItem hitem
      cases hskip with
      | @cons _ after _ hbehind =>
        have hsub := (List.dropWhile_sublist (l := rest) Token.isBlank).length_le
        rw [hdrop, List.length_cons] at hsub
        exact ⟨after, more, rfl, ih hbehind (by omega) hmore, rfl⟩

/-- A blank in front of a text does not change its items. -/
theorem readItems_consText {total fuel : Nat} {c : Char} (hc : Text.isBlank c = true)
    {tokens : List Token} {items : List ExpandItem}
    (h : Expand.readItems total fuel (Token.consText c tokens) = .ok items) :
    Expand.readItems total fuel tokens = .ok items := by
  have hblank : Text.allBlank [c] = true := by simpa [Text.allBlank] using hc
  cases fuel with
  | zero => cases h
  | succ fuel =>
    obtain ⟨item, rest, hitem, hrest⟩ := readItems_eq_ok_iff.1 h
    refine readItems_eq_ok_iff.2 ⟨item, rest, ?_, hrest⟩
    obtain ⟨chars, after, name, htokens, hname, hproperty, hafter⟩ := readItem_eq_ok_iff.1 hitem
    -- if the blank made a token of its own, that would be the name
    have hnew : chars ≠ [c] := by
      rintro rfl
      rw [readName, Text.trim_eq_nil_iff.2 hblank] at hname
      cases hname
    cases tokens with
    | nil =>
      cases htokens
      exact absurd rfl hnew
    | cons t tokens =>
      cases t with
      | text chars' =>
        cases htokens
        have htrim : Text.trim (c :: chars') = Text.trim chars' :=
          Text.trim_append_left (b := [c]) hblank
        rw [readName_congr htrim] at hname
        exact readItem_eq_ok_iff.2 ⟨chars', _, name, rfl, hname, hproperty, hafter⟩
      | _ =>
        cases htokens
        exact absurd rfl hnew

/-- Blanks in front of a text do not change its items. -/
theorem readItems_blanks {total fuel : Nat} {b : List Char} (hb : Text.allBlank b = true)
    {tokens : List Token} {items : List ExpandItem}
    (h : Expand.readItems total fuel (b.foldr Token.consText tokens) = .ok items) :
    Expand.readItems total fuel tokens = .ok items := by
  induction b with
  | nil => exact h
  | cons c b ih =>
    simp only [Text.allBlank, List.all_cons, Bool.and_eq_true] at hb ih
    exact ih hb.2 (readItems_consText hb.1 h)

/-- Trimming an expand text keeps its items. -/
theorem parse_trimmed {s : String} {items : List ExpandItem} (h : parse s = .ok items) :
    parse (Text.trimmed s) = .ok items := by
  suffices hread : readText (Text.trimmed s) = .ok items by rw [parse, hread]
  have hread : readText s = .ok items := by
    unfold parse at h
    split at h
    · cases h; assumption
    · cases h
  unfold readText at hread ⊢
  rw [Text.isAllBlank_trimmed]
  split at hread
  · next hall => rw [if_pos hall, hread]
  · next hall =>
    rw [if_neg hall]
    split at hread
    · cases hread
    · next tokens' hscan' =>
      -- first the blanks in front are taken off, then those behind
      obtain ⟨b, b', hb, hb', hs⟩ := Text.exists_eq_trim s.toList
      rw [hs, List.append_assoc, scan_blanks_append hb] at hscan'
      obtain ⟨tokens, hscan, rfl⟩ := Option.map_eq_some_iff.1 hscan'
      obtain ⟨trimmed, htrimmed, hbehind⟩ := scan_append_blanks hb' hscan
      rw [Text.trimmed, String.toList_ofList, htrimmed]
      exact hbehind.readItems (Nat.lt_succ_self _) (readItems_blanks hb hread)

end ODataEngine.Expand
