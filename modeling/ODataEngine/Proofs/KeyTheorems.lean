import ODataEngine.Proofs.LiteralTheorems
import ODataEngine.Proofs.SchemaTheorems
import ODataEngine.Route.Key

/-!
# Keys read back from paths

A key that was read from a literal is written by `EdmType.keyLiteral` in one of two forms
(`IsLiteral`), and a path may hold that text bare or behind the name of the key (`WritesKey`). Both
are taken off whole by `splitKey`, whatever delimiters stand between the quotes, and read back by
`readKey` as the key (`readKey_of_writesKey`). `SpellsKey` holds of all texts of which that is so.
-/

namespace ODataEngine.Route

/-- A literal as it stands in a path, with what is inside: a text between quotes, each of its own
quotes doubled, or bare characters. -/
inductive IsLiteral : List Char → List Char → Prop
  | quoted (inner : List Char) : IsLiteral ('\'' :: (Text.doubleQuotes inner ++ ['\''])) inner
  | bare {inner : List Char} (hne : inner ≠ []) (h : ∀ c ∈ inner, Text.isBare c = true) :
    IsLiteral inner inner

/-- The texts between the parentheses that write a literal: the literal, or the name of the key in
any case, an equals sign and the literal, with blanks around each of them. -/
inductive WritesKey (e : EntityType) (literal : List Char) : List Char → Prop
  | bare : WritesKey e literal literal
  | named {name : String} {b₁ b₂ b₃ b₄ : List Char} (hname : Text.sameName name e.key = true)
      (h₁ : Text.allBlank b₁ = true) (h₂ : Text.allBlank b₂ = true)
      (h₃ : Text.allBlank b₃ = true) (h₄ : Text.allBlank b₄ = true) :
    WritesKey e literal (b₁ ++ name.toList ++ b₂ ++ '=' :: (b₃ ++ literal ++ b₄))

/-- The literal of a key that was read from a literal holds the text of the key. -/
theorem isLiteral_keyLiteral {t : EdmType} (ht : t.isFloating = false) {raw : String} {v : Json}
    (h : t.coerce raw = .ok v) : IsLiteral (t.keyLiteral v).toList (EdmType.keyText v) := by
  unfold EdmType.keyLiteral
  cases hquoted : t.isQuoted with
  | true =>
    rw [if_pos rfl, String.toList_ofList]
    exact .quoted _
  | false =>
    obtain ⟨hne, hplain⟩ := EdmType.isPlain_keyText ht hquoted h
    rw [if_neg Bool.false_ne_true, String.toList_ofList]
    exact .bare hne fun c hc => Text.isBare_of_isPlain (hplain c hc)

/-! ## Where a key ends -/

/-- Text without quotes and closing parentheses is passed over. -/
theorem splitKey_append {s : List Char} (h : ∀ c ∈ s, c ≠ ')' ∧ c ≠ '\'') (inQuote : Bool)
    (rest : List Char) :
    splitKey inQuote (s ++ rest) = (splitKey inQuote rest).map fun p => (s ++ p.1, p.2) := by
  induction s with
  | nil => simp
  | cons c s ih =>
    obtain ⟨⟨hclosing, hquote⟩, hs⟩ := List.forall_mem_cons.1 h
    have hkeep : (inQuote != (c == '\'')) = inQuote := by
      rw [beq_eq_false_iff_ne.2 hquote, Bool.bne_false]
    have hopen : ¬ (decide (c = ')') && !inQuote) = true := by simp [hclosing]
    rw [List.cons_append, splitKey, if_neg hopen, hkeep, ih hs, Option.map_map]
    rfl

/-- A key is the text before a closing parenthesis, at which the quotes are closed, whatever stands
behind it. -/
theorem splitKey_spec {inQuote : Bool} {s text after : List Char}
    (h : splitKey inQuote s = some (text, after)) :
    s = text ++ ')' :: after ∧ text.count '\'' % 2 = inQuote.toNat ∧
      ∀ after', splitKey inQuote (text ++ ')' :: after') = some (text, after') := by
  induction s generalizing inQuote text with
  | nil => cases h
  | cons c rest ih =>
    rw [splitKey] at h
    split at h
    · next hclosing =>
      cases h
      rw [Bool.and_eq_true, decide_eq_true_eq, Bool.not_eq_true'] at hclosing
      obtain ⟨rfl, rfl⟩ := hclosing
      exact ⟨rfl, rfl, fun _ => rfl⟩
    · next hpassed =>
      obtain ⟨⟨key, after'⟩, hkey, hparts⟩ := Option.map_eq_some_iff.1 h
      cases hparts
      obtain ⟨rfl, hcount, hany⟩ := ih hkey
      refine ⟨rfl, ?_, fun after' => ?_⟩
      · rw [List.count_cons]
        cases inQuote <;> cases hquote : c == '\'' <;> simp [hquote] at hcount ⊢ <;> omega
      · rw [List.cons_append, splitKey, if_neg hpassed, hany]
        rfl

/-- Between quotes everything is passed over: a doubled quote leaves the quotes and enters them
again at once. -/
theorem splitKey_doubleQuotes (s rest : List Char) :
    splitKey true (Text.doubleQuotes s ++ '\'' :: rest) = (splitKey false rest).map
      fun p => (Text.doubleQuotes s ++ '\'' :: p.1, p.2) := by
  induction s with
  | nil => simp [Text.doubleQuotes, splitKey]
  | cons c s ih =>
    by_cases hc : c = '\''
    · simp [Text.doubleQuotes, splitKey, hc, ih, Function.comp_def]
    · have hquote : (c == '\'') = false := by simpa using hc
      simp [Text.doubleQuotes, splitKey, hc, hquote, ih, Function.comp_def]

/-- What begins with a quote is not taken for the name of a key. -/
theorem unnamed_of_quote (e : EntityType) (rest : List Char) :
    unnamed e ('\'' :: rest) = .ok ('\'' :: rest) := by
  unfold unnamed
  split
  · next name value hcut =>
    obtain ⟨name, rfl⟩ : ∃ rest, name = '\'' :: rest := by
      have htext := Text.eq_of_cutAtFirst hcut
      cases name with
      | nil => cases htext
      | cons c rest => exact ⟨rest, by rw [(List.cons.inj htext).1]⟩
    rfl
  · rfl

namespace IsLiteral

variable {literal inner : List Char} (h : IsLiteral literal inner)

include h

theorem splitKey_append (rest : List Char) :
    splitKey false (literal ++ rest)
      = (splitKey false rest).map fun p => (literal ++ p.1, p.2) := by
  cases h with
  | quoted =>
    have hquotes := splitKey_doubleQuotes inner rest
    simp [splitKey, hquotes, Function.comp_def]
  | bare hne hbare =>
    apply Route.splitKey_append
    intro c hc
    have hc := hbare c hc
    constructor
    · rintro rfl
      cases hc
    · rintro rfl
      cases hc

theorem ne_nil : literal ≠ [] := by
  cases h with
  | quoted => exact List.cons_ne_nil _ _
  | bare hne => exact hne

theorem isBlank_head {c : Char} (hc : literal.head? = some c) : Text.isBlank c = false := by
  cases h with
  | quoted =>
    cases hc
    rfl
  | bare _ hbare => exact Text.not_isBlank_of_isBare (hbare c (List.mem_of_mem_head? hc))

theorem isBlank_last {c : Char} (hc : literal.getLast? = some c) : Text.isBlank c = false := by
  cases h with
  | quoted =>
    rw [← List.cons_append, List.getLast?_concat] at hc
    cases hc
    rfl
  | bare _ hbare => exact Text.not_isBlank_of_isBare (hbare c (List.mem_of_getLast? hc))

theorem trim_eq : Text.trim literal = literal :=
  Text.trim_eq_self (fun _ => h.isBlank_head) (fun _ => h.isBlank_last)

/-- The quotes are taken off again. -/
theorem unquoted_eq : unquoted literal = .ok inner := by
  cases h with
  | quoted =>
    rw [unquoted, Text.beforeEnd?_append]
    simp only [Text.undoubleQuotes_doubleQuotes]
  | bare hne hbare =>
    unfold unquoted
    split
    · have hquote := hbare _ List.mem_cons_self
      cases hquote
    · rfl

/-- A literal is not taken for the name of a key. -/
theorem unnamed_eq (e : EntityType) : unnamed e literal = .ok literal := by
  cases h with
  | quoted => exact unnamed_of_quote e _
  | bare hne hbare =>
    unfold unnamed
    split
    · next name value hcut =>
      have hsign := hbare '=' (by rw [Text.eq_of_cutAtFirst hcut]; simp)
      cases hsign
    · rfl

end IsLiteral

/-! ## Reading keys -/

section

variable {e : EntityType} (hkey : Draft.IsClean e.key) {literal inner text : List Char}
  (hliteral : IsLiteral literal inner) (h : WritesKey e literal text)

include hkey hliteral h

/-- The text of a key ends at the parenthesis behind it. -/
theorem splitKey_of_writesKey (after : List Char) :
    splitKey false (text ++ ')' :: after) = some (text, after) := by
  have hend : splitKey false (')' :: after) = some ([], after) := by simp [splitKey]
  cases h with
  | bare =>
    rw [hliteral.splitKey_append, hend, Option.map_some, List.append_nil]
  | @named name b₁ b₂ b₃ b₄ hname h₁ h₂ h₃ h₄ =>
    have hclean := hkey.of_sameName hname
    have hblank : ∀ {b : List Char}, Text.allBlank b = true → ∀ c ∈ b, c ≠ ')' ∧ c ≠ '\'' := by
      intro b hb c hc
      have hc := Text.allBlank_iff.1 hb c hc
      refine ⟨?_, ?_⟩ <;> rintro rfl <;> cases hc
    have hfront : ∀ c ∈ b₁ ++ name.toList ++ b₂ ++ '=' :: b₃, c ≠ ')' ∧ c ≠ '\'' := by
      simp only [List.forall_mem_append, List.forall_mem_cons]
      have hname : ∀ c ∈ name.toList, c ≠ ')' ∧ c ≠ '\'' :=
        fun c hc => ⟨hclean.ne_of_mem (by decide) hc, hclean.ne_of_mem (by decide) hc⟩
      exact ⟨⟨⟨hblank h₁, hname⟩, hblank h₂⟩, by decide, hblank h₃⟩
    have hsplit : b₁ ++ name.toList ++ b₂ ++ '=' :: (b₃ ++ literal ++ b₄) ++ ')' :: after
        = (b₁ ++ name.toList ++ b₂ ++ '=' :: b₃) ++ (literal ++ (b₄ ++ ')' :: after)) := by
      simp
    rw [hsplit, splitKey_append hfront, hliteral.splitKey_append, splitKey_append (hblank h₄), hend]
    simp

/-- The name of the key and the blanks are taken off. -/
theorem unnamed_of_writesKey : unnamed e (Text.trim text) = .ok literal := by
  cases h with
  | bare => rw [hliteral.trim_eq, hliteral.unnamed_eq]
  | @named name b₁ b₂ b₃ b₄ hname h₁ h₂ h₃ h₄ =>
    have hclean := hkey.of_sameName hname
    have hhead : ∀ c, name.toList.head? = some c → Text.isBlank c = false :=
      fun c hc => hclean.isBlank_of_mem (List.mem_of_mem_head? hc)
    have hlast : ∀ c, name.toList.getLast? = some c → Text.isBlank c = false :=
      fun c hc => hclean.isBlank_of_mem (List.mem_of_getLast? hc)
    -- the blanks at the ends go, and the name and the literal are what is left there
    have htrim : Text.trim (b₁ ++ name.toList ++ b₂ ++ '=' :: (b₃ ++ literal ++ b₄))
        = name.toList ++ b₂ ++ '=' :: (b₃ ++ literal) := by
      have hsplit : b₁ ++ name.toList ++ b₂ ++ '=' :: (b₃ ++ literal ++ b₄)
          = b₁ ++ (name.toList ++ (b₂ ++ '=' :: b₃) ++ literal) ++ b₄ := by
        simp
      rw [hsplit, Text.trim_append h₁ h₄, Text.trim_between hclean.1 hliteral.ne_nil hhead
        (fun _ => hliteral.isBlank_last)]
      simp
    have hsign : '=' ∉ name.toList ++ b₂ := by
      rw [List.mem_append, not_or]
      refine ⟨fun hmem => hclean.ne_of_mem (by decide) hmem rfl, fun hmem => ?_⟩
      have hblank := Text.allBlank_iff.1 h₂ '=' hmem
      cases hblank
    have hquote : ((Text.trimStart (name.toList ++ b₂)).head? == some '\'') = false := by
      obtain ⟨c, rest, hcons⟩ := List.exists_cons_of_ne_nil hclean.1
      have hmem : c ∈ name.toList := hcons ▸ List.mem_cons_self
      have hc := hclean.isBlank_of_mem hmem
      rw [hcons, List.cons_append, Text.trimStart, List.dropWhile_cons_of_neg (by simp [hc])]
      simpa using hclean.ne_of_mem (by decide) hmem
    have hfound : Text.trim (name.toList ++ b₂) = name.toList := by
      rw [Text.trim_append_right h₂, Text.trim_eq_self hhead hlast]
    have hvalue : Text.trim (b₃ ++ literal) = literal := by
      rw [Text.trim_append_left h₃, hliteral.trim_eq]
    rw [htrim, unnamed, Text.cutAtFirst_append hsign]
    simp only [hquote, hfound, String.ofList_toList, hname, hvalue, Bool.false_eq_true,
      if_false, if_true]

/-- A key is read back from any text that writes its literal. -/
theorem readKey_of_writesKey {v : Json} (hv : e.keyType.coerce (String.ofList inner) = .ok v) :
    readKey e text = .ok v := by
  have hempty : literal.isEmpty = false := by simpa using hliteral.ne_nil
  rw [readKey, unnamed_of_writesKey hkey hliteral h, ok_bind, hempty,
    if_neg Bool.false_ne_true, hliteral.unquoted_eq, ok_bind, hv]

end

/-- The text between the parentheses of a path spells a key: it is taken off whole, and read. -/
structure SpellsKey (e : EntityType) (text : List Char) (v : Json) : Prop where
  whole : splitKey false (text ++ [')']) = some (text, [])
  read : readKey e text = .ok v

/-- The text of a key is taken off whole, whatever stands behind the parenthesis. -/
theorem SpellsKey.splitKey {e : EntityType} {text : List Char} {v : Json} (h : SpellsKey e text v)
    (after : List Char) : Route.splitKey false (text ++ ')' :: after) = some (text, after) :=
  (splitKey_spec h.whole).2.2 after

/-- A text that writes the literal of a key spells the key. -/
theorem WritesKey.spellsKey {e : EntityType} (hkey : Draft.IsClean e.key)
    {literal inner text : List Char} (hliteral : IsLiteral literal inner)
    (h : WritesKey e literal text) {v : Json}
    (hv : e.keyType.coerce (String.ofList inner) = .ok v) : SpellsKey e text v where
  whole := splitKey_of_writesKey hkey hliteral h []
  read := readKey_of_writesKey hkey hliteral h hv

/-- Keys that were read from literals have literals of their own. -/
theorem eq_of_keyLiteral_eq {t : EdmType} (ht : t.isFloating = false) {raw raw' : String}
    {v v' : Json} (hv : t.coerce raw = .ok v) (hv' : t.coerce raw' = .ok v')
    (h : t.keyLiteral v = t.keyLiteral v') : v = v' := by
  have hinner := (isLiteral_keyLiteral ht hv).unquoted_eq
  rw [h, (isLiteral_keyLiteral ht hv').unquoted_eq] at hinner
  have hread := EdmType.coerce_keyText ht hv
  rw [← Except.ok.inj hinner, EdmType.coerce_keyText ht hv'] at hread
  exact (Except.ok.inj hread).symm

end ODataEngine.Route
