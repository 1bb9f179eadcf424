import ODataEngine.Proofs.FilterFormTheorems
import ODataEngine.Proofs.KeyAddressTheorems
import ODataEngine.Proofs.OptionTheorems

/-!
# What filter texts denote

A form denotes a single clause on a field, in the declared spelling of the field: a comparison with
the value that its literal has for the type of the field, or a pattern that is made of the text of a
call (`FilterOption.Form.Denotes`). A filter text is read as what the form that it spells denotes,
and no other text is read at all (`FilterOption.parse_eq_ok_iff_denotes`). That includes the
comparison that spells its literal as a blank: it is read for texts and dates, as a comparison with
that blank.
-/

namespace ODataEngine

/-- A text between quotes, each of its own quotes doubled. -/
def Text.quote (inner : List Char) : List Char := '\'' :: (doubleQuotes inner ++ ['\''])

namespace FilterOption

open ODataEngine.Text

variable {e : EntityType} {t : EdmType} {v : Json}

/-! ## Words of the language -/

/-- The words for comparisons, in lower case. -/
def operatorWords : List (String × Filter.Comparison) :=
  [("eq", .eq), ("ne", .ne), ("gt", .gt), ("ge", .gte), ("gte", .gte), ("lt", .lt), ("le", .lte),
    ("lte", .lte)]

/-- The words for functions, in lower case, with the patterns that they make of an escaped text. -/
def functionWords (escaped : List Char) : List (String × List Char) :=
  [("contains", escaped), ("startswith", '^' :: escaped), ("endswith", escaped ++ ['$'])]

theorem comparisonOf?_eq_some_iff {word : List Char} {c : Filter.Comparison} :
    comparisonOf? word = some c ↔ (String.ofList (lower word), c) ∈ operatorWords := by
  unfold comparisonOf?
  generalize String.ofList (lower word) = w
  constructor
  · intro h
    split at h <;> cases h <;> decide
  · intro h
    simp only [operatorWords, List.mem_cons, List.not_mem_nil, or_false, Prod.mk.injEq] at h
    rcases h with ⟨rfl, rfl⟩ | ⟨rfl, rfl⟩ | ⟨rfl, rfl⟩ | ⟨rfl, rfl⟩ | ⟨rfl, rfl⟩ | ⟨rfl, rfl⟩ |
      ⟨rfl, rfl⟩ | ⟨rfl, rfl⟩ <;> rfl

theorem patternOf?_eq_some_iff {function text source : List Char} :
    patternOf? function text = some source ↔
      (String.ofList (lower function), source) ∈ functionWords (Pattern.escapeText text) := by
  unfold patternOf?
  generalize String.ofList (lower function) = w
  constructor
  · intro h
    split at h <;> cases h <;> simp [functionWords]
  · intro h
    simp only [functionWords, List.mem_cons, List.not_mem_nil, or_false, Prod.mk.injEq] at h
    rcases h with ⟨rfl, rfl⟩ | ⟨rfl, rfl⟩ | ⟨rfl, rfl⟩ <;> rfl

theorem fieldOf_eq_ok_iff {name : List Char} {f : Field} :
    fieldOf e name = .ok f ↔ e.field? (String.ofList name) = some f := by
  unfold fieldOf
  split
  · next g hg => rw [hg, Except.ok.injEq, Option.some.injEq]
  · next hnone => rw [hnone]; simp

/-! ## Literals -/

/-- The literals that have a value for a type, with the value. -/
inductive ReadsAs (t : EdmType) : List Char → Json → Prop
  | quoted {inner : List Char} {v : Json} (hv : t.coerce (String.ofList inner) = .ok v) :
    ReadsAs t (quote inner) v
  | null : ReadsAs t "null".toList .null
  | word {literal : List Char} {v : Json} (hquote : ∀ rest, literal ≠ '\'' :: rest)
      (hword : ∀ c ∈ literal, isBlank c = false) (hnull : literal ≠ "null".toList)
      (hv : t.coerce (String.ofList literal) = .ok v) : ReadsAs t literal v
  /-- A blank is a text, where it stands for a literal. -/
  | blank {c : Char} (hc : isBlank c = true) (hquoted : t.isQuoted = true) (hguid : t ≠ .guid) :
    ReadsAs t [c] (.string (String.ofList [c]))

theorem ReadsAs.accepts {t : EdmType} {literal : List Char} {v : Json} (h : ReadsAs t literal v) :
    t.accepts v = true := by
  cases h with
  | quoted hv => exact EdmType.accepts_of_coerce hv
  | null => rfl
  | word _ _ _ hv => exact EdmType.accepts_of_coerce hv
  | blank _ hquoted => exact hquoted

theorem coerce_blank {c : Char} (hc : isBlank c = true) :
    t.coerce (String.ofList [c]) = .ok v ↔
      t.isQuoted = true ∧ t ≠ .guid ∧ v = .string (String.ofList [c]) := by
  have htrim : trim (String.ofList [c]).toList = [] := by
    rw [String.toList_ofList, trim_eq_nil_iff, allBlank_iff]
    simpa using hc
  generalize String.ofList [c] = raw at htrim ⊢
  cases t with
  | byte | int16 | int32 | int64 =>
    rw [EdmType.coerce_of_isInteger rfl, htrim]
    exact ⟨nofun, fun h => nomatch h.1⟩
  | single | double | decimal =>
    rw [EdmType.coerce_of_isFloating rfl, htrim]
    exact ⟨nofun, fun h => nomatch h.1⟩
  | boolean =>
    rw [EdmType.coerce, htrim]
    exact ⟨nofun, fun h => nomatch h.1⟩
  | guid =>
    rw [EdmType.coerce_guid, htrim]
    exact ⟨nofun, fun h => absurd rfl h.2.1⟩
  | string | date | dateTimeOffset =>
    rw [EdmType.coerce_of_isQuoted rfl (by decide), Except.ok.injEq, eq_comm]
    exact ⟨fun h => ⟨rfl, by decide, h⟩, fun h => h.2.2⟩

/-- Behind a quote the literal must be a quoted text to its end. -/
theorem valueOf_quote_iff {rest : List Char} : valueOf t ('\'' :: rest) = .ok v ↔
    ∃ inner, '\'' :: rest = quote inner ∧ t.coerce (String.ofList inner) = .ok v := by
  rw [valueOf]
  constructor
  · intro h
    split at h
    · next text htext =>
      obtain ⟨inner, rfl, rfl, -⟩ := takeQuoted_eq_some_iff.1 htext
      simp only [undoubleQuotes_doubleQuotes] at h
      split at h
      · next w hw =>
        cases h
        exact ⟨inner, rfl, hw⟩
      · cases h
    · cases h
  · rintro ⟨inner, hquote, hv⟩
    have htake : takeQuoted rest = some (doubleQuotes inner, []) :=
      takeQuoted_eq_some_iff.2 ⟨inner, rfl, (List.cons.inj hquote).2, nofun⟩
    rw [htake]
    simp only [undoubleQuotes_doubleQuotes, hv]

/-- Any other literal must be a single word. -/
theorem valueOf_bare_iff {literal : List Char} (hquote : ∀ rest, literal ≠ '\'' :: rest) :
    valueOf t literal = .ok v ↔ (words literal).length ≤ 1 ∧
      (literal = "null".toList ∧ v = .null ∨
        literal ≠ "null".toList ∧ t.coerce (String.ofList literal) = .ok v) := by
  rw [valueOf.eq_2 t literal hquote]
  by_cases hwords : 1 < (words literal).length
  · rw [if_pos hwords]
    exact ⟨nofun, fun h => absurd hwords (Nat.not_lt_of_le h.1)⟩
  · rw [if_neg hwords, and_iff_right (Nat.le_of_not_lt hwords)]
    by_cases hnull : literal = "null".toList
    · rw [if_pos hnull, or_iff_left fun h => h.1 hnull, and_iff_right hnull, Except.ok.injEq,
        eq_comm]
    · rw [if_neg hnull, or_iff_right fun h => hnull h.1, and_iff_right hnull]
      cases hcoerce : t.coerce (String.ofList literal) <;> simp [hcoerce]

/-- A blank is read as a text, as if it stood between quotes. -/
theorem valueOf_blank_iff {c : Char} (hc : isBlank c = true) :
    valueOf t [c] = .ok v ↔ ReadsAs t [c] v := by
  have hquote : ∀ rest, [c] ≠ '\'' :: rest := by
    rintro rest ⟨⟩
    cases hc
  have hnull : [c] ≠ "null".toList := nofun
  have hwords : (words [c]).length ≤ 1 := by
    have hnone : words [c] = [] := words_append_blank hc [] []
    rw [hnone]
    exact Nat.zero_le 1
  rw [valueOf_bare_iff hquote, and_iff_right hwords, or_iff_right fun h => hnull h.1,
    and_iff_right hnull, coerce_blank hc]
  constructor
  · rintro ⟨hquoted, hguid, rfl⟩
    exact .blank hc hquoted hguid
  · intro h
    generalize hliteral : [c] = literal at h
    cases h with
    | quoted => exact absurd hliteral (hquote _)
    | null => exact absurd hliteral hnull
    | word _ hword =>
      rw [hword c (hliteral ▸ List.mem_cons_self)] at hc
      cases hc
    | blank _ hquoted hguid =>
      cases hliteral
      exact ⟨hquoted, hguid, rfl⟩

/-- A token is read as a quoted text or as a single word. -/
theorem valueOf_token_iff {literal : List Char} (hliteral : IsToken literal) :
    valueOf t literal = .ok v ↔ ReadsAs t literal v := by
  obtain ⟨hne, htrim, -⟩ := hliteral
  by_cases hquote : ∃ rest, literal = '\'' :: rest
  · obtain ⟨rest, rfl⟩ := hquote
    rw [valueOf_quote_iff]
    constructor
    · rintro ⟨inner, hinner, hv⟩
      rw [hinner]
      exact .quoted hv
    · intro h
      generalize hliteral : '\'' :: rest = literal at h
      cases h with
      | @quoted inner _ hv => exact ⟨inner, rfl, hv⟩
      | null => cases hliteral
      | word hquote => exact absurd hliteral.symm (hquote rest)
      | blank hc =>
        cases hliteral
        cases hc
  · rw [not_exists] at hquote
    rw [valueOf_bare_iff hquote, length_words_le_one_iff hne htrim]
    constructor
    · rintro ⟨hword, ⟨rfl, rfl⟩ | ⟨hnull, hv⟩⟩
      · exact .null
      · exact .word hquote hword hnull hv
    · intro h
      cases h with
      | quoted => exact absurd rfl (hquote _)
      | null =>
        have hletters : "null".toList.all isLetter = true := rfl
        refine ⟨fun c hc => ?_, .inl ⟨rfl, rfl⟩⟩
        have hletter := List.all_eq_true.1 hletters c hc
        exact not_isBlank_of_isIdentifierRest (isIdentifierRest_of_isLetter hletter)
      | word _ hword hnull hv => exact ⟨hword, .inr ⟨hnull, hv⟩⟩
      | blank hc =>
        -- trimming would leave nothing of it
        rw [trim_eq_nil_iff.2 (allBlank_iff.2 (List.forall_mem_singleton.2 hc))] at htrim
        cases htrim

/-! ## Forms -/

/-- The predicate of a form: one clause on a field of the entity type. -/
inductive Form.Denotes (e : EntityType) : Form → Predicate → Prop
  | comparison {name operator literal : List Char} {f : Field} {c : Filter.Comparison} {v : Json}
      (hf : e.field? (String.ofList name) = some f)
      (hc : (String.ofList (lower operator), c) ∈ operatorWords)
      (hv : ReadsAs f.type literal v) :
    Denotes e (.comparison name operator literal) (.field f.name (.compare c v))
  | call {function name inner source : List Char} {f : Field} {r : Regex}
      (hf : e.field? (String.ofList name) = some f)
      (hsource : (String.ofList (lower function), source) ∈
        functionWords (Pattern.escapeText inner))
      (hr : Regex.ofSource? (String.ofList source) = some r) :
    Denotes e (.call function name (doubleQuotes inner)) (.field f.name (.regex r))

/-- A form denotes one clause on a declared field, with values of the type of the field. -/
theorem Form.Denotes.exists_clause {form : Form} {p : Predicate} (h : form.Denotes e p) :
    ∃ name f clause, e.field? name = some f ∧ p = .field f.name clause ∧
      ∀ v ∈ clause.values, f.type.accepts v = true := by
  cases h with
  | @comparison _ _ _ f c v hf _ hv =>
    refine ⟨_, f, .compare c v, hf, rfl, ?_⟩
    intro w hw
    rw [List.mem_singleton.1 hw]
    exact hv.accepts
  | @call _ _ _ _ f r hf => exact ⟨_, f, .regex r, hf, rfl, nofun⟩

theorem make_regex_eq_ok_iff {source : String} {clause : Filter.Clause} :
    Filter.Clause.make .regex (.string source) = .ok clause ↔
      ∃ r, Regex.ofSource? source = some r ∧ clause = .regex r := by
  simp only [Filter.Clause.make]
  cases Regex.ofSource? source with
  | none => simp
  | some r => simp [eq_comm]

theorem comparison_predicate_eq_ok_iff {name operator literal : List Char} {p : Predicate}
    (hvalue : ∀ t v, valueOf t literal = .ok v ↔ ReadsAs t literal v) :
    (Form.comparison name operator literal).predicate e = .ok p ↔
      Form.Denotes e (.comparison name operator literal) p := by
  constructor
  · intro h
    obtain ⟨f, hf, h⟩ := bind_eq_ok_iff.1 h
    split at h
    · cases h
    · next c hc =>
      obtain ⟨v, hv, h⟩ := bind_eq_ok_iff.1 h
      cases h
      exact .comparison (fieldOf_eq_ok_iff.1 hf) (comparisonOf?_eq_some_iff.1 hc)
        ((hvalue f.type v).1 hv)
  · intro h
    cases h with
    | comparison hf hc hv =>
      rw [Form.predicate, fieldOf_eq_ok_iff.2 hf, ok_bind, comparisonOf?_eq_some_iff.2 hc]
      simp only []
      rw [(hvalue _ _).2 hv, ok_bind]

theorem call_predicate_eq_ok_iff {function name inner : List Char} {p : Predicate} :
    (Form.call function name (doubleQuotes inner)).predicate e = .ok p ↔
      Form.Denotes e (.call function name (doubleQuotes inner)) p := by
  constructor
  · intro h
    obtain ⟨f, hf, h⟩ := bind_eq_ok_iff.1 h
    rw [undoubleQuotes_doubleQuotes] at h
    split at h
    · cases h
    · next source hsource =>
      split at h
      · next clause hclause =>
        cases h
        obtain ⟨r, hr, rfl⟩ := make_regex_eq_ok_iff.1 hclause
        exact .call (fieldOf_eq_ok_iff.1 hf) (patternOf?_eq_some_iff.1 hsource) hr
      · cases h
  · intro h
    generalize htext : doubleQuotes inner = text at h
    cases h with
    | @call _ _ inner' source f r hf hsource hr =>
      have hinner : inner = inner' := by
        rw [← undoubleQuotes_doubleQuotes inner, htext, undoubleQuotes_doubleQuotes]
      subst hinner
      rw [Form.predicate, fieldOf_eq_ok_iff.2 hf, ok_bind, undoubleQuotes_doubleQuotes,
        patternOf?_eq_some_iff.2 hsource]
      simp only []
      rw [make_regex_eq_ok_iff.2 ⟨r, hr, rfl⟩]

/-- A form that is spelled by some text has the predicate that it denotes. -/
theorem predicate_eq_ok_iff {form : Form} {s : List Char} (hspells : form.Spells s)
    {p : Predicate} : form.predicate e = .ok p ↔ form.Denotes e p := by
  cases hspells with
  | comparison _ _ hliteral =>
    exact comparison_predicate_eq_ok_iff fun _ _ => valueOf_token_iff hliteral
  | blankLiteral _ _ hblank =>
    exact comparison_predicate_eq_ok_iff fun _ _ => valueOf_blank_iff hblank
  | call => exact call_predicate_eq_ok_iff

/-- A text with a name in it is not blank. -/
theorem not_allBlank_of_isIdentifier {name s : List Char} (hname : IsIdentifier name)
    (hmem : ∀ c ∈ name, c ∈ s) : allBlank s = false := by
  obtain ⟨hne, hrest⟩ := isRun_of_isIdentifier hname
  obtain ⟨c, name, rfl⟩ := List.exists_cons_of_ne_nil hne
  have hc := not_isBlank_of_isIdentifierRest (hrest c List.mem_cons_self)
  rw [Bool.eq_false_iff, Ne, allBlank_iff]
  intro hblank
  rw [hblank c (hmem c List.mem_cons_self)] at hc
  cases hc

theorem Form.Spells.not_allBlank {form : Form} {s : List Char} (h : form.Spells s) :
    allBlank s = false := by
  cases h with
  | comparison hname => exact not_allBlank_of_isIdentifier hname fun c hc => by simp [hc]
  | blankLiteral hname => exact not_allBlank_of_isIdentifier hname fun c hc => by simp [hc]
  | call _ hname => exact not_allBlank_of_isIdentifier hname fun c hc => by simp [hc]

/-- A text is read as what the form that it spells denotes. -/
theorem read_eq_ok_iff {text : String} {p : Predicate} :
    read e text = .ok p ↔ ∃ form : Form, form.Spells text.toList ∧ form.Denotes e p := by
  unfold read
  constructor
  · intro h
    split at h
    · cases h
    · split at h
      · next form hform =>
        have hspells := readForm?_eq_some_iff.1 hform
        exact ⟨form, hspells, (predicate_eq_ok_iff hspells).1 h⟩
      · cases h
  · rintro ⟨form, hspells, hdenotes⟩
    have hblank : isAllBlank text = false := hspells.not_allBlank
    rw [if_neg (Bool.eq_false_iff.1 hblank), readForm?_eq_some_iff.2 hspells]
    exact (predicate_eq_ok_iff hspells).2 hdenotes

/-- A text of known form is accepted just if it is not too long and the form denotes something. -/
theorem parse_eq_ok_iff_of_spells {limits : QueryLimits} {text : String} {form : Form}
    (hspells : form.Spells text.toList) {p : Predicate} : parse limits e text = .ok p ↔
      text.utf8ByteSize ≤ limits.maxFilterLength ∧ form.Denotes e p := by
  rw [parse_eq_ok_iff, read_eq_ok_iff]
  constructor
  · intro h
    obtain ⟨hsize, form', hspells', hdenotes⟩ := h
    rw [hspells.unique hspells']
    exact ⟨hsize, hdenotes⟩
  · intro h
    exact ⟨h.1, form, hspells, h.2⟩

/-- A filter is accepted just if its text is not too long and spells a form that denotes a predicate
for the entity type, and the result is that predicate. Any other text is refused with a failure that
carries it unchanged. -/
theorem parse_eq_ok_iff_denotes (limits : QueryLimits) (e : EntityType) (text : String) :
    (∀ p, parse limits e text = .ok p ↔ text.utf8ByteSize ≤ limits.maxFilterLength ∧
      ∃ form : Form, form.Spells text.toList ∧ form.Denotes e p) ∧
    ∀ err, parse limits e text = .error err → ∃ reason, err = .invalidFilter text reason := by
  refine ⟨fun p => ?_, fun err h => ?_⟩
  · rw [parse_eq_ok_iff, read_eq_ok_iff]
  · unfold parse QueryLimits.checkFilter at h
    split at h
    · cases h
      exact ⟨_, rfl⟩
    · rw [ok_bind] at h
      split at h
      · cases h
      · cases h
        exact ⟨_, rfl⟩

end FilterOption

namespace Library

/-- A name and an operator are accepted with nothing but two blanks behind them, and the second
blank is what the name is compared with. -/
theorem name_eq_blanks :
    FilterOption.parse {} authors.entity "name eq  " =
        .ok (.field "Name" (.compare .eq (.string " "))) ∧
      Text.words "name eq  ".toList = ["name".toList, "eq".toList] ∧
      ∀ form : FilterOption.Form, form.Spells "name eq  ".toList →
        form = .comparison "name".toList "eq".toList [' '] := by
  refine ⟨by with_unfolding_all rfl, by decide +kernel, ?_⟩
  intro form h
  have hread : FilterOption.readForm? "name eq  ".toList =
      some (.comparison "name".toList "eq".toList [' ']) := by decide +kernel
  rw [FilterOption.readForm?_eq_some_iff.2 h] at hread
  exact Option.some.inj hread

end Library

end ODataEngine
