import ODataEngine.Proofs.FilterTextTheorems
import ODataEngine.Proofs.PredicateTheorems
import ODataEngine.Proofs.StoreTheorems

/-!
# Values in filters

Two questions about the value in a comparison. Which texts can a filter ask for? Any text of a
single line: it stands between quotes, with its own quotes doubled, and the field is compared with
just that text (`FilterOption.parse_comparison_quote`). A text with a line break is refused there,
though a call takes it. Does an accepted filter fit the declared types? Every value does, since it
was read as the type of its field, but nothing keeps a filter from comparing truth values by order
(`FilterOption.validate_of_parse`).
-/

namespace ODataEngine

variable {limits : QueryLimits} {e : EntityType}

/-! ## Texts between quotes -/

namespace FilterOption

open ODataEngine.Text

/-- The text of a comparison with one blank on either side of its operator. -/
def comparisonText (name operator literal : List Char) : List Char :=
  name ++ ([' '] ++ (operator ++ ([' '] ++ literal)))

theorem mem_doubleQuotes_iff {c : Char} {s : List Char} : c ∈ doubleQuotes s ↔ c ∈ s := by
  induction s with
  | nil => rfl
  | cons d s ih =>
    unfold doubleQuotes
    split
    · next hd =>
      rw [hd, List.mem_cons, List.mem_cons, List.mem_cons, ih, ← or_assoc, or_self]
    · rw [List.mem_cons, List.mem_cons, ih]

/-- No blank at either end, whatever is quoted. -/
theorem trim_quote (s : List Char) : trim (quote s) = quote s := by
  apply trim_eq_self
  · intro c hc
    cases hc
    rfl
  · intro c hc
    rw [quote, ← List.cons_append, List.getLast?_append] at hc
    cases hc
    rfl

/-- A quoted text is a literal unless it crosses the end of a line. -/
theorem isToken_quote_iff {s : List Char} : IsToken (quote s) ↔ '\n' ∉ s := by
  have hmem : '\n' ∈ quote s ↔ '\n' ∈ s := by
    rw [quote, List.mem_cons, List.mem_append, mem_doubleQuotes_iff]
    simp
  have hne : quote s ≠ [] := List.cons_ne_nil _ _
  rw [IsToken, hmem, trim_quote, and_iff_right hne, and_iff_right rfl]

/-- Every operator is a word of letters. -/
theorem isRun_of_mem_operatorWords {operator : List Char} {c : Filter.Comparison}
    (h : (String.ofList (lower operator), c) ∈ operatorWords) : IsRun isLetter operator := by
  have hletters : ∀ pair ∈ operatorWords, IsRun isLetter pair.1.toList := by decide
  obtain ⟨hne, hall⟩ := hletters _ h
  rw [String.toList_ofList] at hne hall
  constructor
  · intro hnil
    rw [hnil] at hne
    exact hne rfl
  · intro d hd
    by_contra hletter
    rw [Bool.not_eq_true] at hletter
    have hlower := hall d.toLower (List.mem_map_of_mem hd)
    rw [toLower_of_not_letter hletter, hletter] at hlower
    cases hlower

theorem isRun_blank : IsRun isBlank [' '] := by decide

section

variable {name operator literal : List Char} (hname : IsIdentifier name)
  (hoperator : IsRun isLetter operator)

include hname hoperator

theorem spells_comparisonText (hliteral : IsToken literal) :
    Form.Spells (.comparison name operator literal) (comparisonText name operator literal) := by
  have hspells : Form.Spells (.comparison name operator literal)
      ([] ++ (name ++ ([' '] ++ (operator ++ ([' '] ++ (literal ++ [])))))) :=
    .comparison hname hoperator hliteral rfl isRun_blank isRun_blank rfl
  rw [List.append_nil] at hspells
  exact hspells

/-- A comparison with a literal that crosses the end of a line spells nothing. -/
theorem not_spells_comparisonText (hne : literal ≠ []) (htrim : trim literal = literal)
    (hline : '\n' ∈ literal) (form : Form) :
    ¬ form.Spells (comparisonText name operator literal) := by
  have hstops : Stops isBlank literal := fun c => not_isBlank_head htrim
  intro h
  have hspells : form.Spells ([] ++ comparisonText name operator literal) := h
  cases form with
  | call => exact not_spells_call hname hoperator rfl isRun_blank hspells
  | comparison name' operator' literal' =>
    have hread := readComparison?_of_spells hspells
    have hread' : readComparison? ([] ++ comparisonText name operator literal) =
        (literalOf [' '] literal).map (.comparison name operator) :=
      readComparison?_eq hname hoperator rfl isRun_blank isRun_blank hstops
    rw [hread] at hread'
    obtain ⟨literal', hliteral', -⟩ := Option.map_eq_some_iff.1 hread'.symm
    obtain ⟨htoken, b, hb, hsplit⟩ := (literalOf_eq_some_iff hne hstops).1 hliteral'
    -- trimmed as it is, the literal has nothing behind the token
    have hsame : literal = literal' := by
      rw [← htrim, hsplit, trim_append_right hb, htoken.2.1]
    rw [hsame] at hline
    exact htoken.2.2 hline

end

/-- A text within the limit that spells nothing is refused for its form. -/
theorem parse_of_not_spells {text : String} (hsize : text.utf8ByteSize ≤ limits.maxFilterLength)
    (hblank : isAllBlank text = false) (h : ∀ form : Form, ¬ form.Spells text.toList) :
    parse limits e text = .error (.invalidFilter text "expected 'field operator literal'") := by
  have hform : readForm? text.toList = none := by
    rw [Option.eq_none_iff_forall_ne_some]
    intro form hform
    exact h form (readForm?_eq_some_iff.1 hform)
  rw [parse, QueryLimits.checkFilter, if_neg (Nat.not_lt_of_le hsize), ok_bind, read, hblank, hform]
  rfl

/-- A filter compares a field of texts with any text of a single line: the text stands between
quotes, with its own quotes doubled, and that is the one clause of the predicate. With a line break
in the text the filter is refused. -/
theorem parse_comparison_quote {name operator : List Char} {f : Field} {c : Filter.Comparison}
    (hname : IsIdentifier name) (hf : e.field? (String.ofList name) = some f)
    (hstring : f.type = .string) (hc : (String.ofList (lower operator), c) ∈ operatorWords)
    (s : List Char) {text : String}
    (htext : text = String.ofList (comparisonText name operator (quote s)))
    (hsize : text.utf8ByteSize ≤ limits.maxFilterLength) :
    parse limits e text =
      if '\n' ∈ s then .error (.invalidFilter text "expected 'field operator literal'")
      else .ok (.field f.name (.compare c (.string (String.ofList s)))) := by
  have hoperator : IsRun isLetter operator := isRun_of_mem_operatorWords hc
  have hlist : text.toList = comparisonText name operator (quote s) := by
    rw [htext, String.toList_ofList]
  by_cases hline : '\n' ∈ s
  · rw [if_pos hline]
    have hcrosses : '\n' ∈ quote s :=
      List.mem_cons_of_mem _ (List.mem_append_left _ (mem_doubleQuotes_iff.2 hline))
    apply parse_of_not_spells hsize
    · show allBlank text.toList = false
      rw [hlist]
      exact not_allBlank_of_isIdentifier hname fun d hd => List.mem_append_left _ hd
    · intro form
      rw [hlist]
      exact not_spells_comparisonText hname hoperator (List.cons_ne_nil _ _) (trim_quote s)
        hcrosses form
  · rw [if_neg hline]
    have hspells : Form.Spells (.comparison name operator (quote s)) text.toList := by
      rw [hlist]
      exact spells_comparisonText hname hoperator (isToken_quote_iff.2 hline)
    have hvalue : f.type.coerce (String.ofList s) = .ok (.string (String.ofList s)) := by
      rw [hstring]
      rfl
    exact (parse_eq_ok_iff_of_spells hspells).2 ⟨hsize, .comparison hf hc (.quoted hvalue)⟩

end FilterOption

namespace Library

/-- The same text of two lines is refused in a comparison and accepted in a call. -/
theorem name_eq_two_lines :
    authors.entity.field? "Name" = some ⟨"Name", .string, false⟩ ∧
      FilterOption.IsIdentifier "Name".toList ∧ ("eq", .eq) ∈ FilterOption.operatorWords ∧
      "Name eq 'a\nb'".utf8ByteSize ≤ QueryLimits.maxFilterLength {} ∧
      FilterOption.parse {} authors.entity "Name eq 'a\nb'" =
        .error (.invalidFilter "Name eq 'a\nb'" "expected 'field operator literal'") ∧
      (FilterOption.parse {} authors.entity "contains(Name,'a\nb')").toOption.isSome = true := by
  refine ⟨rfl, by decide, by decide, by decide, ?_, ?_⟩
  · with_unfolding_all rfl
  · decide +kernel

/-- A text of quotes, blanks and another filter is compared with as it stands. -/
theorem name_ne_quotes :
    FilterOption.parse {} authors.entity "name NE ' it''s'' or Id gt 1) '" =
      .ok (.field "Name" (.compare .ne (.string " it's' or Id gt 1) "))) := by
  have hname : FilterOption.IsIdentifier "name".toList := by decide
  have hne : (String.ofList (Text.lower "NE".toList), Filter.Comparison.ne) ∈
      FilterOption.operatorWords := by
    decide
  have hline : '\n' ∉ " it's' or Id gt 1) ".toList := by decide
  have hsize : "name NE ' it''s'' or Id gt 1) '".utf8ByteSize ≤ QueryLimits.maxFilterLength {} := by
    decide
  have hread := FilterOption.parse_comparison_quote (e := authors.entity) hname rfl rfl hne
    " it's' or Id gt 1) ".toList (by decide) hsize
  rw [if_neg hline] at hread
  exact hread

end Library

/-! ## Declared types -/

/-- The field that a name finds is also found by its own name. -/
theorem EntityType.field?_name {name : String} {f : Field} (h : e.field? name = some f) :
    e.field? f.name = some f := by
  have hname : Text.sameName f.name name = true := (mem_of_field? h).2
  have hsame : (fun g : Field => Text.sameName g.name f.name) =
      fun g : Field => Text.sameName g.name name := by
    funext g
    rw [Bool.eq_iff_iff]
    constructor
    · intro hg
      exact Text.sameName_trans hg hname
    · intro hg
      rw [Text.sameName_comm] at hname
      exact Text.sameName_trans hg hname
  rw [field?, hsame]
  exact h

namespace FilterOption

/-- An accepted filter is one clause on a declared field and fits the types of the entity, with one
exception: it may compare a truth value by order. -/
theorem validate_of_parse {text : String} {p : Predicate} (h : parse limits e text = .ok p) :
    ∃ f ∈ e.fields, ∃ clause, p = .field f.name clause ∧ p.validate e.typeOf? =
      if clause.operator.isRange && f.type == .boolean then
        .error (.typeMismatch f.name f.type ("ordering operator " ++ clause.operator.key))
      else .ok () := by
  obtain ⟨-, hread⟩ := parse_eq_ok_iff.1 h
  obtain ⟨form, -, hdenotes⟩ := read_eq_ok_iff.1 hread
  obtain ⟨name, f, clause, hf, rfl, haccepts⟩ := hdenotes.exists_clause
  have htype : e.typeOf? f.name = some f.type := by
    rw [EntityType.typeOf?, EntityType.field?_name hf]
    rfl
  refine ⟨f, (EntityType.mem_of_field? hf).1, clause, rfl, ?_⟩
  rw [Predicate.validate_field htype, Predicate.checkClause_of_accepts haccepts]

end FilterOption

namespace Archive

/-- The fields of maps that are shown or not. -/
def shownFields : List Field := [⟨"Id", .int32, false⟩, ⟨"Shown", .boolean, false⟩]

/-- Truth values are compared by order in a filter, and the predicate does not fit them. -/
theorem shown_gt_true :
    (draft shownFields).build = .ok (schema shownFields) ∧
      ∃ p, FilterOption.parse {} (maps shownFields).entity "shown gt true" = .ok p ∧
        p.validate (maps shownFields).entity.typeOf? =
          .error (.typeMismatch "Shown" .boolean "ordering operator $gt") := by
  refine ⟨rfl, .field "Shown" (.compare .gt (.bool true)), ?_, ?_⟩
  · with_unfolding_all rfl
  · decide +kernel

/-- Compared by equality they fit. -/
theorem shown_ne_null :
    ∃ p, FilterOption.parse {} (maps shownFields).entity "SHOWN ne null" = .ok p ∧
      p.validate (maps shownFields).entity.typeOf? = .ok () := by
  have hp : FilterOption.parse {} (maps shownFields).entity "SHOWN ne null" =
      .ok (.field "Shown" (.compare .ne .null)) := by
    with_unfolding_all rfl
  obtain ⟨f, -, clause, hfield, hvalidate⟩ := FilterOption.validate_of_parse hp
  have hfields : [("Shown", [Filter.Clause.compare .ne .null])] = [(f.name, [clause])] :=
    congrArg Predicate.fields hfield
  have hclause : Filter.Clause.compare .ne .null = clause := by
    simpa using congrArg (List.map Prod.snd) hfields
  rw [← hclause] at hvalidate
  exact ⟨_, hp, hvalidate⟩

end Archive

end ODataEngine
