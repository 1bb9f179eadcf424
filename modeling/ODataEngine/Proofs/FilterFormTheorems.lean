import ODataEngine.Proofs.SpanTheorems
import ODataEngine.Query.FilterOption

/-!
# The forms of filter texts

A filter text spells a comparison or a call when it consists of the tokens of the form with blanks
around them (`FilterOption.Form.Spells`); one more spelling leaves the literal of a comparison out
and counts one of the blanks at the end as the literal. Each reader takes off just what its token
may be, as far as that reaches, so a text is read as a form just if it spells it
(`FilterOption.readForm?_eq_some_iff`). No text spells two forms.
-/

namespace ODataEngine.FilterOption

open ODataEngine.Text

variable {s rest : List Char}

/-! ## Tokens -/

/-- A letter or an underscore, then letters, digits and underscores. -/
def IsIdentifier (name : List Char) : Prop :=
  ∃ c rest, name = c :: rest ∧ isIdentifierStart c = true ∧ ∀ d ∈ rest, isIdentifierRest d = true

theorem isIdentifier_cons_iff {c : Char} : IsIdentifier (c :: s) ↔
    isIdentifierStart c = true ∧ s.all isIdentifierRest = true := by
  rw [List.all_eq_true]
  constructor
  · intro h
    obtain ⟨d, rest, hs, hd⟩ := h
    cases hs
    exact hd
  · intro h
    exact ⟨c, s, rfl, h⟩

instance (name : List Char) : Decidable (IsIdentifier name) :=
  match name with
  | [] => isFalse fun ⟨_, _, hnil, _⟩ => nomatch hnil
  | _ :: _ => decidable_of_iff' _ isIdentifier_cons_iff

/-- Characters of one line, at least one, with no blank at either end. -/
def IsToken (literal : List Char) : Prop := literal ≠ [] ∧ trim literal = literal ∧ '\n' ∉ literal

theorem takeIdentifier_eq_some_iff {name : List Char} : takeIdentifier s = some (name, rest) ↔
    s = name ++ rest ∧ IsIdentifier name ∧ Stops isIdentifierRest rest := by
  cases s with
  | nil =>
    refine ⟨nofun, ?_⟩
    rintro ⟨hs, ⟨c, tail, rfl, -⟩, -⟩
    cases hs
  | cons c tail =>
    have hspan := @span_eq_iff isIdentifierRest tail
    constructor
    · intro h
      rw [takeIdentifier] at h
      split at h
      · next hstart =>
        cases h
        obtain ⟨hs, hbody, hrest⟩ := hspan.1 ⟨rfl, rfl⟩
        exact ⟨congrArg (c :: ·) hs, ⟨c, _, rfl, hstart, hbody⟩, hrest⟩
      · cases h
    · rintro ⟨hs, ⟨d, body, rfl, hstart, hbody⟩, hrest⟩
      obtain ⟨rfl, htail⟩ := List.cons.inj hs
      obtain ⟨htake, hdrop⟩ := hspan.2 ⟨htail, hbody, hrest⟩
      rw [takeIdentifier, if_pos hstart, htake, hdrop]

theorem takeLetters_eq_some_iff {word : List Char} : takeLetters s = some (word, rest) ↔
    s = word ++ rest ∧ IsRun isLetter word ∧ Stops isLetter rest := takeRun_eq_some_iff

theorem takeBlanks_eq_some_iff {b : List Char} : takeBlanks s = some (b, rest) ↔
    s = b ++ rest ∧ IsRun isBlank b ∧ Stops isBlank rest := takeRun_eq_some_iff

theorem takeSign_eq_some_iff {sign : Char} (hsign : isBlank sign = false) :
    takeSign sign s = some rest ↔ ∃ b, allBlank b = true ∧ s = b ++ sign :: rest := by
  constructor
  · intro h
    unfold takeSign at h
    split at h
    · next c after htrim =>
      split at h
      · next hc =>
        cases h
        obtain ⟨b, hb, hs, -⟩ := trimStart_eq_iff.1 htrim
        exact ⟨b, hb, by rw [hs, hc]⟩
      · cases h
    · cases h
  · rintro ⟨b, hb, hs⟩
    have htrim : trimStart s = sign :: rest :=
      trimStart_eq_iff.2 ⟨b, hb, hs, stops_cons_iff.2 hsign⟩
    rw [takeSign, htrim]
    exact if_pos rfl

/-- A quoted text ends at the first quote that is not doubled. -/
theorem takeQuoted_eq_some_iff {text : List Char} : takeQuoted s = some (text, rest) ↔
    ∃ inner, text = doubleQuotes inner ∧ s = doubleQuotes inner ++ '\'' :: rest ∧
      ∀ after, rest ≠ '\'' :: after := by
  constructor
  · intro h
    -- along the reader: a doubled quote, the quote at the end, any other character, nothing left
    induction s using takeQuoted.induct generalizing text with
    | case1 s ih =>
      rw [takeQuoted] at h
      obtain ⟨⟨t, r⟩, ht, htext⟩ := Option.map_eq_some_iff.1 h
      cases htext
      obtain ⟨inner, rfl, rfl, hend⟩ := ih ht
      exact ⟨'\'' :: inner, rfl, rfl, hend⟩
    | case2 s hend =>
      rw [takeQuoted.eq_2 s hend] at h
      cases h
      exact ⟨[], rfl, rfl, hend⟩
    | case3 c s hdouble hquote ih =>
      rw [takeQuoted.eq_3 c s hdouble hquote] at h
      obtain ⟨⟨t, r⟩, ht, htext⟩ := Option.map_eq_some_iff.1 h
      cases htext
      obtain ⟨inner, rfl, rfl, hend⟩ := ih ht
      have hkept : doubleQuotes (c :: inner) = c :: doubleQuotes inner := if_neg hquote
      exact ⟨c :: inner, hkept.symm, by rw [hkept, List.cons_append], hend⟩
    | case4 => cases h
  · rintro ⟨inner, rfl, rfl, hend⟩
    induction inner with
    | nil => exact takeQuoted.eq_2 rest hend
    | cons c inner ih =>
      by_cases hc : c = '\''
      · have hdoubled : doubleQuotes (c :: inner) = '\'' :: '\'' :: doubleQuotes inner := if_pos hc
        rw [hdoubled, List.cons_append, List.cons_append, takeQuoted, ih]
        rfl
      · have hkept : doubleQuotes (c :: inner) = c :: doubleQuotes inner := if_neg hc
        rw [hkept, List.cons_append, takeQuoted.eq_3 _ _ (fun _ hquote => absurd hquote hc) hc, ih]
        rfl

/-! ## Forms -/

/-- The texts that spell a form. -/
inductive Form.Spells : Form → List Char → Prop
  /-- A name, an operator and a literal, between blanks. -/
  | comparison {name operator literal b₀ b₁ b₂ b₃ : List Char} (hname : IsIdentifier name)
      (hoperator : IsRun isLetter operator) (hliteral : IsToken literal)
      (h₀ : allBlank b₀ = true) (h₁ : IsRun isBlank b₁) (h₂ : IsRun isBlank b₂)
      (h₃ : allBlank b₃ = true) : Spells (.comparison name operator literal)
      (b₀ ++ (name ++ (b₁ ++ (operator ++ (b₂ ++ (literal ++ b₃))))))
  /-- A name and an operator between blanks, at least two of them at the end. One that is no line
  break, and has only line breaks behind it, is taken for the literal. -/
  | blankLiteral {name operator b₀ b₁ b₂ b₃ : List Char} {c : Char} (hname : IsIdentifier name)
      (hoperator : IsRun isLetter operator) (hblank : isBlank c = true) (hline : c ≠ '\n')
      (h₀ : allBlank b₀ = true) (h₁ : IsRun isBlank b₁) (h₂ : IsRun isBlank b₂)
      (h₃ : ∀ d ∈ b₃, d = '\n') : Spells (.comparison name operator [c])
      (b₀ ++ (name ++ (b₁ ++ (operator ++ (b₂ ++ c :: b₃)))))
  /-- A function and, in parentheses, a name and a text between quotes, each of its own quotes
  doubled. -/
  | call {function name inner b₀ b₁ b₂ b₃ b₄ b₅ b₆ : List Char}
      (hfunction : IsRun isLetter function) (hname : IsIdentifier name)
      (h₀ : allBlank b₀ = true) (h₁ : allBlank b₁ = true) (h₂ : allBlank b₂ = true)
      (h₃ : allBlank b₃ = true) (h₄ : allBlank b₄ = true) (h₅ : allBlank b₅ = true)
      (h₆ : allBlank b₆ = true) : Spells (.call function name (doubleQuotes inner))
      (b₀ ++ (function ++ (b₁ ++ '(' :: (b₂ ++ (name ++ (b₃ ++ ',' :: (b₄ ++ '\'' ::
        (doubleQuotes inner ++ '\'' :: (b₅ ++ ')' :: b₆)))))))))

theorem isRun_of_isIdentifier {name : List Char} (h : IsIdentifier name) :
    IsRun isIdentifierRest name := by
  obtain ⟨c, body, rfl, hstart, hbody⟩ := h
  refine ⟨List.cons_ne_nil c body, List.forall_mem_cons.2 ⟨?_, hbody⟩⟩
  exact isIdentifierRest_of_isIdentifierStart hstart

theorem isRun_of_isLetter {word : List Char} (h : IsRun isLetter word) :
    IsRun isIdentifierRest word :=
  ⟨h.1, fun c hc => isIdentifierRest_of_isLetter (h.2 c hc)⟩

theorem isIdentifier_of_isLetter {word : List Char} (h : IsRun isLetter word) :
    IsIdentifier word := by
  obtain ⟨c, body, rfl⟩ := List.exists_cons_of_ne_nil h.1
  obtain ⟨hc, hbody⟩ := List.forall_mem_cons.1 h.2
  refine ⟨c, body, rfl, ?_, fun d hd => isIdentifierRest_of_isLetter (hbody d hd)⟩
  rw [isLetter] at hc
  rw [isIdentifierStart, hc]
  rfl

/-- A text of characters that stand in identifiers begins with no blank. -/
theorem stops_isBlank {word : List Char} (h : IsRun isIdentifierRest word) (rest : List Char) :
    Stops isBlank (word ++ rest) := by
  refine stops_append ?_ h.1
  intro c hc
  exact not_isBlank_of_isIdentifierRest (h.2 c (List.mem_of_mem_head? hc))

/-- Blanks and a sign behind them stop a run of other characters. -/
theorem stops_blanks {p : Char → Bool} (hp : ∀ c, isBlank c = true → p c = false) {sign : Char}
    (hsign : p sign = false) {b : List Char} (hb : allBlank b = true) :
    Stops p (b ++ sign :: rest) := by
  intro c hc
  cases b with
  | nil =>
    cases hc
    exact hsign
  | cons d b =>
    cases hc
    exact hp c (allBlank_iff.1 hb c List.mem_cons_self)

theorem not_isIdentifierRest_of_isBlank {c : Char} (h : isBlank c = true) :
    isIdentifierRest c = false := by
  by_contra hrest
  rw [Bool.not_eq_false] at hrest
  rw [not_isBlank_of_isIdentifierRest hrest] at h
  cases h

/-- Blanks stop an identifier. -/
theorem stops_gap {b : List Char} (h : IsRun isBlank b) (rest : List Char) :
    Stops isIdentifierRest (b ++ rest) := by
  refine stops_append ?_ h.1
  intro c hc
  exact not_isIdentifierRest_of_isBlank (h.2 c (List.mem_of_mem_head? hc))

theorem not_isLetter_of_isBlank {c : Char} (h : isBlank c = true) : isLetter c = false := by
  by_contra hletter
  rw [Bool.not_eq_false] at hletter
  rw [not_isBlank_of_isIdentifierRest (isIdentifierRest_of_isLetter hletter)] at h
  cases h

/-! ## Calls -/

theorem spells_of_readCall? {form : Form} (h : readCall? s = some form) :
    (∃ function name text, form = .call function name text) ∧ form.Spells s := by
  obtain ⟨⟨f, s₁⟩, hfunction, h⟩ := Option.bind_eq_some_iff.1 h
  obtain ⟨s₂, hopen, h⟩ := Option.bind_eq_some_iff.1 h
  obtain ⟨⟨n, s₃⟩, hname, h⟩ := Option.bind_eq_some_iff.1 h
  obtain ⟨s₄, hcomma, h⟩ := Option.bind_eq_some_iff.1 h
  obtain ⟨s₅, hquote, h⟩ := Option.bind_eq_some_iff.1 h
  obtain ⟨⟨t, s₆⟩, htext, h⟩ := Option.bind_eq_some_iff.1 h
  obtain ⟨s₇, hclose, h⟩ := Option.bind_eq_some_iff.1 h
  split at h
  · next hblank =>
    cases h
    obtain ⟨hs, hword, -⟩ := takeLetters_eq_some_iff.1 hfunction
    obtain ⟨b₀, h₀, rfl, -⟩ := trimStart_eq_iff.1 hs
    obtain ⟨b₁, h₁, rfl⟩ := (takeSign_eq_some_iff rfl).1 hopen
    obtain ⟨hs, hidentifier, -⟩ := takeIdentifier_eq_some_iff.1 hname
    obtain ⟨b₂, h₂, rfl, -⟩ := trimStart_eq_iff.1 hs
    obtain ⟨b₃, h₃, rfl⟩ := (takeSign_eq_some_iff rfl).1 hcomma
    obtain ⟨b₄, h₄, rfl⟩ := (takeSign_eq_some_iff rfl).1 hquote
    obtain ⟨inner, rfl, rfl, -⟩ := takeQuoted_eq_some_iff.1 htext
    obtain ⟨b₅, h₅, rfl⟩ := (takeSign_eq_some_iff rfl).1 hclose
    exact ⟨⟨f, n, _, rfl⟩, .call hword hidentifier h₀ h₁ h₂ h₃ h₄ h₅ hblank⟩
  · cases h

theorem readCall?_of_spells {function name text : List Char}
    (h : Form.Spells (.call function name text) s) :
    readCall? s = some (.call function name text) := by
  cases h with
  | @call _ _ inner b₀ b₁ b₂ b₃ b₄ b₅ b₆ hfunction hname h₀ h₁ h₂ h₃ h₄ h₅ h₆ =>
  -- each token ends where blanks or the next sign begin
  have hletters (rest : List Char) : Stops isLetter (b₁ ++ '(' :: rest) :=
    stops_blanks (fun c => not_isLetter_of_isBlank) rfl h₁
  have hidentifier (rest : List Char) : Stops isIdentifierRest (b₃ ++ ',' :: rest) :=
    stops_blanks (fun c => not_isIdentifierRest_of_isBlank) rfl h₃
  have hquote (after : List Char) : b₅ ++ ')' :: b₆ ≠ '\'' :: after := by
    intro hquote
    have hstops : Stops (· == '\'') (b₅ ++ ')' :: b₆) := by
      refine stops_blanks (fun c hc => ?_) rfl h₅
      rw [beq_eq_false_iff_ne]
      rintro rfl
      cases hc
    rw [hquote] at hstops
    cases stops_cons_iff.1 hstops
  have hfront (rest : List Char) : Stops isBlank (function ++ rest) :=
    stops_isBlank (isRun_of_isLetter hfunction) rest
  have hinside (rest : List Char) : Stops isBlank (name ++ rest) :=
    stops_isBlank (isRun_of_isIdentifier hname) rest
  rw [readCall?, trimStart_eq_iff.2 ⟨b₀, h₀, rfl, hfront _⟩,
    takeLetters_eq_some_iff.2 ⟨rfl, hfunction, hletters _⟩]
  simp only [Option.bind_eq_bind, Option.bind_some]
  rw [(takeSign_eq_some_iff rfl).2 ⟨b₁, h₁, rfl⟩, Option.bind_some,
    trimStart_eq_iff.2 ⟨b₂, h₂, rfl, hinside _⟩,
    takeIdentifier_eq_some_iff.2 ⟨rfl, hname, hidentifier _⟩, Option.bind_some]
  simp only []
  rw [(takeSign_eq_some_iff rfl).2 ⟨b₃, h₃, rfl⟩, Option.bind_some,
    (takeSign_eq_some_iff rfl).2 ⟨b₄, h₄, rfl⟩, Option.bind_some,
    takeQuoted_eq_some_iff.2 ⟨inner, rfl, rfl, hquote⟩, Option.bind_some]
  simp only []
  rw [(takeSign_eq_some_iff rfl).2 ⟨b₅, h₅, rfl⟩, Option.bind_some, if_pos h₆]

/-! ## Comparisons -/

/-- The blank that is taken for a literal is the last one that is no line break. -/
theorem lastBlankLiteral_eq_some_iff {b literal : List Char} :
    lastBlankLiteral b = some literal ↔ ∃ b₂ c b₃, b = b₂ ++ c :: b₃ ∧ b₂ ≠ [] ∧ c ≠ '\n' ∧
      (∀ d ∈ b₃, d = '\n') ∧ literal = [c] := by
  unfold lastBlankLiteral
  rw [Option.map_eq_some_iff]
  constructor
  · rintro ⟨c, hfound, rfl⟩
    -- the search goes from the end and leaves the first blank out, which parts off the operator
    obtain ⟨hc, after, before, hsplit, hafter⟩ := List.find?_eq_some_iff_append.1 hfound
    cases b with
    | nil => cases hfound
    | cons first b =>
      have hb : b = before.reverse ++ c :: after.reverse := by
        rw [← List.reverse_reverse b]
        show (List.drop 1 (first :: b)).reverse.reverse = _
        rw [hsplit]
        simp
      refine ⟨first :: before.reverse, c, after.reverse, ?_, List.cons_ne_nil _ _, ?_, ?_, rfl⟩
      · rw [hb, List.cons_append]
      · simpa using hc
      · intro d hd
        simpa using hafter d (List.mem_reverse.1 hd)
  · rintro ⟨b₂, c, b₃, rfl, hne, hc, hbreaks, rfl⟩
    obtain ⟨first, b₂, rfl⟩ := List.exists_cons_of_ne_nil hne
    refine ⟨c, List.find?_eq_some_iff_append.2 ⟨by simpa using hc, b₃.reverse, b₂.reverse, ?_, ?_⟩,
      rfl⟩
    · simp
    · intro d hd
      simpa using hbreaks d (List.mem_reverse.1 hd)

/-- Where something follows the blanks, the literal is all of it but the blanks at its end. -/
theorem literalOf_eq_some_iff {b literal : List Char} (hne : rest ≠ [])
    (hstops : Stops isBlank rest) : literalOf b rest = some literal ↔
      IsToken literal ∧ ∃ b₃, allBlank b₃ = true ∧ rest = literal ++ b₃ := by
  have hvalue : literalOf b rest =
      if (trimEnd rest).contains '\n' then none else some (trimEnd rest) :=
    if_neg fun hnil => hne (List.isEmpty_iff.1 hnil)
  rw [hvalue]
  constructor
  · intro h
    obtain ⟨b₃, h₃, hrest, hlast⟩ := exists_eq_trimEnd_append rest
    split at h
    · cases h
    · next hline =>
      cases h
      have hliteral : trimEnd rest ≠ [] := by
        intro hnil
        rw [hnil, List.nil_append] at hrest
        obtain ⟨c, after, rfl⟩ := List.exists_cons_of_ne_nil hne
        have hblank := allBlank_iff.1 h₃ c (hrest ▸ List.mem_cons_self)
        rw [stops_cons_iff.1 hstops] at hblank
        cases hblank
      have hhead : ∀ c, (trimEnd rest).head? = some c → isBlank c = false := by
        intro c hc
        refine hstops c ?_
        rw [hrest, List.head?_append, hc]
        rfl
      refine ⟨⟨hliteral, trim_eq_self hhead hlast, ?_⟩, b₃, h₃, hrest⟩
      intro hmem
      exact hline (List.contains_iff_mem.2 hmem)
  · rintro ⟨⟨-, htrim, hline⟩, b₃, h₃, rfl⟩
    rw [trimEnd_append h₃ fun c => not_isBlank_getLast htrim]
    exact if_neg fun hmem => hline (List.contains_iff_mem.1 hmem)

theorem spells_of_readComparison? {form : Form} (h : readComparison? s = some form) :
    form.Spells s := by
  obtain ⟨⟨name, s₁⟩, hname, h⟩ := Option.bind_eq_some_iff.1 h
  obtain ⟨⟨b₁, s₂⟩, hgap, h⟩ := Option.bind_eq_some_iff.1 h
  obtain ⟨⟨operator, s₃⟩, hoperator, h⟩ := Option.bind_eq_some_iff.1 h
  obtain ⟨⟨b, s₄⟩, hblanks, h⟩ := Option.bind_eq_some_iff.1 h
  obtain ⟨literal, hliteral, h⟩ := Option.bind_eq_some_iff.1 h
  cases h
  obtain ⟨hs, hidentifier, -⟩ := takeIdentifier_eq_some_iff.1 hname
  obtain ⟨b₀, h₀, rfl, -⟩ := trimStart_eq_iff.1 hs
  obtain ⟨rfl, h₁, -⟩ := takeBlanks_eq_some_iff.1 hgap
  obtain ⟨rfl, hword, -⟩ := takeLetters_eq_some_iff.1 hoperator
  obtain ⟨rfl, h₂, hstops⟩ := takeBlanks_eq_some_iff.1 hblanks
  by_cases hne : s₄ = []
  · subst hne
    obtain ⟨b₂, c, b₃, rfl, hb₂, hc, hbreaks, rfl⟩ := lastBlankLiteral_eq_some_iff.1 hliteral
    obtain ⟨hb₂blank, hcblank⟩ := List.forall_mem_append.1 h₂.2
    rw [List.append_nil]
    exact .blankLiteral hidentifier hword (hcblank c List.mem_cons_self) hc h₀ h₁
      ⟨hb₂, hb₂blank⟩ hbreaks
  · obtain ⟨htoken, b₃, h₃, rfl⟩ := (literalOf_eq_some_iff hne hstops).1 hliteral
    exact .comparison hidentifier hword htoken h₀ h₁ h₂ h₃

/-- Up to the blanks behind the operator the two spellings of a comparison are read alike. -/
theorem readComparison?_eq {name operator b₀ b₁ b₂ : List Char} (hname : IsIdentifier name)
    (hoperator : IsRun isLetter operator) (h₀ : allBlank b₀ = true) (h₁ : IsRun isBlank b₁)
    (h₂ : IsRun isBlank b₂) (hrest : Stops isBlank rest) :
    readComparison? (b₀ ++ (name ++ (b₁ ++ (operator ++ (b₂ ++ rest))))) =
      (literalOf b₂ rest).map (.comparison name operator) := by
  have hstart (rest : List Char) : Stops isBlank (name ++ rest) :=
    stops_isBlank (isRun_of_isIdentifier hname) rest
  have hword (rest : List Char) : Stops isBlank (operator ++ rest) :=
    stops_isBlank (isRun_of_isLetter hoperator) rest
  have hletters (rest : List Char) : Stops isLetter (b₂ ++ rest) :=
    stops_append (fun c hc => not_isLetter_of_isBlank (h₂.2 c (List.mem_of_mem_head? hc))) h₂.1
  rw [readComparison?, trimStart_eq_iff.2 ⟨b₀, h₀, rfl, hstart _⟩,
    takeIdentifier_eq_some_iff.2 ⟨rfl, hname, stops_gap h₁ _⟩]
  simp only [Option.bind_eq_bind, Option.bind_some]
  rw [takeBlanks_eq_some_iff.2 ⟨rfl, h₁, hword _⟩, Option.bind_some]
  simp only []
  rw [takeLetters_eq_some_iff.2 ⟨rfl, hoperator, hletters _⟩, Option.bind_some]
  simp only []
  rw [takeBlanks_eq_some_iff.2 ⟨rfl, h₂, hrest⟩, Option.bind_some]
  cases literalOf b₂ rest <;> rfl

theorem readComparison?_of_spells {name operator literal : List Char}
    (h : Form.Spells (.comparison name operator literal) s) :
    readComparison? s = some (.comparison name operator literal) := by
  cases h with
  | @comparison _ _ _ b₀ b₁ b₂ b₃ hname hoperator hliteral h₀ h₁ h₂ h₃ =>
    have hstops : Stops isBlank (literal ++ b₃) :=
      stops_append (fun c => not_isBlank_head hliteral.2.1) hliteral.1
    have hne : literal ++ b₃ ≠ [] := fun hnil => hliteral.1 (List.append_eq_nil_iff.1 hnil).1
    have hread := (literalOf_eq_some_iff (b := b₂) hne hstops).2 ⟨hliteral, b₃, h₃, rfl⟩
    rw [readComparison?_eq hname hoperator h₀ h₁ h₂ hstops, hread, Option.map_some]
  | @blankLiteral _ _ b₀ b₁ b₂ b₃ c hname hoperator hblank hline h₀ h₁ h₂ hbreaks =>
    have hbreaks' : ∀ d ∈ b₃, isBlank d = true := by
      intro d hd
      rw [hbreaks d hd]
      rfl
    have hall : IsRun isBlank (b₂ ++ c :: b₃) := by
      refine ⟨fun hnil => h₂.1 (List.append_eq_nil_iff.1 hnil).1, ?_⟩
      exact List.forall_mem_append.2 ⟨h₂.2, List.forall_mem_cons.2 ⟨hblank, hbreaks'⟩⟩
    have hread : literalOf (b₂ ++ c :: b₃) [] = some [c] :=
      lastBlankLiteral_eq_some_iff.2 ⟨b₂, c, b₃, rfl, h₂.1, hline, hbreaks, rfl⟩
    have hcomparison := readComparison?_eq hname hoperator h₀ h₁ hall stops_nil
    rwa [List.append_nil, hread] at hcomparison

/-! ## All forms -/

/-- Behind its first token a call goes on with a parenthesis and not with a word. -/
theorem not_spells_call {function name text name' operator b₀ b₁ tail : List Char}
    (hname : IsIdentifier name') (hoperator : IsRun isLetter operator) (h₀ : allBlank b₀ = true)
    (h₁ : IsRun isBlank b₁) : ¬ Form.Spells (.call function name text)
      (b₀ ++ (name' ++ (b₁ ++ (operator ++ tail)))) := by
  intro hcall
  generalize hs : b₀ ++ (name' ++ (b₁ ++ (operator ++ tail))) = s at hcall
  obtain ⟨a₀, a₁, inside, hfunction, ha₀, ha₁, hs'⟩ :
      ∃ a₀ a₁ inside, IsRun isLetter function ∧ allBlank a₀ = true ∧ allBlank a₁ = true ∧
        s = a₀ ++ (function ++ (a₁ ++ '(' :: inside)) := by
    cases hcall with
    | call hfunction _ h₀ h₁ => exact ⟨_, _, _, hfunction, h₀, h₁, rfl⟩
  have hfront : trimStart s = function ++ (a₁ ++ '(' :: inside) :=
    trimStart_eq_iff.2 ⟨a₀, ha₀, hs', stops_isBlank (isRun_of_isLetter hfunction) _⟩
  have hfront' : trimStart s = name' ++ (b₁ ++ (operator ++ tail)) :=
    trimStart_eq_iff.2 ⟨b₀, h₀, hs.symm, stops_isBlank (isRun_of_isIdentifier hname) _⟩
  have hfirst : takeIdentifier (trimStart s) = some (function, a₁ ++ '(' :: inside) :=
    takeIdentifier_eq_some_iff.2 ⟨hfront, isIdentifier_of_isLetter hfunction,
      stops_blanks (fun c => not_isIdentifierRest_of_isBlank) rfl ha₁⟩
  have hfirst' : takeIdentifier (trimStart s) = some (name', b₁ ++ (operator ++ tail)) :=
    takeIdentifier_eq_some_iff.2 ⟨hfront', hname, stops_gap h₁ _⟩
  rw [hfirst] at hfirst'
  have hbehind : a₁ ++ '(' :: inside = b₁ ++ (operator ++ tail) :=
    congrArg Prod.snd (Option.some.inj hfirst')
  have hopen : trimStart (a₁ ++ '(' :: inside) = '(' :: inside :=
    trimStart_eq_iff.2 ⟨a₁, ha₁, rfl, stops_cons_iff.2 rfl⟩
  have hletter : trimStart (a₁ ++ '(' :: inside) = operator ++ tail :=
    trimStart_eq_iff.2 ⟨b₁, allBlank_iff.2 h₁.2, hbehind,
      stops_isBlank (isRun_of_isLetter hoperator) _⟩
  obtain ⟨c, operator, rfl⟩ := List.exists_cons_of_ne_nil hoperator.1
  have hc : '(' = c := (List.cons.inj (hopen.symm.trans hletter)).1
  have hparenthesis := hoperator.2 '(' (by rw [hc]; exact List.mem_cons_self)
  cases hparenthesis

/-- What spells a comparison spells no call. -/
theorem not_spells_call_and_comparison {function name text name' operator literal : List Char}
    (hcall : Form.Spells (.call function name text) s)
    (hcomparison : Form.Spells (.comparison name' operator literal) s) : False := by
  cases hcomparison with
  | comparison hname hoperator _ h₀ h₁ => exact not_spells_call hname hoperator h₀ h₁ hcall
  | blankLiteral hname hoperator _ _ h₀ h₁ => exact not_spells_call hname hoperator h₀ h₁ hcall

/-- A text is read as a form just if it spells it. -/
theorem readForm?_eq_some_iff {form : Form} : readForm? s = some form ↔ form.Spells s := by
  unfold readForm?
  constructor
  · intro h
    split at h
    · next hcall =>
      cases h
      exact (spells_of_readCall? hcall).2
    · exact spells_of_readComparison? h
  · intro h
    cases form with
    | call function name text => rw [readCall?_of_spells h]
    | comparison name operator literal =>
      -- a call is tried first, but what spells a comparison is none
      cases hcall : readCall? s with
      | none => exact readComparison?_of_spells h
      | some form =>
        obtain ⟨⟨function, name, text, rfl⟩, hspells⟩ := spells_of_readCall? hcall
        exact (not_spells_call_and_comparison hspells h).elim

/-- No text spells two forms. -/
theorem Form.Spells.unique {form form' : Form} (h : form.Spells s) (h' : form'.Spells s) :
    form = form' := by
  have hread := readForm?_eq_some_iff.2 h
  rw [readForm?_eq_some_iff.2 h'] at hread
  exact (Option.some.inj hread).symm

end ODataEngine.FilterOption
