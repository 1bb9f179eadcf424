import ODataEngine.Proofs.ExpandTheorems

/-!
# Places in an expand text

What a reader of an expand text keeps in mind is a place: whether it stands inside a quoted literal,
and behind how many open parentheses. Texts are followed from place to place character by character
(`Place.after`), which knows nothing of tokens; the lemmas here tie that to the tokens of the text:

* `scan_eq_putText`, `takeOption_putText`: a text that leads out of all literals and parentheses is
  taken off the tokens as one option;
* `after_takeOption`: what is taken off the tokens of a text as one option leads out of all literals
  and parentheses.
-/

namespace ODataEngine.Expand

/-! ## Places in a text -/

/-- A place in a text: inside a quoted literal or not, and behind how many open parentheses. -/
structure Place where
  inQuote : Bool := false
  depth : Nat := 0
deriving DecidableEq

namespace Place

/-- The place behind one more character. A quote enters or leaves a literal, so a doubled one stays
inside. Outside of literals a parenthesis can only close where one is open, and a semicolon can only
stand inside parentheses. -/
def step (p : Place) (c : Char) : Option Place :=
  if c = '\'' then some { p with inQuote := !p.inQuote }
  else if p.inQuote then some p
  else
    match c with
    | '(' => some { p with depth := p.depth + 1 }
    | ')' => if p.depth = 0 then none else some { p with depth := p.depth - 1 }
    | ';' => if p.depth = 0 then none else some p
    | _ => some p

/-- The place behind a text. -/
def after (p : Place) (s : List Char) : Option Place := s.foldlM step p

theorem after_cons_eq_some_iff {p p' : Place} {c : Char} {s : List Char} :
    p.after (c :: s) = some p' ↔ ∃ next, p.step c = some next ∧ next.after s = some p' := by
  rw [after, List.foldlM_cons, Option.bind_eq_bind, Option.bind_eq_some_iff]
  rfl

theorem after_append (p : Place) (s t : List Char) :
    p.after (s ++ t) = (p.after s).bind fun next => next.after t := by
  rw [after, List.foldlM_append, Option.bind_eq_bind]
  rfl

theorem after_append_eq_some_iff {p p' : Place} {s t : List Char} :
    p.after (s ++ t) = some p' ↔ ∃ next, p.after s = some next ∧ next.after t = some p' := by
  rw [after_append, Option.bind_eq_some_iff]

/-- What a character does at a place: it is punctuation, which may change the depth, or belongs to
the text around it, where a quote enters or leaves a literal. -/
theorem step_cases {p p' : Place} {c : Char} (h : p.step c = some p') :
    (∃ token d d', p = ⟨false, d⟩ ∧ p' = ⟨false, d'⟩ ∧ Token.ofPunctuation? c = some token ∧
        (token = .opening ∧ d' = d + 1 ∨ token = .closing ∧ d = d' + 1 ∨
          token = .semicolon ∧ d' = d ∧ d ≠ 0 ∨ token = .comma ∧ d' = d)) ∨
      (if p.inQuote then none else Token.ofPunctuation? c) = none ∧
        p' = ⟨p.inQuote != (c == '\''), p.depth⟩ := by
  obtain ⟨inQuote, d⟩ := p
  unfold step at h
  split at h
  · next hquote =>
    cases h
    rw [hquote]
    cases inQuote <;> exact .inr ⟨rfl, rfl⟩
  · next hquote =>
    have hquote : (c == '\'') = false := by simpa using hquote
    rw [hquote]
    cases inQuote with
    | true =>
      cases h
      exact .inr ⟨rfl, rfl⟩
    | false =>
      simp only [Bool.false_eq_true, if_false] at h ⊢
      split at h
      · cases h
        exact .inl ⟨.opening, d, d + 1, rfl, rfl, rfl, .inl ⟨rfl, rfl⟩⟩
      · split at h
        · cases h
        · next hd =>
          cases h
          exact .inl ⟨.closing, d, d - 1, rfl, rfl, rfl, .inr (.inl ⟨rfl, by omega⟩)⟩
      · split at h
        · cases h
        · next hd =>
          cases h
          exact .inl ⟨.semicolon, d, d, rfl, rfl, rfl, .inr (.inr (.inl ⟨rfl, rfl, hd⟩))⟩
      · next hopening hclosing hsemicolon =>
        cases h
        by_cases hcomma : c = ','
        · exact .inl ⟨.comma, d, d, rfl, rfl, by rw [hcomma]; rfl, .inr (.inr (.inr ⟨rfl, rfl⟩))⟩
        · refine .inr ⟨?_, rfl⟩
          unfold Token.ofPunctuation?
          split
          · exact absurd rfl hopening
          · exact absurd rfl hclosing
          · exact absurd rfl hcomma
          · exact absurd rfl hsemicolon
          · rfl

/-- A text none of whose characters moves a place does not move it as a whole. -/
theorem after_eq_self {p : Place} {s : List Char} (h : ∀ c ∈ s, p.step c = some p) :
    p.after s = some p := by
  induction s with
  | nil => rfl
  | cons c rest ih =>
    obtain ⟨hc, hrest⟩ := List.forall_mem_cons.1 h
    exact after_cons_eq_some_iff.2 ⟨p, hc, ih hrest⟩

/-- Only quotes, parentheses and semicolons matter to a place. -/
theorem step_eq_self (p : Place) {c : Char} (h : "'();".toList.contains c = false) :
    p.step c = some p := by
  have hne : ∀ d ∈ "'();".toList, c ≠ d := by
    rintro d hd rfl
    rw [List.contains_iff_mem.2 hd] at h
    cases h
  unfold step
  rw [if_neg (hne '\'' (by decide))]
  split
  · rfl
  · split
    · exact absurd rfl (hne '(' (by decide))
    · exact absurd rfl (hne ')' (by decide))
    · exact absurd rfl (hne ';' (by decide))
    · rfl

theorem step_eq_self_of_plain (p : Place) {c : Char} (hquote : c ≠ '\'')
    (hplain : Token.ofPunctuation? c = none) : p.step c = some p := by
  refine p.step_eq_self (Bool.eq_false_iff.2 fun hmem => ?_)
  have hcases : c = '\'' ∨ c = '(' ∨ c = ')' ∨ c = ';' := by simpa using hmem
  rcases hcases with rfl | rfl | rfl | rfl
  · exact hquote rfl
  all_goals cases hplain

/-- Blanks do not move a place. -/
theorem after_blanks (p : Place) {b : List Char} (hb : Text.allBlank b = true) :
    p.after b = some p := by
  refine after_eq_self fun c hc => ?_
  obtain ⟨hplain, hquote⟩ := isBlank_ne_punctuation (Text.allBlank_iff.1 hb c hc)
  exact p.step_eq_self_of_plain hquote hplain

/-- Trimming a text does not change how it moves a place. -/
theorem after_trim (p : Place) (s : List Char) : p.after (Text.trim s) = p.after s := by
  obtain ⟨b, b', hb, hb', hs⟩ := Text.exists_eq_trim s
  have hbehind : (fun next : Place => next.after b') = some :=
    funext fun next => next.after_blanks hb'
  have hall : p.after (b ++ Text.trim s ++ b') = p.after (Text.trim s) := by
    rw [after_append, after_append, p.after_blanks hb, Option.bind_some, hbehind,
      Option.bind_fun_some]
  rw [← hall, ← hs]

/-- A text moves a place in the same way behind further open parentheses. -/
theorem after_deeper {p p' : Place} {s : List Char} (h : p.after s = some p') (n : Nat) :
    Place.after ⟨p.inQuote, p.depth + n⟩ s = some ⟨p'.inQuote, p'.depth + n⟩ := by
  induction s generalizing p with
  | nil =>
    cases h
    rfl
  | cons c rest ih =>
    obtain ⟨next, hstep, hrest⟩ := after_cons_eq_some_iff.1 h
    refine after_cons_eq_some_iff.2 ⟨_, ?_, ih hrest⟩
    unfold step at hstep ⊢
    split at hstep
    · next hquote =>
      cases hstep
      rw [if_pos hquote]
    · next hquote =>
      rw [if_neg hquote]
      split at hstep
      · next hin =>
        cases hstep
        rw [if_pos hin]
      · next hin =>
        rw [if_neg hin]
        split at hstep
        · cases hstep
          simp only [Nat.add_right_comm]
        · split at hstep
          · cases hstep
          · next hd =>
            cases hstep
            simp only [show p.depth + n ≠ 0 by omega, if_false]
            congr 2
            omega
        · split at hstep
          · cases hstep
          · next hd =>
            cases hstep
            simp only [show p.depth + n ≠ 0 by omega, if_false]
        · cases hstep
          rfl

/-- Texts that lead back to a place do so with a separator between them that does not move it. -/
theorem after_intercalate {p : Place} {sep : Char} (hsep : p.step sep = some p)
    {parts : List (List Char)} (hparts : ∀ s ∈ parts, p.after s = some p) :
    p.after ([sep].intercalate parts) = some p := by
  induction parts with
  | nil => rfl
  | cons s rest ih =>
    obtain ⟨hs, hrest⟩ := List.forall_mem_cons.1 hparts
    cases rest with
    | nil => rwa [List.intercalate_singleton]
    | cons t rest =>
      rw [Text.intercalate_cons_cons]
      exact after_append_eq_some_iff.2 ⟨p, hs, after_cons_eq_some_iff.2 ⟨p, hsep, ih hrest⟩⟩

end Place

/-- The text can stand as a whole in the options of an item: every literal closes, parentheses pair
up outside of literals, and no semicolon stands outside of all parentheses. -/
def isWhole (s : List Char) : Bool := Place.after {} s == some {}

theorem isWhole_iff {s : List Char} :
    isWhole s = true ↔ Place.after ⟨false, 0⟩ s = some ⟨false, 0⟩ :=
  beq_iff_eq

/-! ## Tokens of a text that is whole -/

namespace Token

/-- Puts a text in front of tokens; `inQuote` tells whether it begins inside a literal. -/
def putText (inQuote : Bool) : List Char → List Token → List Token
  | [], tokens => tokens
  | c :: rest, tokens =>
    match if inQuote then none else ofPunctuation? c with
    | some token => token :: putText false rest tokens
    | none => consText c (putText (inQuote != (c == '\'')) rest tokens)

/-- A text whose literals close is scanned to the tokens that it puts in front of none. -/
theorem scan_eq_putText {p p' : Place} {s : List Char} (h : p.after s = some p')
    (hclosed : p'.inQuote = false) : scan p.inQuote s = some (putText p.inQuote s []) := by
  induction s generalizing p with
  | nil =>
    cases h
    rw [scan, hclosed]
    rfl
  | cons c rest ih =>
    obtain ⟨next, hstep, hrest⟩ := Place.after_cons_eq_some_iff.1 h
    have hscan := ih hrest
    unfold scan putText
    rcases Place.step_cases hstep with ⟨token, d, d', rfl, rfl, htoken, -⟩ | ⟨hnone, rfl⟩
    · simp only [Bool.false_eq_true, if_false, htoken, hscan, Option.map_some]
    · simp only [hnone, hscan, Option.map_some]

theorem putText_append {p p' : Place} {s : List Char} (h : p.after s = some p') (t : List Char)
    (tokens : List Token) :
    putText p.inQuote (s ++ t) tokens = putText p.inQuote s (putText p'.inQuote t tokens) := by
  induction s generalizing p with
  | nil =>
    cases h
    rfl
  | cons c rest ih =>
    obtain ⟨next, hstep, hrest⟩ := Place.after_cons_eq_some_iff.1 h
    have htail := ih hrest
    rw [List.cons_append]
    unfold putText
    rcases Place.step_cases hstep with ⟨token, d, d', rfl, rfl, htoken, -⟩ | ⟨hnone, rfl⟩
    · simp only [Bool.false_eq_true, if_false, htoken, htail]
    · simp only [hnone, htail]

/-- Plain text goes into the token behind it. -/
theorem putText_plain {name : List Char}
    (hplain : ∀ c ∈ name, c ≠ '\'' ∧ ofPunctuation? c = none) (tokens : List Token) :
    putText false name tokens = name.foldr consText tokens := by
  induction name with
  | nil => rfl
  | cons c rest ih =>
    obtain ⟨⟨hquote, hnone⟩, hrest⟩ := List.forall_mem_cons.1 hplain
    unfold putText
    rw [if_neg Bool.false_ne_true, hnone, beq_false_of_ne hquote]
    exact congrArg (consText c) (ih hrest)

/-- Plain text in front of punctuation, or of nothing, is one token. -/
theorem putText_name {name : List Char} (hname : name ≠ [])
    (hplain : ∀ c ∈ name, c ≠ '\'' ∧ ofPunctuation? c = none) {tokens : List Token}
    (htokens : ∀ chars rest, tokens ≠ .text chars :: rest) :
    putText false name tokens = .text name :: tokens := by
  rw [putText_plain hplain, foldr_consText hname htokens]

end Token

/-! ## Taking an option off -/

/-- A character in front of some tokens is taken with what follows it. -/
theorem takeOption_consText (depth : Nat) (c : Char) (tokens : List Token) :
    takeOption depth (Token.consText c tokens)
      = (c :: (takeOption depth tokens).1, (takeOption depth tokens).2) := by
  cases tokens with
  | nil => rfl
  | cons t rest => cases t <;> rfl

/-- A text that is whole is taken off as an option, up to the punctuation behind it. -/
theorem takeOption_putText {p : Place} {s : List Char} (h : p.after s = some ⟨false, 0⟩)
    {t : Token} (ht : t = .closing ∨ t = .semicolon) (rest : List Token) :
    takeOption p.depth (Token.putText p.inQuote s (t :: rest)) = (s, t :: rest) := by
  induction s generalizing p with
  | nil =>
    cases h
    rcases ht with rfl | rfl <;> rfl
  | cons c s ih =>
    obtain ⟨next, hstep, hrest⟩ := Place.after_cons_eq_some_iff.1 h
    have htake := ih hrest
    unfold Token.putText
    rcases Place.step_cases hstep with ⟨token, d, d', rfl, rfl, htoken, hdepth⟩ | ⟨hnone, rfl⟩
    · have hlexeme := Token.lexeme_of_ofPunctuation? htoken
      simp only [Bool.false_eq_true, if_false, htoken]
      rcases hdepth with ⟨rfl, rfl⟩ | ⟨rfl, rfl⟩ | ⟨rfl, rfl, hd⟩ | ⟨rfl, rfl⟩
      · simp only [takeOption, htake, hlexeme, List.singleton_append]
      · simp only [takeOption, Nat.succ_ne_zero, if_false, Nat.add_sub_cancel, htake, hlexeme,
          List.singleton_append]
      · simp only [takeOption, hd, if_false, htake, hlexeme, List.singleton_append]
      · simp only [takeOption, htake, hlexeme, List.singleton_append]
    · simp only [hnone]
      rw [takeOption_consText, htake]

/-! ## Tokens that were scanned -/

namespace Token

/-- The text holds no punctuation outside of literals, and leaves no literal open. -/
def isStretch (inQuote : Bool) : List Char → Bool
  | [] => !inQuote
  | c :: rest =>
    (if inQuote then none else ofPunctuation? c).isNone && isStretch (inQuote != (c == '\'')) rest

/-- Tokens as they come from scanning a text: punctuation, and stretches of text without. Where the
text begins inside a literal, the first token does. -/
inductive Scanned : Bool → List Token → Prop
  | nil : Scanned false []
  | text {inQuote : Bool} {chars : List Char} {rest : List Token}
    (h : isStretch inQuote chars = true) (hrest : Scanned false rest) :
    Scanned inQuote (.text chars :: rest)
  | punctuation {token : Token} {rest : List Token} (h : ∀ chars, token ≠ .text chars)
    (hrest : Scanned false rest) : Scanned false (token :: rest)

theorem ne_text_of_ofPunctuation? {c : Char} {token : Token} (h : ofPunctuation? c = some token)
    (chars : List Char) : token ≠ .text chars := by
  rintro rfl
  unfold ofPunctuation? at h
  split at h <;> cases h

theorem Scanned.tail {t : Token} {rest : List Token} (h : Scanned false (t :: rest)) :
    Scanned false rest := by
  cases h with
  | text _ hrest => exact hrest
  | punctuation _ hrest => exact hrest

theorem Scanned.of_suffix {tokens rest : List Token} (h : Scanned false tokens)
    (hrest : rest <:+ tokens) : Scanned false rest := by
  obtain ⟨front, rfl⟩ := hrest
  induction front with
  | nil => exact h
  | cons t front ih => exact ih h.tail

theorem Scanned.head {chars : List Char} {rest : List Token}
    (h : Scanned false (.text chars :: rest)) : isStretch false chars = true := by
  cases h with
  | text hstretch _ => exact hstretch
  | punctuation hpunctuation _ => exact absurd rfl (hpunctuation chars)

theorem Scanned.consText {inQuote : Bool} {c : Char}
    (hc : (if inQuote then none else ofPunctuation? c) = none) {tokens : List Token}
    (h : Scanned (inQuote != (c == '\'')) tokens) : Scanned inQuote (consText c tokens) := by
  have hnew : ∀ {tokens}, (inQuote != (c == '\'')) = false → Scanned false tokens →
      Scanned inQuote (.text [c] :: tokens) :=
    fun hout htokens => .text (by simp [isStretch, hc, hout]) htokens
  generalize hout : (inQuote != (c == '\'')) = out at h
  cases h with
  | nil => exact hnew hout .nil
  | text hstretch hrest =>
    refine .text ?_ hrest
    rw [isStretch, hc, hout, hstretch]
    rfl
  | @punctuation token rest hpunctuation hrest =>
    have htokens : Scanned false (token :: rest) := .punctuation hpunctuation hrest
    cases token with
    | text chars => exact absurd rfl (hpunctuation chars)
    | _ => exact hnew hout htokens

/-- How a character is scanned: as punctuation outside of literals, or into the token behind it. -/
theorem scan_cons_cases {inQuote : Bool} {c : Char} {s : List Char} {tokens : List Token}
    (h : scan inQuote (c :: s) = some tokens) :
    (∃ t rest, inQuote = false ∧ ofPunctuation? c = some t ∧ scan false s = some rest ∧
        tokens = t :: rest) ∨
      ∃ rest, (if inQuote then none else ofPunctuation? c) = none ∧
        scan (inQuote != (c == '\'')) s = some rest ∧ tokens = consText c rest := by
  unfold scan at h
  split at h
  · next t ht =>
    obtain ⟨rest, hrest, rfl⟩ := Option.map_eq_some_iff.1 h
    left
    cases inQuote with
    | true => cases ht
    | false => exact ⟨t, rest, rfl, ht, hrest, rfl⟩
  · next hnone =>
    obtain ⟨rest, hrest, rfl⟩ := Option.map_eq_some_iff.1 h
    exact .inr ⟨rest, hnone, hrest, rfl⟩

theorem scan_nil_eq_some_iff {inQuote : Bool} {tokens : List Token} :
    scan inQuote [] = some tokens ↔ inQuote = false ∧ tokens = [] := by
  cases inQuote with
  | true => exact ⟨nofun, nofun⟩
  | false =>
    rw [scan, if_neg Bool.false_ne_true, Option.some.injEq, eq_comm]
    exact ⟨fun h => ⟨rfl, h⟩, fun h => h.2⟩

theorem scanned_of_scan {inQuote : Bool} {s : List Char} {tokens : List Token}
    (h : scan inQuote s = some tokens) : Scanned inQuote tokens := by
  induction s generalizing inQuote tokens with
  | nil =>
    obtain ⟨rfl, rfl⟩ := scan_nil_eq_some_iff.1 h
    exact .nil
  | cons c s ih =>
    rcases scan_cons_cases h with ⟨t, rest, rfl, ht, hrest, rfl⟩ | ⟨rest, hnone, hrest, rfl⟩
    · exact .punctuation (ne_text_of_ofPunctuation? ht) (ih hrest)
    · exact (ih hrest).consText hnone

/-- A stretch of text closes the literal that it begins in, and leaves the depth as it is. -/
theorem after_of_isStretch {inQuote : Bool} {chars : List Char}
    (h : isStretch inQuote chars = true) (d : Nat) :
    Place.after ⟨inQuote, d⟩ chars = some ⟨false, d⟩ := by
  induction chars generalizing inQuote with
  | nil =>
    cases inQuote with
    | true => cases h
    | false => rfl
  | cons c rest ih =>
    rw [isStretch, Bool.and_eq_true, Option.isNone_iff_eq_none] at h
    refine Place.after_cons_eq_some_iff.2 ⟨⟨inQuote != (c == '\''), d⟩, ?_, ih h.2⟩
    by_cases hquote : c = '\''
    · rw [hquote]
      cases inQuote <;> rfl
    · have hc : (c == '\'') = false := by simpa using hquote
      rw [hc, Bool.bne_false]
      cases inQuote with
      | true => simp only [Place.step, hquote, if_false, if_true]
      | false => exact Place.step_eq_self_of_plain _ hquote h.1

/-- A stretch without quotes holds no punctuation at all. -/
theorem plain_of_isStretch {chars : List Char} (h : isStretch false chars = true)
    (hquote : '\'' ∉ chars) : ∀ c ∈ chars, ofPunctuation? c = none := by
  induction chars with
  | nil => simp
  | cons c rest ih =>
    rw [List.mem_cons, not_or] at hquote
    have hc : (c == '\'') = false := by simpa using Ne.symm hquote.1
    rw [isStretch, hc, Bool.and_eq_true, Option.isNone_iff_eq_none] at h
    exact List.forall_mem_cons.2 ⟨h.1, ih h.2 hquote.2⟩

end Token

/-- The text of an option that was taken off leads out of all literals and parentheses. -/
theorem after_takeOption {tokens : List Token} (h : Token.Scanned false tokens) {depth : Nat}
    {t : Token} {rest : List Token} (hrest : (takeOption depth tokens).2 = t :: rest) :
    Place.after ⟨false, depth⟩ (takeOption depth tokens).1 = some ⟨false, 0⟩ ∧
      Token.Scanned false (t :: rest) := by
  induction tokens generalizing depth with
  | nil => cases hrest
  | cons u tokens ih =>
    have htail := h.tail
    cases u with
    | text chars =>
      have hchars := Token.after_of_isStretch h.head depth
      simp only [takeOption] at hrest ⊢
      obtain ⟨hafter, hscanned⟩ := ih htail hrest
      exact ⟨Place.after_append_eq_some_iff.2 ⟨_, hchars, hafter⟩, hscanned⟩
    | opening =>
      simp only [takeOption] at hrest ⊢
      obtain ⟨hafter, hscanned⟩ := ih htail hrest
      exact ⟨Place.after_cons_eq_some_iff.2 ⟨_, rfl, hafter⟩, hscanned⟩
    | comma =>
      simp only [takeOption] at hrest ⊢
      obtain ⟨hafter, hscanned⟩ := ih htail hrest
      exact ⟨Place.after_cons_eq_some_iff.2 ⟨_, rfl, hafter⟩, hscanned⟩
    | closing =>
      simp only [takeOption] at hrest ⊢
      split at hrest
      · next hd =>
        cases hrest
        rw [if_pos hd, hd]
        exact ⟨rfl, h⟩
      · next hd =>
        obtain ⟨hafter, hscanned⟩ := ih htail hrest
        rw [if_neg hd]
        refine ⟨Place.after_cons_eq_some_iff.2 ⟨⟨false, depth - 1⟩, ?_, hafter⟩, hscanned⟩
        simp [Place.step, hd]
    | semicolon =>
      simp only [takeOption] at hrest ⊢
      split at hrest
      · next hd =>
        cases hrest
        rw [if_pos hd, hd]
        exact ⟨rfl, h⟩
      · next hd =>
        obtain ⟨hafter, hscanned⟩ := ih htail hrest
        rw [if_neg hd]
        refine ⟨Place.after_cons_eq_some_iff.2 ⟨⟨false, depth⟩, ?_, hafter⟩, hscanned⟩
        simp [Place.step, hd]

end ODataEngine.Expand
