import Mathlib.Data.List.Induction
import ODataEngine.Proofs.PlaceTheorems

/-!
# Literals left open in an expand text

What stands outside of the quoted literals of a text is said without a reader (`Closed`), and the
tokens of an expand text follow it:

- `Token.scan_eq_none_iff`, `unclosed_iff`: a text has tokens unless its last literal is not closed;
- `Token.exists_of_punctuation`, `Token.isInside_of_punctuation`: the tokens that are not text are
  the punctuation outside of literals.
-/

namespace ODataEngine.Expand

open Text

/-! ## Quotes in a text -/

/-- Text that leaves no quoted literal open: the quotes in it enclose literals, inside of which a
quote is written twice. -/
inductive Closed : List Char → Prop
  | nil : Closed []
  | char {s : List Char} {c : Char} (h : Closed s) (hc : c ≠ '\'') : Closed (s ++ [c])
  | literal {s : List Char} (h : Closed s) (t : List Char) :
    Closed (s ++ '\'' :: doubleQuotes t ++ ['\''])

/-- Text whose last literal is not closed. -/
def Unclosed (s : List Char) : Prop :=
  ∃ before t, Closed before ∧ s = before ++ '\'' :: doubleQuotes t

/-- Whether the end of a text is inside of a literal, where `inQuote` tells it of the beginning. -/
def isInside (inQuote : Bool) (s : List Char) : Bool :=
  s.foldl (fun inQuote c => inQuote != (c == '\'')) inQuote

theorem isInside_cons (inQuote : Bool) (c : Char) (s : List Char) :
    isInside inQuote (c :: s) = isInside (inQuote != (c == '\'')) s := rfl

theorem isInside_append (inQuote : Bool) (s t : List Char) :
    isInside inQuote (s ++ t) = isInside (isInside inQuote s) t :=
  List.foldl_append

theorem isInside_doubleQuotes (inQuote : Bool) (t : List Char) :
    isInside inQuote (doubleQuotes t) = inQuote := by
  induction t with
  | nil => rfl
  | cons c rest ih =>
    unfold doubleQuotes
    by_cases hc : c = '\''
    · rw [if_pos hc, isInside_cons, isInside_cons]
      cases inQuote <;> exact ih
    · have hplain : (c == '\'') = false := by simpa using hc
      rw [if_neg hc, isInside_cons, hplain, Bool.bne_false, ih]

theorem doubleQuotes_append (s t : List Char) :
    doubleQuotes (s ++ t) = doubleQuotes s ++ doubleQuotes t := by
  induction s with
  | nil => rfl
  | cons c rest ih =>
    rw [List.cons_append, doubleQuotes, doubleQuotes, ih]
    by_cases hc : c = '\''
    · rw [if_pos hc, if_pos hc]
      rfl
    · rw [if_neg hc, if_neg hc]
      rfl

theorem Closed.isInside {s : List Char} (h : Closed s) : isInside false s = false := by
  induction h with
  | nil => rfl
  | char _ hc ih =>
    rw [isInside_append, ih]
    simpa [Expand.isInside] using hc
  | literal _ t ih =>
    have hopen : Expand.isInside false ('\'' :: doubleQuotes t) = true := by
      rw [isInside_cons, isInside_doubleQuotes]
      rfl
    rw [isInside_append, isInside_append, ih, hopen]
    rfl

/-- A text leaves a literal open or not, as its end is inside of one or not. -/
theorem closed_or_unclosed (s : List Char) :
    isInside false s = false ∧ Closed s ∨ isInside false s = true ∧ Unclosed s := by
  induction s using List.reverseRecOn with
  | nil => exact .inl ⟨rfl, .nil⟩
  | append_singleton s c ih =>
    -- a quote closes the open literal or opens one, any other character leaves that as it is
    rw [isInside_append]
    rcases ih with ⟨hin, hclosed⟩ | ⟨hin, before, t, hbefore, rfl⟩
    · rw [hin]
      by_cases hc : c = '\''
      · right
        rw [hc]
        exact ⟨rfl, s, [], hclosed, rfl⟩
      · left
        exact ⟨by simpa [isInside] using hc, hclosed.char hc⟩
    · rw [hin]
      by_cases hc : c = '\''
      · left
        rw [hc]
        exact ⟨rfl, hbefore.literal t⟩
      · right
        have hplain : doubleQuotes [c] = [c] := if_neg hc
        refine ⟨by simpa [isInside] using hc, before, t ++ [c], hbefore, ?_⟩
        rw [doubleQuotes_append, hplain, List.append_assoc]
        rfl

theorem closed_iff {s : List Char} : Closed s ↔ isInside false s = false := by
  constructor
  · exact Closed.isInside
  · intro h
    rcases closed_or_unclosed s with ⟨-, hclosed⟩ | ⟨hin, -⟩
    · exact hclosed
    · rw [h] at hin
      cases hin

theorem unclosed_iff {s : List Char} : Unclosed s ↔ isInside false s = true := by
  constructor
  · intro h
    obtain ⟨before, t, hbefore, rfl⟩ := h
    rw [isInside_append, hbefore.isInside, isInside_cons, isInside_doubleQuotes]
    rfl
  · intro h
    rcases closed_or_unclosed s with ⟨hin, -⟩ | ⟨-, hunclosed⟩
    · rw [h] at hin
      cases hin
    · exact hunclosed

/-! ## Tokens -/

namespace Token

theorem ne_quote_of_ofPunctuation? {c : Char} {t : Token} (h : ofPunctuation? c = some t) :
    (c == '\'') = false := by
  apply beq_false_of_ne
  intro hc
  rw [hc] at h
  cases h

theorem scan_punctuation {c : Char} {t : Token} (hc : ofPunctuation? c = some t)
    (s : List Char) : scan false (c :: s) = (scan false s).map (t :: ·) := by
  rw [scan, if_neg Bool.false_ne_true, hc]

/-- A text is scanned unless its end is inside of a literal. -/
theorem scan_eq_none_iff {inQuote : Bool} {s : List Char} :
    scan inQuote s = none ↔ isInside inQuote s = true := by
  induction s generalizing inQuote with
  | nil => cases inQuote <;> simp [scan, isInside]
  | cons c rest ih =>
    rw [isInside_cons]
    by_cases hpunctuation : inQuote = false ∧ (ofPunctuation? c).isSome
    · obtain ⟨rfl, hc⟩ := hpunctuation
      obtain ⟨t, hc⟩ := Option.isSome_iff_exists.1 hc
      rw [scan_punctuation hc, Option.map_eq_none_iff, ih, ne_quote_of_ofPunctuation? hc]
      rfl
    · have htext : (if inQuote then none else ofPunctuation? c) = none := by
        cases inQuote with
        | true => rfl
        | false => simpa using hpunctuation
      rw [scan, htext]
      exact Option.map_eq_none_iff.trans ih

theorem exists_append_of_consText {c : Char} {tokens front back : List Token} {t : Token}
    (ht : ∀ chars, t ≠ .text chars) (h : consText c tokens = front ++ t :: back) :
    ∃ front', tokens = front' ++ t :: back ∧ spell front = c :: spell front' := by
  cases front with
  | nil =>
    unfold consText at h
    split at h
    · exact absurd (List.cons.inj h).1.symm (ht _)
    · exact absurd (List.cons.inj h).1.symm (ht _)
  | cons first front =>
    unfold consText at h
    split at h
    · next chars rest =>
      obtain ⟨rfl, rfl⟩ := List.cons.inj h
      exact ⟨.text chars :: front, rfl, rfl⟩
    · obtain ⟨rfl, rfl⟩ := List.cons.inj h
      exact ⟨front, rfl, rfl⟩

theorem consText_append {c : Char} {front back : List Token} {t : Token}
    (ht : ∀ chars, t ≠ .text chars) :
    consText c (front ++ t :: back) = consText c front ++ t :: back := by
  cases front with
  | nil => cases t <;> first | rfl | exact absurd rfl (ht _)
  | cons first front => cases first <;> rfl

/-- Punctuation outside of literals is a token. -/
theorem exists_of_punctuation {inQuote : Bool} {before after : List Char} {c : Char}
    {t : Token} (hc : ofPunctuation? c = some t) (hin : isInside inQuote before = false)
    {tokens : List Token} (h : scan inQuote (before ++ c :: after) = some tokens) :
    ∃ front back, tokens = front ++ t :: back ∧ spell front = before ∧ spell back = after := by
  induction before generalizing inQuote tokens with
  | nil =>
    have hout : inQuote = false := hin
    rw [List.nil_append, hout, scan_punctuation hc] at h
    obtain ⟨back, hback, rfl⟩ := Option.map_eq_some_iff.1 h
    exact ⟨[], back, rfl, rfl, spell_scan hback⟩
  | cons d before ih =>
    rw [isInside_cons] at hin
    rcases scan_cons_cases h with ⟨u, rest, rfl, hd, hrest, rfl⟩ | ⟨rest, -, hrest, rfl⟩
    · rw [ne_quote_of_ofPunctuation? hd] at hin
      obtain ⟨front, back, rfl, hfront, hback⟩ := ih hin hrest
      refine ⟨u :: front, back, rfl, ?_, hback⟩
      rw [spell_cons, lexeme_of_ofPunctuation? hd, hfront]
      rfl
    · obtain ⟨front, back, rfl, hfront, hback⟩ := ih hin hrest
      rw [consText_append (ne_text_of_ofPunctuation? hc)]
      refine ⟨consText d front, back, rfl, ?_, hback⟩
      rw [spell_consText, hfront]

/-- A token of punctuation stands outside of literals. -/
theorem isInside_of_punctuation {t : Token} (ht : ∀ chars, t ≠ .text chars) {inQuote : Bool}
    {s : List Char} {front back : List Token} (h : scan inQuote s = some (front ++ t :: back)) :
    isInside inQuote (spell front) = false ∧ ∃ c, ofPunctuation? c = some t := by
  induction s generalizing inQuote front with
  | nil => cases front <;> cases (scan_nil_eq_some_iff.1 h).2
  | cons c s ih =>
    rcases scan_cons_cases h with ⟨u, rest, rfl, hc, hrest, heq⟩ | ⟨rest, -, hrest, heq⟩
    · cases front with
      | nil =>
        rw [(List.cons.inj heq).1]
        exact ⟨rfl, c, hc⟩
      | cons first front =>
        obtain ⟨rfl, rfl⟩ := List.cons.inj heq
        rw [spell_cons, lexeme_of_ofPunctuation? hc, List.singleton_append, isInside_cons,
          ne_quote_of_ofPunctuation? hc]
        exact ih hrest
    · obtain ⟨front', rfl, hspell⟩ := exists_append_of_consText ht heq.symm
      rw [hspell, isInside_cons]
      exact ih hrest

/-- No token is empty. -/
theorem lexeme_ne_nil_of_scan {inQuote : Bool} {s : List Char} {tokens : List Token}
    (h : scan inQuote s = some tokens) : ∀ t ∈ tokens, t.lexeme ≠ [] := by
  induction s generalizing inQuote tokens with
  | nil =>
    rw [(scan_nil_eq_some_iff.1 h).2]
    exact nofun
  | cons c s ih =>
    rcases scan_cons_cases h with ⟨t, rest, -, hc, hrest, rfl⟩ | ⟨rest, -, hrest, rfl⟩
    · refine List.forall_mem_cons.2 ⟨?_, ih hrest⟩
      rw [lexeme_of_ofPunctuation? hc]
      exact List.cons_ne_nil _ _
    · have hlexemes := ih hrest
      unfold consText
      split
      · exact List.forall_mem_cons.2
          ⟨List.cons_ne_nil _ _, (List.forall_mem_cons.1 hlexemes).2⟩
      · exact List.forall_mem_cons.2 ⟨List.cons_ne_nil _ _, hlexemes⟩

end Token

end ODataEngine.Expand
