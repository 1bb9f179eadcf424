import ODataEngine.Proofs.PieceTheorems

/-!
# Pieces tile an expand text

What the pieces of an expand text are, apart from how they are found (`Tiles`): they cover the text
without gaps, have their borders between characters, and are punctuation exactly where a punctuation
byte stands outside of literals.

- `mem_places_iff`: a token stands behind the lexemes of the tokens in front of it;
- `tiles_places`: the pieces of a text tile it.
-/

namespace ODataEngine.Expand

open Text

/-! ## What the pieces of a text are -/

/-- The pieces stand one behind the other from one offset to another, and none of them is empty. -/
def Covers (start stop : Nat) : List Piece → Prop
  | [] => start = stop
  | p :: rest => p.start = start ∧ p.start < p.stop ∧ Covers p.stop stop rest

/-- The offset stands between characters, outside of all literals. -/
def OutsideLiterals (s : List Char) (i : Nat) : Prop :=
  ∃ before after, s = before ++ after ∧ byteSize before = i ∧ Closed before

/-- The pieces cover the text, have their borders between characters, and are punctuation exactly
where a punctuation byte stands outside of literals. -/
structure Tiles (s : List Char) (pieces : List Piece) : Prop where
  covers : Covers 0 (byteSize s) pieces
  borders : ∀ p ∈ pieces,
    isBorder (bytesOf s) p.start = true ∧ isBorder (bytesOf s) p.stop = true
  punctuation : ∀ p, p.kind ≠ .text →
    (p ∈ pieces ↔ p.stop = p.start + 1 ∧ (bytesOf s)[p.start]?.bind Kind.ofByte? = some p.kind ∧
      OutsideLiterals s p.start)

theorem mem_places {s : List Char} {tokens : List Token} {p : Piece} :
    p ∈ places s tokens ↔ ∃ front t back, tokens = front ++ t :: back ∧
      p = ⟨t.kind, offsetOf s (Token.spell (t :: back)), offsetOf s (Token.spell back)⟩ := by
  induction tokens with
  | nil =>
    constructor
    · exact nofun
    · intro h
      obtain ⟨front, t, back, h, -⟩ := h
      cases front <;> cases h
  | cons t rest ih =>
    rw [places, List.mem_cons, ih]
    constructor
    · intro h
      rcases h with rfl | ⟨front, u, back, rfl, rfl⟩
      · exact ⟨[], t, rest, rfl, rfl⟩
      · exact ⟨t :: front, u, back, rfl, rfl⟩
    · intro h
      obtain ⟨front, u, back, h, rfl⟩ := h
      cases front with
      | nil =>
        obtain ⟨rfl, rfl⟩ := List.cons.inj h
        exact .inl rfl
      | cons v front =>
        obtain ⟨rfl, rfl⟩ := List.cons.inj h
        exact .inr ⟨front, u, back, rfl, rfl⟩

theorem covers_places {s : List Char} {tokens : List Token} (hne : ∀ t ∈ tokens, t.lexeme ≠ [])
    (hs : Token.spell tokens <:+ s) :
    Covers (offsetOf s (Token.spell tokens)) (byteSize s) (places s tokens) := by
  induction tokens with
  | nil => rfl
  | cons t rest ih =>
    obtain ⟨ht, hrest⟩ := List.forall_mem_cons.1 hne
    have htail : Token.spell rest <:+ s := (List.suffix_append _ _).trans hs
    obtain ⟨before, rfl⟩ := hs
    have hpos := byteSize_pos ht
    refine ⟨rfl, ?_, ih hrest htail⟩
    show offsetOf _ _ < offsetOf _ _
    rw [offsetOf_append, Token.spell_cons, ← List.append_assoc, offsetOf_append, byteSize_append]
    omega

theorem spell_append_cons (front : List Token) (t : Token) (back : List Token) :
    Token.spell (front ++ t :: back) = Token.spell front ++ t.lexeme ++ Token.spell back := by
  rw [List.append_assoc]
  exact List.flatMap_append

/-- A token stands behind the lexemes in front of it. -/
theorem mem_places_iff {s : List Char} {tokens : List Token} (hs : Token.spell tokens = s)
    {p : Piece} : p ∈ places s tokens ↔ ∃ front t back, tokens = front ++ t :: back ∧
      p = ⟨t.kind, byteSize (Token.spell front), byteSize (Token.spell front ++ t.lexeme)⟩ := by
  have hplace : ∀ front t back, tokens = front ++ t :: back →
      offsetOf s (Token.spell (t :: back)) = byteSize (Token.spell front) ∧
        offsetOf s (Token.spell back) = byteSize (Token.spell front ++ t.lexeme) := by
    intro front t back htokens
    rw [← hs, htokens, spell_append_cons, offsetOf_append, Token.spell_cons, List.append_assoc,
      offsetOf_append]
    exact ⟨rfl, rfl⟩
  rw [mem_places]
  constructor
  · intro h
    obtain ⟨front, t, back, htokens, rfl⟩ := h
    obtain ⟨hstart, hstop⟩ := hplace front t back htokens
    exact ⟨front, t, back, htokens, by rw [hstart, hstop]⟩
  · intro h
    obtain ⟨front, t, back, htokens, rfl⟩ := h
    obtain ⟨hstart, hstop⟩ := hplace front t back htokens
    exact ⟨front, t, back, htokens, by rw [hstart, hstop]⟩

/-- A piece of punctuation is a punctuation byte outside of literals. -/
theorem outside_of_mem_places {s : List Char} {tokens : List Token}
    (h : Token.scan false s = some tokens) {p : Piece} (hkind : p.kind ≠ .text)
    (hp : p ∈ places s tokens) :
    p.stop = p.start + 1 ∧ (bytesOf s)[p.start]?.bind Kind.ofByte? = some p.kind ∧
      OutsideLiterals s p.start := by
  have hspell := Token.spell_scan h
  obtain ⟨front, t, back, rfl, rfl⟩ := (mem_places_iff hspell).1 hp
  have hparts : s = Token.spell front ++ (t.lexeme ++ Token.spell back) := by
    rw [← hspell, spell_append_cons, List.append_assoc]
  have ht : ∀ chars, t ≠ .text chars := by
    intro chars hchars
    rw [hchars] at hkind
    exact hkind rfl
  obtain ⟨hin, c, hc⟩ := Token.isInside_of_punctuation ht h
  obtain ⟨b, hbytes, hbyte⟩ := utf8EncodeChar_of_punctuation hc
  rw [Token.lexeme_of_ofPunctuation? hc] at hparts ⊢
  refine ⟨byteSize_append_punctuation hc _, ?_, Token.spell front, _, hparts, rfl,
    closed_iff.2 hin⟩
  rw [hparts, getElem?_byteSize, List.singleton_append, bytesOf_cons, hbytes]
  exact hbyte

/-- A punctuation byte outside of literals is a piece. -/
theorem mem_places_of_outside {s : List Char} {tokens : List Token}
    (h : Token.scan false s = some tokens) {p : Piece} (hstop : p.stop = p.start + 1)
    (hkind : (bytesOf s)[p.start]?.bind Kind.ofByte? = some p.kind)
    (houtside : OutsideLiterals s p.start) : p ∈ places s tokens := by
  have hspell := Token.spell_scan h
  obtain ⟨before, after, hparts, hstart, hclosed⟩ := houtside
  rw [hparts, ← hstart, getElem?_byteSize] at hkind
  cases after with
  | nil => cases hkind
  | cons c after =>
    obtain ⟨b, tail, hbytes, -⟩ := exists_utf8EncodeChar c
    have hb : b ∈ String.utf8EncodeChar c := by
      rw [hbytes]
      exact List.mem_cons_self
    rw [bytesOf_cons, hbytes] at hkind
    -- the byte is the whole character, which is a token by the scan
    obtain ⟨t, hc, ht⟩ := punctuation_of_mem hb hkind
    rw [hparts] at h
    obtain ⟨front, back, rfl, hfront, -⟩ := Token.exists_of_punctuation hc hclosed.isInside h
    apply (mem_places_iff hspell).2
    refine ⟨front, t, back, rfl, ?_⟩
    rw [hfront, Token.lexeme_of_ofPunctuation? hc, byteSize_append_punctuation hc, hstart, ht,
      ← hstop]

/-- The pieces of a text tile it. -/
theorem tiles_places {s : List Char} {tokens : List Token} (h : Token.scan false s = some tokens) :
    Tiles s (places s tokens) := by
  have hspell := Token.spell_scan h
  refine ⟨?_, ?_, ?_⟩
  · have hsuffix : Token.spell tokens <:+ s := ⟨[], hspell⟩
    have hcovers := covers_places (Token.lexeme_ne_nil_of_scan h) hsuffix
    rwa [hspell, offsetOf, Nat.sub_self] at hcovers
  · intro p hp
    obtain ⟨front, t, back, htokens, rfl⟩ := (mem_places_iff hspell).1 hp
    have hparts : s = Token.spell front ++ t.lexeme ++ Token.spell back := by
      rw [← hspell, htokens, spell_append_cons]
    constructor
    · exact isBorder_iff.2 ⟨_, _, by rw [hparts, List.append_assoc], rfl⟩
    · exact isBorder_iff.2 ⟨_, _, hparts, rfl⟩
  · intro p hkind
    constructor
    · exact outside_of_mem_places h hkind
    · intro hp
      exact mem_places_of_outside h hp.1 hp.2.1 hp.2.2

end ODataEngine.Expand
