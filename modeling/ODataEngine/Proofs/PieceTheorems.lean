import ODataEngine.Proofs.OpenLiteralTheorems
import ODataEngine.Proofs.SliceTheorems

/-!
# Pieces of an expand text

An expand text is cut into pieces byte by byte. A piece is punctuation or the text between, and is
kept as the two offsets that it stands between.

- `skipLiteral_bytesOf`, `skipText_bytesOf`: where the two inner loops stop, and what they pass;
- `pieces_bytesOf`: the pieces of a text are its tokens, at the offsets of their lexemes.
-/

namespace ODataEngine.Expand

open Text

/-! ## Cutting a text into pieces -/

/-- What a piece of an expand text is. -/
inductive Kind where
  | opening
  | closing
  | comma
  | semicolon
  | text
deriving DecidableEq

/-- The kind of a punctuation byte. -/
def Kind.ofByte? (b : UInt8) : Option Kind :=
  if b = 0x28 then some opening
  else if b = 0x29 then some closing
  else if b = 0x2C then some comma
  else if b = 0x3B then some semicolon
  else none

/-- A piece of an expand text, from one offset up to another. -/
structure Piece where
  kind : Kind
  start : Nat
  stop : Nat
deriving DecidableEq

/-- The byte of a single quote. -/
def quoteByte : UInt8 := 0x27

/-- The offset behind the literal that offset `i` stands in. A doubled quote does not end it. -/
def skipLiteral (bytes : List UInt8) (i : Nat) : Option Nat :=
  match _h : bytes[i]? with
  | none => none
  | some b =>
    if b = quoteByte then
      -- the byte behind decides, which may be missing
      if bytes[i + 1]? = some quoteByte then skipLiteral bytes (i + 2) else some (i + 1)
    else skipLiteral bytes (i + 1)
termination_by bytes.length - i
decreasing_by
  all_goals
    have := (List.getElem?_eq_some_iff.1 _h).1
    omega

theorem lt_of_skipLiteral {bytes : List UInt8} {i j : Nat} (h : skipLiteral bytes i = some j) :
    i < j := by
  fun_induction skipLiteral bytes i with
  | case1 => cases h
  | case2 i hat hnext ih =>
    have := ih h
    omega
  | case3 i hat hnext =>
    cases h
    omega
  | case4 i b hb hquote ih =>
    have := ih h
    omega

theorem skipLiteral_end {bytes : List UInt8} {i : Nat} (hend : bytes[i]? = none) :
    skipLiteral bytes i = none := by
  rw [skipLiteral]
  split
  · rfl
  · next hat =>
    rw [hend] at hat
    cases hat

theorem skipLiteral_at {bytes : List UInt8} {i : Nat} {b : UInt8} (hat : bytes[i]? = some b) :
    skipLiteral bytes i =
      if b = quoteByte then
        if bytes[i + 1]? = some quoteByte then skipLiteral bytes (i + 2) else some (i + 1)
      else skipLiteral bytes (i + 1) := by
  rw [skipLiteral]
  split
  · next hend =>
    rw [hat] at hend
    cases hend
  · next b' hb' =>
    obtain rfl : b = b' := Option.some.inj (hat.symm.trans hb')
    rfl

/-- The offset of the next punctuation outside of literals, or of the end. -/
def skipText (bytes : List UInt8) (i : Nat) : Option Nat :=
  match _h : bytes[i]? with
  | none => some i
  | some b =>
    if (Kind.ofByte? b).isSome then some i
    else if b = quoteByte then
      match _hskip : skipLiteral bytes (i + 1) with
      | none => none
      | some j => skipText bytes j
    else skipText bytes (i + 1)
termination_by bytes.length - i
decreasing_by
  · have := (List.getElem?_eq_some_iff.1 _h).1
    have := lt_of_skipLiteral _hskip
    omega
  · have := (List.getElem?_eq_some_iff.1 _h).1
    omega

theorem le_of_skipText {bytes : List UInt8} {i j : Nat} (h : skipText bytes i = some j) :
    i ≤ j := by
  fun_induction skipText bytes i with
  | case1 =>
    cases h
    omega
  | case2 =>
    cases h
    omega
  | case3 => cases h
  | case4 i k hskip hat hplain ih =>
    have := lt_of_skipLiteral hskip
    have := ih h
    omega
  | case5 i b hb hplain hquote ih =>
    have := ih h
    omega

theorem skipText_end {bytes : List UInt8} {i : Nat} (hend : bytes[i]? = none) :
    skipText bytes i = some i := by
  rw [skipText]
  split
  · rfl
  · next hat =>
    rw [hend] at hat
    cases hat

theorem skipText_at {bytes : List UInt8} {i : Nat} {b : UInt8} (hat : bytes[i]? = some b) :
    skipText bytes i =
      if (Kind.ofByte? b).isSome then some i
      else if b = quoteByte then (skipLiteral bytes (i + 1)).bind (skipText bytes)
      else skipText bytes (i + 1) := by
  rw [skipText]
  split
  · next hend =>
    rw [hat] at hend
    cases hend
  · next b' hb' =>
    obtain rfl : b = b' := Option.some.inj (hat.symm.trans hb')
    split
    · rfl
    · split
      · split
        · next hskip => rw [hskip, Option.bind_none]
        · next j hskip => rw [hskip, Option.bind_some]
      · rfl

/-- Where there is no punctuation, text goes on. -/
theorem lt_of_skipText {bytes : List UInt8} {i j : Nat} {b : UInt8} (hat : bytes[i]? = some b)
    (hplain : Kind.ofByte? b = none) (h : skipText bytes i = some j) : i < j := by
  rw [skipText_at hat, hplain, if_neg (by decide)] at h
  by_cases hquote : b = quoteByte
  · rw [if_pos hquote] at h
    obtain ⟨k, hskip, hrest⟩ := Option.bind_eq_some_iff.1 h
    have := lt_of_skipLiteral hskip
    have := le_of_skipText hrest
    omega
  · rw [if_neg hquote] at h
    exact le_of_skipText h

/-- The pieces of a text from an offset on, if no literal is left open. -/
def pieces (bytes : List UInt8) (i : Nat) : Option (List Piece) :=
  match _h : bytes[i]? with
  | none => some []
  | some b =>
    match _hkind : Kind.ofByte? b with
    | some kind => (pieces bytes (i + 1)).map (⟨kind, i, i + 1⟩ :: ·)
    | none =>
      match _hskip : skipText bytes i with
      | none => none
      | some j => (pieces bytes j).map (⟨.text, i, j⟩ :: ·)
termination_by bytes.length - i
decreasing_by
  · have := (List.getElem?_eq_some_iff.1 _h).1
    omega
  · have := (List.getElem?_eq_some_iff.1 _h).1
    have := lt_of_skipText _h _hkind _hskip
    omega

theorem pieces_end {bytes : List UInt8} {i : Nat} (hend : bytes[i]? = none) :
    pieces bytes i = some [] := by
  rw [pieces]
  split
  · rfl
  · next hat =>
    rw [hend] at hat
    cases hat

theorem pieces_at {bytes : List UInt8} {i : Nat} {b : UInt8} (hat : bytes[i]? = some b) :
    pieces bytes i =
      match Kind.ofByte? b with
      | some kind => (pieces bytes (i + 1)).map (⟨kind, i, i + 1⟩ :: ·)
      | none => (skipText bytes i).bind fun j => (pieces bytes j).map (⟨.text, i, j⟩ :: ·) := by
  rw [pieces]
  split
  · next hend =>
    rw [hat] at hend
    cases hend
  · next b' hb' =>
    obtain rfl : b = b' := Option.some.inj (hat.symm.trans hb')
    split
    · next kind hkind => rw [hkind]
    · next hkind =>
      rw [hkind]
      split
      · next hskip => rw [hskip, Option.bind_none]
      · next j hskip => rw [hskip, Option.bind_some]

/-! ## Bytes of punctuation and of quotes -/

/-- The kind of a token. -/
def Token.kind : Token → Kind
  | opening => .opening
  | closing => .closing
  | comma => .comma
  | semicolon => .semicolon
  | text _ => .text

theorem utf8EncodeChar_of_punctuation {c : Char} {t : Token} (h : Token.ofPunctuation? c = some t) :
    ∃ b, String.utf8EncodeChar c = [b] ∧ Kind.ofByte? b = some t.kind := by
  unfold Token.ofPunctuation? at h
  split at h
  · cases h
    exact ⟨0x28, rfl, rfl⟩
  · cases h
    exact ⟨0x29, rfl, rfl⟩
  · cases h
    exact ⟨0x2C, rfl, rfl⟩
  · cases h
    exact ⟨0x3B, rfl, rfl⟩
  · cases h

theorem byteSize_append_punctuation {c : Char} {t : Token} (h : Token.ofPunctuation? c = some t)
    (done : List Char) : byteSize (done ++ [c]) = byteSize done + 1 := by
  obtain ⟨b, hbytes, -⟩ := utf8EncodeChar_of_punctuation h
  rw [byteSize_append, byteSize_cons, hbytes]
  rfl

/-- A punctuation byte stands in the punctuation character only. -/
theorem punctuation_of_mem {c : Char} {b : UInt8} (hb : b ∈ String.utf8EncodeChar c) {kind : Kind}
    (hkind : Kind.ofByte? b = some kind) :
    ∃ t, Token.ofPunctuation? c = some t ∧ t.kind = kind := by
  unfold Kind.ofByte? at hkind
  split at hkind
  · next h =>
    cases hkind
    rw [h] at hb
    exact ⟨.opening, by rw [eq_of_mem_utf8EncodeChar hb (by decide)]; rfl, rfl⟩
  · split at hkind
    · next h =>
      cases hkind
      rw [h] at hb
      exact ⟨.closing, by rw [eq_of_mem_utf8EncodeChar hb (by decide)]; rfl, rfl⟩
    · split at hkind
      · next h =>
        cases hkind
        rw [h] at hb
        exact ⟨.comma, by rw [eq_of_mem_utf8EncodeChar hb (by decide)]; rfl, rfl⟩
      · split at hkind
        · next h =>
          cases hkind
          rw [h] at hb
          exact ⟨.semicolon, by rw [eq_of_mem_utf8EncodeChar hb (by decide)]; rfl, rfl⟩
        · cases hkind

theorem ofByte?_eq_none {c : Char} (h : Token.ofPunctuation? c = none) {b : UInt8}
    (hb : b ∈ String.utf8EncodeChar c) : Kind.ofByte? b = none := by
  apply Option.eq_none_iff_forall_ne_some.2
  intro kind hkind
  obtain ⟨t, ht, -⟩ := punctuation_of_mem hb hkind
  rw [h] at ht
  cases ht

theorem ne_quoteByte {c : Char} (h : c ≠ '\'') {b : UInt8} (hb : b ∈ String.utf8EncodeChar c) :
    b ≠ quoteByte := by
  intro hquote
  rw [hquote] at hb
  exact h (eq_of_mem_utf8EncodeChar hb (by decide))

theorem bytesOf_quote (s : List Char) : bytesOf ('\'' :: s) = quoteByte :: bytesOf s := rfl

/-! ## The inner loops -/

section

variable {bytes : List UInt8} {i : Nat}

theorem getElem?_of_drop {b : UInt8} {rest : List UInt8} (h : bytes.drop i = b :: rest) :
    bytes[i]? = some b ∧ bytes.drop (i + 1) = rest := by
  constructor
  · rw [← Nat.add_zero i, ← List.getElem?_drop, h]
    rfl
  · rw [List.drop_add_one_eq_tail_drop, h]
    rfl

theorem getElem?_of_drop_nil (h : bytes.drop i = []) : bytes[i]? = none := by
  rw [← Nat.add_zero i, ← List.getElem?_drop, h]
  rfl

theorem drop_of_char {c : Char} {rest : List Char} (h : bytes.drop i = bytesOf (c :: rest)) :
    bytes.drop (i + (String.utf8EncodeChar c).length) = bytesOf rest := by
  rw [← List.drop_drop, h, bytesOf_cons, List.drop_left]

/-- A quote byte stands where a quote does. -/
theorem getElem?_eq_quoteByte {s : List Char} (h : bytes.drop i = bytesOf s)
    (hquote : bytes[i]? = some quoteByte) : ∃ rest, s = '\'' :: rest := by
  cases s with
  | nil =>
    rw [getElem?_of_drop_nil h] at hquote
    cases hquote
  | cons c rest =>
    by_cases hc : c = '\''
    · exact ⟨rest, by rw [hc]⟩
    · obtain ⟨b, tail, hbytes, -⟩ := exists_utf8EncodeChar c
      rw [bytesOf_cons, hbytes] at h
      rw [(getElem?_of_drop h).1] at hquote
      have hmem : b ∈ String.utf8EncodeChar c := by
        rw [hbytes]
        exact List.mem_cons_self
      exact absurd (Option.some.inj hquote) (ne_quoteByte hc hmem)

/-- A loop that steps over single bytes steps over a character that has only such bytes. -/
theorem skip_char {loop : Nat → Option Nat} (plain : UInt8 → Prop)
    (hloop : ∀ {i b}, bytes[i]? = some b → plain b → loop i = loop (i + 1)) {front : List UInt8}
    (hplain : ∀ b ∈ front, plain b) {more : List UInt8} (h : bytes.drop i = front ++ more) :
    loop i = loop (i + front.length) := by
  induction front generalizing i with
  | nil => rfl
  | cons b front ih =>
    obtain ⟨hat, hnext⟩ := getElem?_of_drop h
    obtain ⟨hb, hfront⟩ := List.forall_mem_cons.1 hplain
    rw [hloop hat hb, ih hfront hnext, List.length_cons, Nat.add_right_comm, Nat.add_assoc]

theorem skipLiteral_char {c : Char} (hc : c ≠ '\'') {rest : List Char}
    (h : bytes.drop i = bytesOf (c :: rest)) :
    skipLiteral bytes i = skipLiteral bytes (i + (String.utf8EncodeChar c).length) := by
  apply skip_char (· ≠ quoteByte) _ (fun _ => ne_quoteByte hc) h
  intro i b hat hb
  rw [skipLiteral_at hat, if_neg hb]

theorem skipText_char {c : Char} (hc : c ≠ '\'') (hplain : Token.ofPunctuation? c = none)
    {rest : List Char} (h : bytes.drop i = bytesOf (c :: rest)) :
    skipText bytes i = skipText bytes (i + (String.utf8EncodeChar c).length) := by
  apply skip_char (fun b => b ≠ quoteByte ∧ Kind.ofByte? b = none) _ _ h
  · intro i b hat hb
    rw [skipText_at hat, hb.2, if_neg (by decide), if_neg hb.1]
  · intro b hb
    exact ⟨ne_quoteByte hc hb, ofByte?_eq_none hplain hb⟩

/-- From offset `i` at text `s`, a reader comes to offset `j` at text `rest`; what it passes goes
into one token with what follows. -/
def Passes (inQuote : Bool) (s rest : List Char) (i j : Nat) : Prop :=
  ∃ passed, s = passed ++ rest ∧ j = i + byteSize passed ∧
    Token.scan inQuote s =
      (Token.scan false rest).map fun tokens => passed.foldr Token.consText tokens

theorem Passes.refl (s : List Char) (i : Nat) : Passes false s s i i := by
  refine ⟨[], rfl, rfl, ?_⟩
  show _ = (Token.scan false s).map id
  rw [Option.map_id_fun, id]

theorem Passes.trans {inQuote : Bool} {s mid rest : List Char} {j k : Nat}
    (h : Passes inQuote s mid i j) (h' : Passes false mid rest j k) :
    Passes inQuote s rest i k := by
  obtain ⟨front, rfl, rfl, hfront⟩ := h
  obtain ⟨back, rfl, rfl, hback⟩ := h'
  refine ⟨front ++ back, (List.append_assoc ..).symm, ?_, ?_⟩
  · rw [byteSize_append, Nat.add_assoc]
  · rw [hfront, hback, Option.map_map]
    simp only [List.foldr_append]
    rfl

theorem scan_quote (inQuote : Bool) (s : List Char) :
    Token.scan inQuote ('\'' :: s) = (Token.scan (!inQuote) s).map (Token.consText '\'') := by
  cases inQuote <;> rfl

theorem Passes.cons {inQuote inQuote' : Bool} {c : Char} {s rest : List Char} {j : Nat}
    (hc : Token.scan inQuote (c :: s) = (Token.scan inQuote' s).map (Token.consText c))
    (h : Passes inQuote' s rest (i + (String.utf8EncodeChar c).length) j) :
    Passes inQuote (c :: s) rest i j := by
  obtain ⟨passed, rfl, rfl, hscan⟩ := h
  refine ⟨c :: passed, rfl, ?_, ?_⟩
  · rw [byteSize_cons, Nat.add_assoc]
  · rw [hc, hscan, Option.map_map]
    rfl

theorem Passes.drop {inQuote : Bool} {s rest : List Char} {j : Nat}
    (h : Passes inQuote s rest i j) (hs : bytes.drop i = bytesOf s) :
    bytes.drop j = bytesOf rest := by
  obtain ⟨passed, rfl, rfl, -⟩ := h
  rw [← List.drop_drop, hs, bytesOf_append]
  exact List.drop_left

theorem Passes.length_le {inQuote : Bool} {s rest : List Char} {j : Nat}
    (h : Passes inQuote s rest i j) : rest.length ≤ s.length := by
  obtain ⟨passed, rfl, -⟩ := h
  rw [List.length_append]
  omega

theorem Passes.scan_eq_none {inQuote : Bool} {s rest : List Char} {j : Nat}
    (h : Passes inQuote s rest i j) (hrest : Token.scan false rest = none) :
    Token.scan inQuote s = none := by
  obtain ⟨_, -, -, hscan⟩ := h
  rw [hscan, hrest, Option.map_none]

/-- What a loop finds from offset `i` at text `s` on: nothing where a literal of the text is left
open, and else the offset of the rest behind what it passes. -/
def Skips (isEnd : List Char → Prop) (inQuote : Bool) (s : List Char) (i : Nat)
    (found : Option Nat) : Prop :=
  found = none ∧ Token.scan inQuote s = none ∨
    ∃ j rest, found = some j ∧ Passes inQuote s rest i j ∧ isEnd rest

theorem Skips.cons {isEnd : List Char → Prop} {inQuote inQuote' : Bool} {c : Char} {s : List Char}
    {found : Option Nat}
    (hc : Token.scan inQuote (c :: s) = (Token.scan inQuote' s).map (Token.consText c))
    (h : Skips isEnd inQuote' s (i + (String.utf8EncodeChar c).length) found) :
    Skips isEnd inQuote (c :: s) i found := by
  rcases h with ⟨hnone, hopen⟩ | ⟨j, rest, hj, hpasses, hend⟩
  · left
    rw [hc, hopen]
    exact ⟨hnone, rfl⟩
  · exact .inr ⟨j, rest, hj, .cons hc hpasses, hend⟩

/-- One loop goes on where another one stops. -/
theorem Skips.bind {isEnd isEnd' : List Char → Prop} {inQuote : Bool} {s : List Char}
    {found : Option Nat} {loop : Nat → Option Nat} (h : Skips isEnd inQuote s i found)
    (hloop : ∀ j rest, Passes inQuote s rest i j → Skips isEnd' false rest j (loop j)) :
    Skips isEnd' inQuote s i (found.bind loop) := by
  rcases h with ⟨rfl, hopen⟩ | ⟨j, rest, rfl, hpasses, -⟩
  · exact .inl ⟨rfl, hopen⟩
  · rw [Option.bind_some]
    rcases hloop j rest hpasses with ⟨hnone, hopen⟩ | ⟨k, more, hk, hmore, hend⟩
    · exact .inl ⟨hnone, hpasses.scan_eq_none hopen⟩
    · exact .inr ⟨k, more, hk, hpasses.trans hmore, hend⟩

/-- Inside of a literal the rest of it is passed, unless it is left open. -/
theorem skipLiteral_bytesOf {s : List Char} {i : Nat} (h : bytes.drop i = bytesOf s) :
    Skips (fun _ => True) true s i (skipLiteral bytes i) := by
  cases s with
  | nil => exact .inl ⟨skipLiteral_end (getElem?_of_drop_nil h), rfl⟩
  | cons c rest =>
    by_cases hc : c = '\''
    · subst hc
      obtain ⟨hat, hnext⟩ := getElem?_of_drop ((bytesOf_quote rest).symm ▸ h)
      rw [skipLiteral_at hat, if_pos rfl]
      by_cases hdouble : bytes[i + 1]? = some quoteByte
      · -- a doubled quote leaves the literal and enters it again
        obtain ⟨behind, rfl⟩ := getElem?_eq_quoteByte hnext hdouble
        obtain ⟨-, hbehind⟩ := getElem?_of_drop ((bytesOf_quote behind).symm ▸ hnext)
        rw [if_pos hdouble]
        exact .cons (scan_quote ..) (.cons (scan_quote ..) (skipLiteral_bytesOf hbehind))
      · rw [if_neg hdouble]
        exact .inr ⟨i + 1, rest, rfl, .cons (scan_quote ..) (.refl rest _), trivial⟩
    · rw [skipLiteral_char hc h]
      exact .cons (scan_plain hc (.inl rfl) rest) (skipLiteral_bytesOf (drop_of_char h))
termination_by s.length

/-- The text is at its end, or goes on with punctuation. -/
def AtPunctuation (s : List Char) : Prop := ∀ c ∈ s.head?, (Token.ofPunctuation? c).isSome

/-- Outside of literals the text up to the next punctuation is passed, unless a literal in it is
left open. -/
theorem skipText_bytesOf {s : List Char} {i : Nat} (h : bytes.drop i = bytesOf s) :
    Skips AtPunctuation false s i (skipText bytes i) := by
  cases s with
  | nil => exact .inr ⟨i, [], skipText_end (getElem?_of_drop_nil h), .refl [] i, nofun⟩
  | cons c rest =>
    by_cases hc : c = '\''
    · subst hc
      obtain ⟨hat, hnext⟩ := getElem?_of_drop ((bytesOf_quote rest).symm ▸ h)
      have hkind : Kind.ofByte? quoteByte = none := by decide
      rw [skipText_at hat, hkind, if_neg (by decide), if_pos rfl]
      -- the quote, then the rest of the literal, then the text behind it
      apply Skips.cons (scan_quote ..)
      apply (skipLiteral_bytesOf hnext).bind
      intro j behind hliteral
      have hlength := hliteral.length_le
      exact skipText_bytesOf (hliteral.drop hnext)
    · cases hpunctuation : Token.ofPunctuation? c with
      | some t =>
        -- here the text ends, and nothing is passed
        obtain ⟨b, hbytes, hkind⟩ := utf8EncodeChar_of_punctuation hpunctuation
        rw [bytesOf_cons, hbytes] at h
        rw [skipText_at (getElem?_of_drop h).1, hkind, Option.isSome_some, if_pos rfl]
        refine .inr ⟨i, c :: rest, rfl, .refl _ i, ?_⟩
        intro d hd
        cases hd
        rw [hpunctuation]
        rfl
      | none =>
        rw [skipText_char hc hpunctuation h]
        exact .cons (scan_plain hc (.inr hpunctuation) rest) (skipText_bytesOf (drop_of_char h))
termination_by s.length
decreasing_by
  all_goals
    subst_vars
    simp only [List.length_cons]
    omega

end

/-! ## Pieces are tokens with their places -/

/-- The offset in a text from which on the rest of it stands. -/
def offsetOf (s rest : List Char) : Nat := byteSize s - byteSize rest

theorem offsetOf_append (done rest : List Char) : offsetOf (done ++ rest) rest = byteSize done := by
  rw [offsetOf, byteSize_append, Nat.add_sub_cancel]

/-- The pieces of a text at the end of which the tokens stand. -/
def places (s : List Char) : List Token → List Piece
  | [] => []
  | t :: rest =>
    ⟨t.kind, offsetOf s (Token.spell (t :: rest)), offsetOf s (Token.spell rest)⟩ :: places s rest

/-- Behind a stretch of text stands no further text. -/
theorem ne_text_of_scan {rest : List Char} (hend : AtPunctuation rest) {tokens : List Token}
    (hrest : Token.scan false rest = some tokens) (chars : List Char) (more : List Token) :
    tokens ≠ .text chars :: more := by
  cases rest with
  | nil =>
    cases hrest
    exact nofun
  | cons c rest =>
    obtain ⟨t, hc⟩ := Option.isSome_iff_exists.1 (hend c rfl)
    rw [Token.scan_punctuation hc] at hrest
    obtain ⟨behind, -, rfl⟩ := Option.map_eq_some_iff.1 hrest
    intro htext
    exact Token.ne_text_of_ofPunctuation? hc chars (List.cons.inj htext).1

theorem ne_nil_of_atPunctuation {c : Char} {rest stretch more : List Char}
    (hc : Token.ofPunctuation? c = none) (h : c :: rest = stretch ++ more)
    (hend : AtPunctuation more) : stretch ≠ [] := by
  intro hnil
  rw [hnil, List.nil_append] at h
  rw [← h] at hend
  have hpunctuation := hend c rfl
  rw [hc] at hpunctuation
  cases hpunctuation

/-- A token in front of others is a piece in front of theirs. -/
theorem map_places {s done lexeme rest : List Char} (hs : done ++ lexeme ++ rest = s) {t : Token}
    (ht : t.lexeme = lexeme) {front : List Token → List Token}
    (hfront : ∀ tokens, Token.scan false rest = some tokens → front tokens = t :: tokens) :
    ((Token.scan false rest).map (places s)).map
        (⟨t.kind, byteSize done, byteSize (done ++ lexeme)⟩ :: ·) =
      ((Token.scan false rest).map front).map (places s) := by
  rw [Option.map_map, Option.map_map]
  apply Option.map_congr
  intro tokens htokens
  have hspell := Token.spell_scan htokens
  have hstart : offsetOf s (Token.spell (t :: tokens)) = byteSize done := by
    rw [Token.spell_cons, ht, hspell, ← hs, List.append_assoc, offsetOf_append]
  have hstop : offsetOf s (Token.spell tokens) = byteSize (done ++ lexeme) := by
    rw [hspell, ← hs, offsetOf_append]
  show _ = places s (front tokens)
  rw [hfront tokens htokens, places, hstart, hstop]
  rfl

/-- The pieces of a text are its tokens at their places. The induction is on the text that is left,
the offset being that of its beginning. -/
theorem pieces_append {s : List Char} (done rest : List Char) (hs : done ++ rest = s) :
    pieces (bytesOf s) (byteSize done) = (Token.scan false rest).map (places s) := by
  have hdrop : (bytesOf s).drop (byteSize done) = bytesOf rest := by
    rw [← hs, bytesOf_append]
    exact List.drop_left
  cases rest with
  | nil =>
    rw [pieces_end (getElem?_of_drop_nil hdrop)]
    rfl
  | cons c rest =>
    obtain ⟨b, tail, hbytes, -⟩ := exists_utf8EncodeChar c
    have hat : (bytesOf s)[byteSize done]? = some b := by
      rw [bytesOf_cons, hbytes] at hdrop
      exact (getElem?_of_drop hdrop).1
    cases hc : Token.ofPunctuation? c with
    | some t =>
      obtain ⟨b', hbytes', hkind⟩ := utf8EncodeChar_of_punctuation hc
      obtain ⟨rfl, rfl⟩ := List.cons.inj (hbytes.symm.trans hbytes')
      have hs' : done ++ [c] ++ rest = s := by
        rw [← hs, List.append_assoc]
        rfl
      rw [pieces_at hat, hkind, ← byteSize_append_punctuation hc, Token.scan_punctuation hc]
      show (pieces _ _).map _ = _
      rw [pieces_append (done ++ [c]) rest hs']
      exact map_places hs' (Token.lexeme_of_ofPunctuation? hc) fun _ _ => rfl
    | none =>
      rw [pieces_at hat, ofByte?_eq_none hc (by rw [hbytes]; exact List.mem_cons_self)]
      show (skipText _ _).bind _ = _
      -- what the inner loop passes is one token, since punctuation or nothing follows
      rcases skipText_bytesOf hdrop with ⟨hnone, hopen⟩ | ⟨j, more, hj, hpasses, hend⟩
      · rw [hnone, hopen]
        rfl
      · obtain ⟨stretch, hstretch, rfl, hscan⟩ := hpasses
        have hne := ne_nil_of_atPunctuation hc hstretch hend
        have hs' : done ++ stretch ++ more = s := by
          rw [← hs, hstretch, List.append_assoc]
        have hshorter : more.length < (c :: rest).length := by
          have hpos := List.length_pos_iff.2 hne
          rw [hstretch, List.length_append]
          omega
        have htext : (Token.text stretch).lexeme = stretch := rfl
        have hrest := pieces_append (done ++ stretch) more hs'
        rw [hj, Option.bind_some, ← byteSize_append, hrest, hscan]
        apply map_places hs' htext
        intro tokens htokens
        exact foldr_consText hne (ne_text_of_scan hend htokens)
termination_by rest.length
decreasing_by
  · subst_vars
    exact hshorter
  · subst_vars
    exact Nat.lt_succ_self _

theorem pieces_bytesOf (s : List Char) :
    pieces (bytesOf s) 0 = (Token.scan false s).map (places s) :=
  pieces_append [] s rfl

end ODataEngine.Expand
