import ODataEngine.Proofs.ResultTheorems
import ODataEngine.Proofs.TileTheorems

/-!
# Reading an expand text by offsets

A reader that keeps the pieces of an expand text as offsets cuts its texts out of the input where it
needs them, and counts open parentheses down as they close. Both can leave their range: a cut whose
offsets do not stand in order between characters, a count that is zero (`Stop.outOfRange`).

- `readOptions_places`, `readItem_places`, `readItems_places`: on the pieces of a text the reader
  does what the reader of its tokens does, so it stays in range;
- `offsets_in_range`: the pieces of a text tile it, and the whole reader stays in range on them.
-/

namespace ODataEngine.Expand

open Text

/-! ## The reader -/

/-- How reading by offsets ends early: at a fault of the text, or out of range. -/
inductive Stop where
  | fault (fault : Fault)
  | outOfRange

/-- What cannot leave its range, as a step of a reader that can. -/
def ofFault {α : Type} : Except Fault α → Except Stop α := Except.mapError .fault

/-- The text between two offsets. -/
def cut (s : List Char) (start stop : Nat) : Except Stop (List Char) :=
  match slice? s start stop with
  | some chars => .ok chars
  | none => .error .outOfRange

/-- A count taken down by one. -/
def countDown : Nat → Except Stop Nat
  | 0 => .error .outOfRange
  | n + 1 => .ok n

namespace Piece

/-- Leaves out pieces of blank text. -/
def skipBlank (s : List Char) : List Piece → Except Stop (List Piece)
  | ⟨.text, start, stop⟩ :: rest => do
    let chars ← cut s start stop
    if (Text.trim chars).isEmpty then skipBlank s rest else .ok (⟨.text, start, stop⟩ :: rest)
  | pieces => .ok pieces

/-- The offset behind the pieces of an option, and the pieces from there on. -/
def takeSpan (depth stop : Nat) : List Piece → Except Stop (Nat × List Piece)
  | [] => .ok (stop, [])
  | p :: rest =>
    match p.kind with
    | .closing =>
      -- outside of all parentheses it closes the options, so below the count is not zero
      if depth = 0 then .ok (stop, p :: rest)
      else do takeSpan (← countDown depth) p.stop rest
    | .semicolon => if depth = 0 then .ok (stop, p :: rest) else takeSpan depth p.stop rest
    | .opening => takeSpan (depth + 1) p.stop rest
    | .comma | .text => takeSpan depth p.stop rest

theorem length_takeSpan_le {depth stop : Nat} {pieces rest : List Piece} {stop' : Nat}
    (h : takeSpan depth stop pieces = .ok (stop', rest)) : rest.length ≤ pieces.length := by
  induction pieces generalizing depth stop with
  | nil =>
    cases h
    exact Nat.le_refl _
  | cons p pieces ih =>
    unfold takeSpan at h
    split at h
    · split at h
      · cases h
        exact Nat.le_refl _
      · obtain ⟨depth', -, h⟩ := bind_eq_ok_iff.1 h
        exact Nat.le_succ_of_le (ih h)
    · split at h
      · cases h
        exact Nat.le_refl _
      · exact Nat.le_succ_of_le (ih h)
    all_goals exact Nat.le_succ_of_le (ih h)

/-- The offset at which the pieces begin. -/
def startOf (s : List Char) : List Piece → Nat
  | [] => byteSize s
  | p :: _ => p.start

/-- The option that stands between two offsets. -/
def readOption (s : List Char) (start stop : Nat) : Except Stop (List (String × String)) := do
  let text ← cut s start stop
  ofFault (Expand.readOption text)

/-- Reads the options after an opening parenthesis up to its closing one. -/
def readOptions (s : List Char) (pieces : List Piece) :
    Except Stop (List (String × String) × List Piece) :=
  match _h : takeSpan 0 (startOf s pieces) pieces with
  | .error e => .error e
  | .ok (stop, rest) =>
    match readOption s (startOf s pieces) stop, rest with
    | .error e, _ => .error e
    | .ok option, ⟨.closing, _, _⟩ :: rest => .ok (option, rest)
    | .ok option, ⟨.semicolon, _, _⟩ :: rest => do
      let (options, rest) ← readOptions s rest
      return (option ++ options, rest)
    | .ok _, _ => .error (.fault .unbalanced)
termination_by pieces.length
decreasing_by
  have hlength := length_takeSpan_le _h
  rw [List.length_cons] at hlength
  omega

theorem length_skipBlank_le {s : List Char} {pieces rest : List Piece}
    (h : skipBlank s pieces = .ok rest) : rest.length ≤ pieces.length := by
  fun_induction skipBlank s pieces with
  | case1 start stop pieces ih =>
    obtain ⟨chars, -, h⟩ := bind_eq_ok_iff.1 h
    split at h
    · exact Nat.le_succ_of_le (ih h)
    · cases h
      exact Nat.le_refl _
  | case2 =>
    cases h
    exact Nat.le_refl _

theorem length_readOptions_le {s : List Char} {pieces rest : List Piece}
    {options : List (String × String)} (h : readOptions s pieces = .ok (options, rest)) :
    rest.length ≤ pieces.length := by
  fun_induction readOptions s pieces generalizing options with
  | case1 => cases h
  | case2 => cases h
  | case3 pieces stop option start stop' after htake =>
    cases h
    exact (Nat.le_succ _).trans (length_takeSpan_le htake)
  | case4 pieces stop option start stop' after htake hoption _ ih =>
    obtain ⟨read, hread, h⟩ := bind_eq_ok_iff.1 h
    cases h
    exact (ih hread).trans ((Nat.le_succ _).trans (length_takeSpan_le htake))
  | case5 => cases h

/-- Reads one item. -/
def readItem (s : List Char) : List Piece → Except Stop (ExpandItem × List Piece)
  | ⟨.text, start, stop⟩ :: rest => do
    let chars ← cut s start stop
    let name ← ofFault (readName chars)
    match rest with
    | ⟨.opening, _, _⟩ :: rest =>
      let (options, rest) ← readOptions s rest
      return (⟨String.ofList name, options⟩, rest)
    | rest => return (⟨String.ofList name, []⟩, rest)
  | _ => .error (.fault .missingName)

theorem length_readItem_lt {s : List Char} {pieces rest : List Piece} {item : ExpandItem}
    (h : readItem s pieces = .ok (item, rest)) : rest.length < pieces.length := by
  unfold readItem at h
  split at h
  · obtain ⟨chars, -, h⟩ := bind_eq_ok_iff.1 h
    obtain ⟨name, -, h⟩ := bind_eq_ok_iff.1 h
    split at h
    · obtain ⟨read, hread, h⟩ := bind_eq_ok_iff.1 h
      cases h
      have hlength := length_readOptions_le hread
      simp only [List.length_cons]
      omega
    · cases h
      exact Nat.lt_succ_self _
  · cases h

/-- Reads items with commas between them. -/
def readItems (s : List Char) (pieces : List Piece) : Except Stop (List ExpandItem) :=
  match _h : readItem s pieces with
  | .error e => .error e
  | .ok (item, rest) =>
    match _hskip : skipBlank s rest with
    | .error e => .error e
    | .ok [] => .ok [item]
    | .ok (⟨.comma, _, _⟩ :: rest) => do
      let items ← readItems s rest
      return item :: items
    | .ok (p :: _) => do
      let lexeme ← cut s p.start p.stop
      .error (.fault (.unexpected lexeme p.start))
termination_by pieces.length
decreasing_by
  have hitem := length_readItem_lt _h
  have hskip := length_skipBlank_le _hskip
  rw [List.length_cons] at hskip
  omega

/-- The items of an expand text, a blank one having none. -/
def readText (s : List Char) : Except Stop (List ExpandItem) :=
  if (Text.trim s).isEmpty then .ok []
  else
    match pieces (bytesOf s) 0 with
    | none => .error (.fault .unterminatedLiteral)
    | some pieces => readItems s pieces

end Piece

/-- The items of an expand text, or the failure of the request that holds it; nothing if the reader
leaves its range. -/
def parseOffsets (s : String) : Option (Except RequestError (List ExpandItem)) :=
  match Piece.readText s.toList with
  | .ok items => some (.ok items)
  | .error (.fault fault) => some (.error (.invalidExpand s fault.reason))
  | .error .outOfRange => none

/-! ## Reading the pieces of a text -/

section

variable {s : List Char}

theorem cut_suffix {inside after : List Char} (hs : inside ++ after <:+ s) :
    cut s (offsetOf s (inside ++ after)) (offsetOf s after) = .ok inside := by
  obtain ⟨before, rfl⟩ := hs
  have hstart : offsetOf (before ++ (inside ++ after)) (inside ++ after) = byteSize before :=
    offsetOf_append ..
  have hstop : offsetOf (before ++ (inside ++ after)) after = byteSize (before ++ inside) := by
    rw [← List.append_assoc, offsetOf_append]
  rw [cut, hstart, hstop, ← List.append_assoc, slice?_append]

/-- The result of a reader of tokens, with the tokens left over as pieces of the text. -/
def placed {α : Type} (s : List Char) (result : Except Fault (α × List Token)) :
    Except Stop (α × List Piece) :=
  ofFault (result.map fun read => (read.1, places s read.2))

theorem spell_suffix {rest tokens : List Token} (h : rest <:+ tokens) :
    Token.spell rest <:+ Token.spell tokens := by
  obtain ⟨front, rfl⟩ := h
  exact ⟨Token.spell front, List.flatMap_append.symm⟩

theorem suffix_of_cons {t : Token} {rest : List Token} (h : Token.spell (t :: rest) <:+ s) :
    Token.spell rest <:+ s :=
  (spell_suffix (List.suffix_cons t rest)).trans h

theorem cut_token {t : Token} {rest : List Token} (h : Token.spell (t :: rest) <:+ s) :
    cut s (offsetOf s (Token.spell (t :: rest))) (offsetOf s (Token.spell rest)) = .ok t.lexeme :=
  cut_suffix h

theorem isEmpty_trim (chars : List Char) : (Text.trim chars).isEmpty = Text.allBlank chars := by
  rw [Bool.eq_iff_iff, List.isEmpty_iff, Text.trim_eq_nil_iff]

theorem skipBlank_places {tokens : List Token} (h : Token.spell tokens <:+ s) :
    Piece.skipBlank s (places s tokens) = .ok (places s (tokens.dropWhile Token.isBlank)) := by
  induction tokens with
  | nil => rfl
  | cons t rest ih =>
    cases t with
    | text chars =>
      have hcut : cut s _ _ = .ok chars := cut_token h
      show (cut s _ _ >>= _) = _
      rw [hcut, ok_bind, isEmpty_trim, List.dropWhile_cons]
      show (if Token.isBlank (.text chars) then _ else _) = _
      by_cases hblank : Token.isBlank (.text chars) = true
      · rw [if_pos hblank, if_pos hblank]
        exact ih (suffix_of_cons h)
      · rw [if_neg hblank, if_neg hblank]
        rfl
    | _ => rfl

/-- The span of an option ends where the text ends that is taken off the tokens: each token taken
moves the offset on to what is left. -/
theorem takeSpan_places (depth : Nat) (tokens : List Token) :
    Piece.takeSpan depth (offsetOf s (Token.spell tokens)) (places s tokens) =
      .ok (offsetOf s (Token.spell (takeOption depth tokens).2),
        places s (takeOption depth tokens).2) := by
  induction tokens generalizing depth with
  | nil => rfl
  | cons t rest ih =>
    cases t with
    | closing =>
      rw [places, Piece.takeSpan, takeOption]
      by_cases hdepth : depth = 0
      · simp only [Token.kind, if_pos hdepth]
        rfl
      · obtain ⟨n, rfl⟩ : ∃ n, depth = n + 1 := ⟨depth - 1, by omega⟩
        simp only [Token.kind, if_neg hdepth, countDown, ok_bind]
        exact ih n
    | semicolon =>
      rw [places, Piece.takeSpan, takeOption]
      by_cases hdepth : depth = 0
      · simp only [Token.kind, if_pos hdepth]
        rfl
      · simp only [Token.kind, if_neg hdepth]
        exact ih depth
    | opening =>
      rw [places, Piece.takeSpan, takeOption]
      exact ih (depth + 1)
    | comma | text =>
      rw [places, Piece.takeSpan, takeOption]
      exact ih depth

theorem startOf_places {tokens : List Token} :
    Piece.startOf s (places s tokens) = offsetOf s (Token.spell tokens) := by
  cases tokens <;> rfl

theorem Piece.readOptions_of_takeSpan {pieces rest : List Piece} {stop : Nat}
    (h : takeSpan 0 (startOf s pieces) pieces = .ok (stop, rest)) :
    readOptions s pieces = (do
      let option ← readOption s (startOf s pieces) stop
      match rest with
      | ⟨.closing, _, _⟩ :: rest => return (option, rest)
      | ⟨.semicolon, _, _⟩ :: rest =>
        let (options, rest) ← readOptions s rest
        return (option ++ options, rest)
      | _ => .error (.fault .unbalanced)) := by
  rw [readOptions]
  split
  · next e he =>
    rw [h] at he
    cases he
  · next stop' rest' htake =>
    rw [h] at htake
    cases htake
    split
    · next e hoption =>
      rw [hoption]
      rfl
    · next hoption =>
      rw [hoption]
      rfl
    · next hoption =>
      rw [hoption]
      rfl
    · next hoption hclosing hsemicolon =>
      rw [hoption, ok_bind]
      split
      · exact (hclosing _ _ _ h rfl HEq.rfl).elim
      · exact (hsemicolon _ _ _ h rfl HEq.rfl).elim
      · rfl

/-- The options on the pieces of a text are those on its tokens. -/
theorem readOptions_places {tokens : List Token} (h : Token.spell tokens <:+ s) :
    Piece.readOptions s (places s tokens) = placed s (readOptions tokens) := by
  have hspell := spell_takeOption 0 tokens
  have hlength := length_takeOption_le 0 tokens
  have htake := takeSpan_places (s := s) 0 tokens
  rw [← startOf_places] at htake
  have hcut := cut_suffix (s := s) (by rw [hspell]; exact h)
  rw [hspell, ← startOf_places] at hcut
  have hoption : Piece.readOption s (Piece.startOf s (places s tokens))
      (offsetOf s (Token.spell (takeOption 0 tokens).2)) =
        ofFault (readOption (takeOption 0 tokens).1) := by
    rw [Piece.readOption, hcut, ok_bind]
  have hrest : Token.spell (takeOption 0 tokens).2 <:+ s := by
    rw [← hspell] at h
    exact (List.suffix_append _ _).trans h
  -- both readers go on from what stands behind the first option
  rw [Piece.readOptions_of_takeSpan htake, hoption, readOptions_eq]
  cases readOption (takeOption 0 tokens).1 with
  | error e => rfl
  | ok option =>
    rw [ok_bind]
    show (Except.ok option >>= _) = _
    rw [ok_bind]
    generalize (takeOption 0 tokens).2 = rest at hlength hrest ⊢
    cases rest with
    | nil => rfl
    | cons t rest =>
      cases t with
      | semicolon =>
        have ih := readOptions_places (suffix_of_cons hrest)
        show (Piece.readOptions s (places s rest) >>= _) = placed s (readOptions rest >>= _)
        rw [ih]
        cases readOptions rest <;> rfl
      | _ => rfl
termination_by tokens.length
decreasing_by
  rw [List.length_cons] at hlength
  omega

/-- The item on the pieces of a text is that on its tokens. -/
theorem readItem_places {tokens : List Token} (h : Token.spell tokens <:+ s) :
    Piece.readItem s (places s tokens) = placed s (readItem tokens) := by
  cases tokens with
  | nil => rfl
  | cons t rest =>
    cases t with
    | text chars =>
      have hcut : cut s _ _ = .ok chars := cut_token h
      show (cut s _ _ >>= _) = _
      rw [hcut, ok_bind, readItem]
      cases readName chars with
      | error e => rfl
      | ok name =>
        show (Except.ok name >>= _) = _
        rw [ok_bind]
        cases rest with
        | nil => rfl
        | cons t rest =>
          cases t with
          | opening =>
            show (Piece.readOptions s (places s rest) >>= _) = _
            rw [readOptions_places (suffix_of_cons (suffix_of_cons h))]
            dsimp only
            cases readOptions rest <;> rfl
          | _ => rfl
    | _ => rfl

theorem Piece.readItems_of_readItem {pieces rest rest' : List Piece} {item : ExpandItem}
    (hitem : readItem s pieces = .ok (item, rest)) (hskip : skipBlank s rest = .ok rest') :
    readItems s pieces = (do
      match rest' with
      | [] => return [item]
      | ⟨.comma, _, _⟩ :: rest =>
        let items ← readItems s rest
        return item :: items
      | p :: _ =>
        let lexeme ← cut s p.start p.stop
        .error (.fault (.unexpected lexeme p.start))) := by
  rw [readItems]
  split
  · next e he =>
    rw [hitem] at he
    cases he
  · next item' after hitem' =>
    rw [hitem] at hitem'
    cases hitem'
    split
    · next e he =>
      rw [hskip] at he
      cases he
    · next hskip' =>
      rw [hskip] at hskip'
      cases hskip'
      rfl
    · next hskip' =>
      rw [hskip] at hskip'
      cases hskip'
      rfl
    · next p more hcomma hskip' =>
      rw [hskip] at hskip'
      cases hskip'
      split
      · next h => cases h
      · next h => exact (hcomma _ _ (List.cons.inj h).1).elim
      · next h =>
        cases h
        rfl

/-- The items on the pieces of a text are those on its tokens. The reader of pieces needs no fuel, and
that of tokens has enough as long as it exceeds the number of tokens. -/
theorem readItems_places {tokens : List Token} (h : Token.spell tokens <:+ s) {fuel : Nat}
    (hfuel : tokens.length < fuel) :
    Piece.readItems s (places s tokens) = ofFault (readItems (byteSize s) fuel tokens) := by
  induction fuel generalizing tokens with
  | zero => omega
  | succ fuel ih =>
    have hitem := readItem_places h
    rw [readItems]
    cases hread : readItem tokens with
    | error e =>
      rw [hread] at hitem
      rw [Piece.readItems]
      split
      · next e' he' =>
        rw [hitem] at he'
        cases he'
        rfl
      · next he' =>
        rw [hitem] at he'
        cases he'
    | ok read =>
      obtain ⟨item, rest⟩ := read
      rw [hread] at hitem
      -- what the item leaves is an end of the text again, with fewer tokens
      have hshorter := length_rest_lt_of_readItem hread
      have hrest : Token.spell rest <:+ s := (isPart_of_readItem hread).2.trans h
      rw [Piece.readItems_of_readItem hitem (skipBlank_places hrest)]
      have hlength := (List.dropWhile_sublist (l := rest) Token.isBlank).length_le
      have hbehind : Token.spell (rest.dropWhile Token.isBlank) <:+ s :=
        (spell_suffix (List.dropWhile_suffix _)).trans hrest
      dsimp only
      generalize rest.dropWhile Token.isBlank = behind at hlength hbehind ⊢
      cases behind with
      | nil => rfl
      | cons t after =>
        cases t with
        | comma =>
          have hafter := ih (suffix_of_cons hbehind) (by rw [List.length_cons] at hlength; omega)
          show (Piece.readItems s (places s after) >>= _) = _
          rw [hafter]
          dsimp only
          cases readItems (byteSize s) fuel after <;> rfl
        | opening | closing | semicolon | text =>
          show (cut s _ _ >>= _) = Except.error (Stop.fault (.unexpected _ (byteSize s - _)))
          rw [cut_token hbehind, ok_bind, utf8ByteSize_ofList]
          rfl

theorem readText_eq (s : String) :
    Piece.readText s.toList = ofFault (readText s) := by
  rw [Piece.readText, readText, isEmpty_trim]
  show (if Text.isAllBlank s then _ else _) = _
  by_cases hblank : Text.isAllBlank s = true
  · rw [if_pos hblank, if_pos hblank]
    rfl
  · rw [if_neg hblank, if_neg hblank, pieces_bytesOf]
    cases hscan : Token.scan false s.toList with
    | none => rfl
    | some tokens =>
      have hsuffix : Token.spell tokens <:+ s.toList := ⟨[], Token.spell_scan hscan⟩
      rw [utf8ByteSize_eq]
      exact readItems_places hsuffix (Nat.lt_succ_self _)

end

/-- An expand text is cut into pieces unless its last literal is not closed. The pieces tile it, and
reading it by their offsets never leaves its range. -/
theorem offsets_in_range (s : String) :
    (pieces (bytesOf s.toList) 0 = none ↔ Unclosed s.toList) ∧
      (∀ found, pieces (bytesOf s.toList) 0 = some found → Tiles s.toList found) ∧
      parseOffsets s = some (parse s) := by
  refine ⟨?_, ?_, ?_⟩
  · rw [pieces_bytesOf, Option.map_eq_none_iff, Token.scan_eq_none_iff, unclosed_iff]
  · intro found hfound
    rw [pieces_bytesOf] at hfound
    obtain ⟨tokens, htokens, rfl⟩ := Option.map_eq_some_iff.1 hfound
    exact tiles_places htokens
  · rw [parseOffsets, parse, readText_eq]
    cases readText s <;> rfl

/-- A literal with a comma and a doubled quote in it, behind a name of two bytes a letter. -/
theorem quoted_offsets_in_range :
    let s := "üö(n='ä,'''),b"
    let found : List Piece := [⟨.text, 0, 4⟩, ⟨.opening, 4, 5⟩, ⟨.text, 5, 14⟩, ⟨.closing, 14, 15⟩,
      ⟨.comma, 15, 16⟩, ⟨.text, 16, 17⟩]
    pieces (bytesOf s.toList) 0 = some found ∧ Tiles s.toList found ∧
      parseOffsets s = some (parse s) := by
  intro s found
  have hfound : pieces (bytesOf s.toList) 0 = some found := by
    rw [pieces_bytesOf]
    decide
  obtain ⟨-, htiles, hparse⟩ := offsets_in_range s
  exact ⟨hfound, htiles found hfound, hparse⟩

end ODataEngine.Expand
