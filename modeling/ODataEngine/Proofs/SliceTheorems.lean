import ODataEngine.Proofs.PercentTheorems

/-!
# Texts cut by bytes

Offsets into a text count bytes, and not every offset stands between two characters. `Text.slice?`
cuts a text at two offsets, and fails where they do not stand in order between characters.

- `Text.utf8EncodeChar_cases`: the byte of an ASCII character stands in no other character, and a
  byte that continues a character begins none.
- `Text.isBorder_iff`: the test of one byte finds out whether an offset stands between characters.
- `Text.slice?_append`: what stands between two parts of a text is cut out between their offsets.
-/

namespace ODataEngine.Text

/-! ## Bytes of characters -/

/-- An ASCII character is one byte. Any other one begins with a byte that neither is ASCII nor
continues a character, and goes on with bytes that continue one. -/
theorem utf8EncodeChar_cases (c : Char) :
    c.toNat < 0x80 ∧ String.utf8EncodeChar c = [UInt8.ofNat c.toNat] ∨
      0x80 ≤ c.toNat ∧ ∃ b tail, String.utf8EncodeChar c = b :: tail ∧ 0xC0 ≤ b.toNat ∧
        ∀ b' ∈ tail, isContinuation b' = true := by
  have hcontinues : ∀ code : Nat, isContinuation (continuation code) = true := by
    intro code
    rw [isContinuation, toNat_continuation, Bool.and_eq_true, decide_eq_true_eq, decide_eq_true_eq]
    omega
  have hvalid : c.toNat < 0xD800 ∨ 0xDFFF < c.toNat ∧ c.toNat < 0x110000 := c.valid
  unfold String.utf8EncodeChar
  have hcode : c.val.toNat = c.toNat := rfl
  simp only [hcode]
  generalize c.toNat = n at *
  have hall : ∀ codes : List Nat, ∀ b' ∈ codes.map continuation, isContinuation b' = true := by
    intro codes b' hb'
    obtain ⟨code, -, rfl⟩ := List.mem_map.1 hb'
    exact hcontinues code
  -- the number of bytes follows from the code
  by_cases hone : n ≤ 0x7F
  · left
    rw [if_pos hone]
    exact ⟨by omega, rfl⟩
  · right
    rw [if_neg hone]
    refine ⟨by omega, ?_⟩
    by_cases htwo : n ≤ 0x7FF
    · rw [if_pos htwo]
      refine ⟨_, [n].map continuation, rfl, ?_, hall _⟩
      rw [toNat_ofNat (by omega)]
      omega
    · rw [if_neg htwo]
      by_cases hthree : n ≤ 0xFFFF
      · rw [if_pos hthree]
        refine ⟨_, [n / 64, n].map continuation, rfl, ?_, hall _⟩
        rw [toNat_ofNat (by omega)]
        omega
      · rw [if_neg hthree]
        refine ⟨_, [n / 4096, n / 64, n].map continuation, rfl, ?_, hall _⟩
        rw [toNat_ofNat (by omega)]
        omega

/-- The bytes of a character begin with one that continues no character; those behind it do. -/
theorem exists_utf8EncodeChar (c : Char) : ∃ b tail, String.utf8EncodeChar c = b :: tail ∧
    isContinuation b = false ∧ ∀ b' ∈ tail, isContinuation b' = true := by
  rcases utf8EncodeChar_cases c with ⟨hascii, hbytes⟩ | ⟨-, b, tail, hbytes, hb, htail⟩
  · refine ⟨_, [], hbytes, ?_, nofun⟩
    rw [isContinuation, toNat_ofNat (by omega), decide_eq_false (by omega), Bool.false_and]
  · refine ⟨b, tail, hbytes, ?_, htail⟩
    rw [isContinuation, decide_eq_false (p := b.toNat ≤ 0xBF) (by omega), Bool.and_false]

/-- An ASCII byte stands in the character with its code only. -/
theorem eq_of_mem_utf8EncodeChar {c : Char} {b : UInt8} (hb : b ∈ String.utf8EncodeChar c)
    (hascii : b.toNat < 0x80) : c = Char.ofNat b.toNat := by
  rcases utf8EncodeChar_cases c with ⟨hc, hbytes⟩ | ⟨-, first, tail, hbytes, hfirst, htail⟩
  · rw [hbytes, List.mem_singleton] at hb
    rw [hb, toNat_ofNat (by omega), Char.ofNat_toNat]
  · rw [hbytes, List.mem_cons] at hb
    rcases hb with rfl | hb
    · omega
    · have hcontinues := htail b hb
      rw [isContinuation, Bool.and_eq_true, decide_eq_true_eq] at hcontinues
      omega

/-! ## Sizes -/

/-- The number of bytes of a text. -/
def byteSize (s : List Char) : Nat := (bytesOf s).length

theorem bytesOf_append (s t : List Char) : bytesOf (s ++ t) = bytesOf s ++ bytesOf t :=
  List.flatMap_append

theorem byteSize_append (s t : List Char) : byteSize (s ++ t) = byteSize s + byteSize t := by
  rw [byteSize, bytesOf_append, List.length_append]
  rfl

theorem byteSize_cons (c : Char) (s : List Char) :
    byteSize (c :: s) = (String.utf8EncodeChar c).length + byteSize s := by
  rw [byteSize, bytesOf_cons, List.length_append]
  rfl

theorem byteSize_pos {s : List Char} (h : s ≠ []) : 0 < byteSize s := by
  obtain ⟨c, rest, rfl⟩ := List.exists_cons_of_ne_nil h
  obtain ⟨b, tail, hbytes, -⟩ := exists_utf8EncodeChar c
  rw [byteSize_cons, hbytes, List.length_cons]
  omega

theorem utf8ByteSize_ofList (s : List Char) : (String.ofList s).utf8ByteSize = byteSize s := by
  induction s with
  | nil => rfl
  | cons c rest ih =>
    rw [String.ofList_cons, String.utf8ByteSize_append, String.utf8ByteSize_singleton, ih,
      byteSize_cons, String.length_utf8EncodeChar]

theorem utf8ByteSize_eq (s : String) : s.utf8ByteSize = byteSize s.toList := by
  rw [← utf8ByteSize_ofList, String.ofList_toList]

/-! ## Borders of characters -/

/-- The offset stands between two characters, at the beginning or at the end: there is no byte that
continues a character. -/
def isBorder (bytes : List UInt8) (i : Nat) : Bool :=
  i == 0 ||
    match bytes[i]? with
    | some b => !isContinuation b
    | none => i == bytes.length

/-- A text is cut in two at a border. -/
theorem exists_of_isBorder {s : List Char} {i : Nat} (h : isBorder (bytesOf s) i = true) :
    ∃ before after, s = before ++ after ∧ byteSize before = i := by
  induction s generalizing i with
  | nil =>
    have hzero : i = 0 := by simpa [isBorder, bytesOf] using h
    exact ⟨[], [], rfl, hzero.symm⟩
  | cons c rest ih =>
    obtain ⟨b, tail, hbytes, -, htail⟩ := exists_utf8EncodeChar c
    by_cases hzero : i = 0
    · exact ⟨[], c :: rest, rfl, hzero.symm⟩
    · have hbehind := (Bool.or_eq_true_iff.1 h).resolve_left (by simpa using hzero)
      by_cases hinside : i < (String.utf8EncodeChar c).length
      · -- inside the character stands a byte that continues it
        have hmem : (String.utf8EncodeChar c)[i] ∈ tail := by
          obtain ⟨k, rfl⟩ : ∃ k, i = k + 1 := ⟨i - 1, by omega⟩
          simp only [hbytes, List.getElem_cons_succ, List.getElem_mem]
        rw [bytesOf_cons, List.getElem?_append_left hinside,
          List.getElem?_eq_getElem hinside] at hbehind
        simp [htail _ hmem] at hbehind
      · -- behind the character the offset counts from its end
        have hrest : isBorder (bytesOf rest) (i - (String.utf8EncodeChar c).length) = true := by
          rw [bytesOf_cons, List.getElem?_append_right (by omega), List.length_append] at hbehind
          apply Bool.or_eq_true_iff.2
          right
          split at hbehind
          · exact hbehind
          · rw [beq_iff_eq] at hbehind ⊢
            omega
        obtain ⟨before, after, rfl, hsize⟩ := ih hrest
        refine ⟨c :: before, after, rfl, ?_⟩
        rw [byteSize_cons, hsize]
        omega

/-- At the offset behind a part of a text stands the first byte of what follows. -/
theorem getElem?_byteSize (before after : List Char) :
    (bytesOf (before ++ after))[byteSize before]? = (bytesOf after)[0]? := by
  rw [bytesOf_append, byteSize, List.getElem?_append_right (Nat.le_refl _), Nat.sub_self]

/-- The borders are the offsets that cut the text in two. -/
theorem isBorder_iff {s : List Char} {i : Nat} :
    isBorder (bytesOf s) i = true ↔ ∃ before after, s = before ++ after ∧ byteSize before = i := by
  constructor
  · exact exists_of_isBorder
  · intro h
    obtain ⟨before, after, rfl, rfl⟩ := h
    rw [isBorder, getElem?_byteSize]
    cases after with
    | nil =>
      rw [List.append_nil]
      simp [bytesOf, byteSize]
    | cons c rest =>
      obtain ⟨b, tail, hbytes, hb, -⟩ := exists_utf8EncodeChar c
      simp [bytesOf_cons, hbytes, hb]

/-! ## Slices -/

/-- The text between two offsets, if they stand in order at borders of characters. -/
def slice? (s : List Char) (start stop : Nat) : Option (List Char) :=
  let bytes := bytesOf s
  if start ≤ stop && isBorder bytes start && isBorder bytes stop then
    decode? ((bytes.drop start).take (stop - start))
  else none

/-- What stands between two parts of a text is cut out between their offsets. -/
theorem slice?_append (before inside after : List Char) :
    slice? (before ++ inside ++ after) (byteSize before) (byteSize (before ++ inside)) =
      some inside := by
  have hstart : isBorder (bytesOf (before ++ inside ++ after)) (byteSize before) = true := by
    exact isBorder_iff.2 ⟨before, inside ++ after, List.append_assoc .., rfl⟩
  have hstop := isBorder_iff.2 ⟨before ++ inside, after, rfl, rfl⟩
  have horder : byteSize before ≤ byteSize (before ++ inside) := by
    rw [byteSize_append]
    omega
  rw [slice?, hstart, hstop, decide_eq_true horder]
  show decode? _ = _
  have hcut : ((bytesOf (before ++ inside ++ after)).drop (byteSize before)).take
      (byteSize (before ++ inside) - byteSize before) = bytesOf inside := by
    rw [byteSize_append, Nat.add_sub_cancel_left, List.append_assoc, bytesOf_append, bytesOf_append]
    show List.take (bytesOf inside).length (List.drop (bytesOf before).length _) = _
    rw [List.drop_left, List.take_left]
  rw [hcut, decode?_bytesOf]

end ODataEngine.Text
