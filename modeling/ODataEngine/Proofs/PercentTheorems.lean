import Mathlib.Tactic.IntervalCases
import ODataEngine.Text.Percent

/-!
# Texts without percent escapes

A text that holds no percent escape is its own decoded form (`percentDecode?_of_not_hasEscape`): its
bytes are its UTF-8 form, and that reads back, one character after the other (`decode?_bytesOf`).
-/

namespace ODataEngine.Text

/-! ## Bytes of one character -/

/-- The byte that continues a character by the last six bits of a code. -/
def continuation (code : Nat) : UInt8 := UInt8.ofNat (code % 64 + 128)

/-- The code that continuation bytes add to. -/
def continued (code : Nat) (tail : List Nat) : Nat :=
  tail.foldl (fun code k => code * 64 + k % 64) code

theorem toNat_ofNat {n : Nat} (h : n < 256) : (UInt8.ofNat n).toNat = n := by
  rw [UInt8.toNat_ofNat', Nat.mod_eq_of_lt h]

theorem toNat_continuation (code : Nat) : (continuation code).toNat = code % 64 + 128 :=
  toNat_ofNat (by omega)

theorem charOf_toNat (c : Char) : charOf c.toNat = c := by
  have hvalid : c.toNat.isValidChar := c.valid
  rw [charOf, if_pos hvalid, Char.ofNat_toNat]

theorem continueCode_append (tail : List Nat) (code : Nat) (rest : List UInt8) :
    continueCode code tail.length (tail.map continuation ++ rest)
      = (some (continued code tail), tail.length) := by
  induction tail generalizing code with
  | nil => rfl
  | cons k tail ih =>
    have hcontinues : isContinuation (continuation k) = true := by
      rw [isContinuation, toNat_continuation, Bool.and_eq_true, decide_eq_true_eq,
        decide_eq_true_eq]
      omega
    have hbits : (continuation k).toNat % 64 = k % 64 := by
      rw [toNat_continuation]
      omega
    rw [List.length_cons, List.map_cons, List.cons_append, continueCode, if_pos hcontinues, hbits,
      ih]
    rfl

/-- A leading byte and the bytes that it asks for are read as one character. -/
theorem nextChar_of_leadOf {first k : Nat} {tail : List Nat} {low high : Nat}
    (hfirst : 0x80 ≤ first ∧ first < 0x100)
    (hlead : leadOf (UInt8.ofNat first) = some ⟨low, high, tail.length + 1⟩)
    (hsecond : low ≤ k % 64 + 128 ∧ k % 64 + 128 ≤ high) {c : Char}
    (hc : continued (first % Nat.pow 2 (5 - tail.length)) (k :: tail) = c.toNat)
    (rest : List UInt8) :
    nextChar (UInt8.ofNat first) ((k :: tail).map continuation ++ rest)
      = (some c, tail.length + 1) := by
  have hlength : 6 - (tail.length + 1) = 5 - tail.length := by omega
  have hread := continueCode_append (k :: tail) (first % Nat.pow 2 (5 - tail.length)) rest
  rw [hc, List.length_cons, List.map_cons, List.cons_append] at hread
  unfold nextChar
  rw [toNat_ofNat hfirst.2, if_neg (by omega), hlead, List.map_cons, List.cons_append]
  simp only [toNat_continuation, hsecond, decide_true, Bool.and_self, if_true, hlength, hread,
    Option.map_some, charOf_toNat]

/-! ## Characters of one to four bytes -/

theorem leadOf_two {n : Nat} (hleast : 2 ≤ n) (hn : n < 32) :
    leadOf (UInt8.ofNat (n % 32 + 192)) = some ⟨0x80, 0xBF, 1⟩ := by
  interval_cases n <;> rfl

theorem leadOf_three {n : Nat} (hn : n < 16) : leadOf (UInt8.ofNat (n % 16 + 224)) =
    some ⟨if n = 0 then 0xA0 else 0x80, if n = 13 then 0x9F else 0xBF, 2⟩ := by
  interval_cases n <;> rfl

theorem leadOf_four {n : Nat} (hn : n < 5) : leadOf (UInt8.ofNat (n % 8 + 240)) =
    some ⟨if n = 0 then 0x90 else 0x80, if n = 4 then 0x8F else 0xBF, 3⟩ := by
  interval_cases n <;> rfl

/-- The UTF-8 form of a character is read as that character. -/
theorem nextChar_utf8EncodeChar (c : Char) : ∃ b tail, String.utf8EncodeChar c = b :: tail ∧
    ∀ rest, nextChar b (tail ++ rest) = (some c, tail.length) := by
  have hvalid : c.toNat < 0xD800 ∨ 0xDFFF < c.toNat ∧ c.toNat < 0x110000 := c.valid
  unfold String.utf8EncodeChar
  have hcode : c.val.toNat = c.toNat := rfl
  simp only [hcode]
  generalize hn : c.toNat = n at *
  split
  · refine ⟨_, _, rfl, fun rest => ?_⟩
    unfold nextChar
    rw [toNat_ofNat (by omega), if_pos (by omega), ← hn, charOf_toNat]
    rfl
  · split
    · have hlead : leadOf (UInt8.ofNat (n / 64 % 32 + 192)) = some ⟨0x80, 0xBF, 1⟩ :=
        leadOf_two (by omega) (by omega)
      refine ⟨_, [n].map continuation, rfl,
        nextChar_of_leadOf (by omega) hlead (by omega) ?_⟩
      show (n / 64 % 32 + 192) % 32 * 64 + n % 64 = _
      omega
    · split
      · refine ⟨_, [n / 64, n].map continuation, rfl,
          nextChar_of_leadOf (by omega) (leadOf_three (by omega)) ?_ ?_⟩
        · constructor <;> split <;> omega
        · show ((n / 4096 % 16 + 224) % 16 * 64 + n / 64 % 64) * 64 + n % 64 = _
          omega
      · refine ⟨_, [n / 4096, n / 64, n].map continuation, rfl,
          nextChar_of_leadOf (by omega) (leadOf_four (by omega)) ?_ ?_⟩
        · constructor <;> split <;> omega
        · show (((n / 262144 % 8 + 240) % 8 * 64 + n / 4096 % 64) * 64 + n / 64 % 64) * 64 +
            n % 64 = _
          omega

/-! ## Texts -/

theorem bytesOf_cons (c : Char) (s : List Char) :
    bytesOf (c :: s) = String.utf8EncodeChar c ++ bytesOf s :=
  List.flatMap_cons

/-- The UTF-8 form of a text spells that text. -/
theorem decode?_bytesOf (s : List Char) : decode? (bytesOf s) = some s := by
  induction s with
  | nil =>
    unfold bytesOf decode?
    rfl
  | cons c s ih =>
    obtain ⟨b, tail, hbytes, hread⟩ := nextChar_utf8EncodeChar c
    rw [bytesOf_cons, hbytes, List.cons_append, decode?, hread]
    simp only [List.drop_left, ih, Option.map_some]

/-- Somewhere in the text stands a percent escape: a `%` with two hexadecimal digits behind it. -/
def HasEscape (s : List Char) : Prop :=
  ∃ before a b after, s = before ++ '%' :: a :: b :: after ∧ (hexByte? a b).isSome = true

theorem not_hasEscape_of_not_mem {s : List Char} (h : '%' ∉ s) : ¬ HasEscape s := by
  rintro ⟨before, a, b, after, rfl, -⟩
  exact h (List.mem_append_right _ List.mem_cons_self)

theorem not_hasEscape_of_cons {c : Char} {s : List Char} (h : ¬ HasEscape (c :: s)) :
    ¬ HasEscape s := by
  rintro ⟨before, a, b, after, rfl, hbyte⟩
  exact h ⟨c :: before, a, b, after, rfl, hbyte⟩

/-- Where there is no escape, the bytes are those of the text. -/
theorem percentBytes_eq_bytesOf {s : List Char} (h : ¬ HasEscape s) :
    percentBytes s = bytesOf s := by
  fun_induction percentBytes s with
  | case1 a b rest byte hbyte =>
    exact absurd ⟨[], a, b, rest, rfl, by rw [hbyte]; rfl⟩ h
  | case2 a b rest _ ih => rw [ih (not_hasEscape_of_cons h), ← bytesOf_cons]
  | case3 c rest _ ih => rw [ih (not_hasEscape_of_cons h), ← bytesOf_cons]
  | case4 => rfl

/-- A text without escapes is its own decoded form. -/
theorem percentDecode?_of_not_hasEscape {s : String} (h : ¬ HasEscape s.toList) :
    percentDecode? s = some s.toList := by
  rw [percentDecode?, percentBytes_eq_bytesOf h, decode?_bytesOf]

end ODataEngine.Text
