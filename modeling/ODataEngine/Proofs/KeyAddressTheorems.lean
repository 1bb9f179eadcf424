import ODataEngine.Proofs.FloatTextTheorems
import ODataEngine.Proofs.KeyTheorems

/-!
# Keys that an address can hold

A field takes more values than a path can name: integers beyond the range of the type, and
identifiers that are none. The other keys (`EdmType.CanAddress`) are read back from their literals
(`EdmType.coerce_keyText_of_canAddress`), but for integers under a type with fractions, which are
read as doubles (`EdmType.asWritten`).
-/

namespace ODataEngine

/-! ## Identifiers -/

namespace Edm

theorem isBlank_of_hexDigit? {c : Char} (h : (Text.hexDigit? c).isSome = true) :
    Text.isBlank c = false := by
  have hrange : 48 ≤ c.toNat ∧ c.toNat ≤ 57 ∨ 97 ≤ c.toNat ∧ c.toNat ≤ 102 ∨
      65 ≤ c.toNat ∧ c.toNat ≤ 70 := by
    simp only [Text.hexDigit?, Bool.and_eq_true, decide_eq_true_eq, Char.le_def,
      UInt32.le_iff_toNat_le] at h
    split at h
    · next hdigit => exact .inl hdigit
    · split at h
      · next hlower => exact .inr (.inl hlower)
      · split at h
        · next hupper => exact .inr (.inr hupper)
        · cases h
  simp only [Text.isBlank, Bool.or_eq_false_iff, Bool.and_eq_false_iff, decide_eq_false_iff_not,
    beq_eq_false_iff_ne]
  omega

/-- Neither end is a blank. -/
def BareEnds (s : List Char) : Prop :=
  (∀ c, s.head? = some c → Text.isBlank c = false) ∧
    ∀ c, s.getLast? = some c → Text.isBlank c = false

theorem bareEnds_of_isHyphenatedGuid {s : List Char} (h : isHyphenatedGuid s = true) :
    s ≠ [] ∧ BareEnds s := by
  obtain ⟨hlength, hall⟩ := Bool.and_eq_true_iff.1 h
  rw [beq_iff_eq] at hlength
  have hhex : ∀ i c, s[i]? = some c → i ∉ [8, 13, 18, 23] → Text.isBlank c = false := by
    intro i c hc hi
    have hdigit := List.all_eq_true.1 hall (c, i) (List.mk_mem_zipIdx_iff_getElem?.2 hc)
    simp only [List.mem_cons, List.not_mem_nil, or_false, not_or] at hi
    simp only [hi, beq_iff_eq, Bool.or_eq_true, or_false, if_false] at hdigit
    exact isBlank_of_hexDigit? hdigit
  refine ⟨fun hnil => ?_, fun c hc => ?_, fun c hc => ?_⟩
  · rw [hnil] at hlength
    cases hlength
  · rw [List.head?_eq_getElem?] at hc
    exact hhex 0 c hc (by decide)
  · rw [List.getLast?_eq_getElem?, hlength] at hc
    exact hhex 35 c hc (by decide)

/-- No blanks surround an identifier. -/
theorem trim_of_isGuid {s : List Char} (h : isGuid s = true) : Text.trim s = s := by
  suffices hends : BareEnds s from Text.trim_eq_self hends.1 hends.2
  rcases Bool.or_eq_true_iff.1 h with hplain | hhyphens
  · have hall := List.all_eq_true.1 (Bool.and_eq_true_iff.1 hplain).2
    exact ⟨fun c hc => isBlank_of_hexDigit? (hall c (List.mem_of_mem_head? hc)),
      fun c hc => isBlank_of_hexDigit? (hall c (List.mem_of_getLast? hc))⟩
  · have hguid := bareEnds_of_isHyphenatedGuid hhyphens
    unfold unwrapGuid at hguid
    split at hguid
    · next rest hstart =>
      have hs := Text.afterStart?_eq_some_iff.1 hstart
      cases hend : Text.beforeEnd? ['\x7d'] rest with
      | none =>
        rw [hend] at hguid
        exact hguid.2
      | some body =>
        rw [hs, Text.eq_append_of_beforeEnd? hend]
        refine ⟨fun c hc => ?_, fun c hc => ?_⟩
        · cases hc
          rfl
        · rw [← List.append_assoc, List.getLast?_concat] at hc
          cases hc
          rfl
    · split at hguid
      · next hurn =>
        obtain ⟨hne, -, hlast⟩ := hguid
        refine ⟨fun c hc => ?_, fun c hc => hlast c ?_⟩
        · -- the first letter of the marker, in either case
          obtain ⟨rest, rfl⟩ := List.head?_eq_some_iff.1 hc
          have hlower : c.toLower = 'u' := (List.cons.inj hurn).1
          cases hletter : Text.isLetter c with
          | true => exact Text.not_isBlank_of_isPlain (Text.isPlain_of_isLetter hletter)
          | false =>
            rw [Text.toLower_of_not_letter hletter] at hlower
            rw [hlower]
            rfl
        · have hlong : ¬ s.length ≤ 9 := fun hshort => hne (List.drop_eq_nil_of_le hshort)
          rw [List.getLast?_drop, if_neg hlong]
          exact hc
      · exact hguid.2

end Edm

namespace EdmType

/-! ## Literals of keys -/

/-- A path can name the key: a number is in the range of an integer type, or fits 64 bits if the
type has fractions, and an identifier is one. No path names an array or an object. -/
def CanAddress (t : EdmType) : Json → Prop
  | .number (.int n) =>
    if t.isInteger then t.integerRange.1 ≤ n ∧ n ≤ t.integerRange.2
    else -Nat.pow 2 63 ≤ n ∧ n < Nat.pow 2 64
  | .string s => t = guid → Edm.isGuid s.toList = true
  | .array _ | .object _ => False
  | _ => True

/-- The key as its literal writes it: under a type with fractions every number is a double. -/
def asWritten (t : EdmType) : Json → Json
  | .number n => if t.isFloating then .number (.float n.toBinary64) else .number n
  | v => v

theorem coerce_of_isFloating {t : EdmType} (h : t.isFloating = true) (raw : String) :
    t.coerce raw =
      match Edm.readFloating? (Text.trim raw.toList) with
      | some x => .ok (.number (.float x))
      | none => .error ⟨raw, t⟩ := by
  cases t with
  | single | double | decimal => rfl
  | _ => cases h

theorem isFloating_of_isInteger {t : EdmType} (h : t.isInteger = true) : t.isFloating = false := by
  cases t with
  | byte | int16 | int32 | int64 => rfl
  | _ => cases h

/-- What a literal is read as may stand in a field of the type. -/
theorem accepts_of_coerce {t : EdmType} {raw : String} {v : Json}
    (h : t.coerce raw = .ok v) : t.accepts v = true := by
  by_cases ht : t.isFloating = true
  · rw [coerce_of_isFloating ht] at h
    split at h
    · next x _ =>
      cases h
      exact (accepts_number_iff t _).2 (.inr ht)
    · cases h
  · rw [Bool.not_eq_true] at ht
    rcases coerce_cases ht h with
      ⟨hinteger, n, rfl, -⟩ | ⟨rfl, b, rfl⟩ | ⟨rfl, -, rfl⟩ | ⟨hquoted, -, rfl⟩
    · exact (accepts_number_iff t _).2 (.inl ⟨hinteger, rfl⟩)
    · rfl
    · rfl
    · exact hquoted

/-- Numbers under a type with fractions are read as doubles. -/
theorem coerce_of_readFloating? {t : EdmType} (ht : t.isFloating = true) {s : List Char}
    (hs : ∀ c ∈ s, Text.isBare c = true) {x : Binary64} (hread : Edm.readFloating? s = some x) :
    t.coerce (String.ofList s) = .ok (.number (.float x)) := by
  rw [coerce_of_isFloating ht, String.toList_ofList, Text.trim_of_isBare hs, hread]

/-- The text of a key that a path can name is read as the key. -/
theorem coerce_keyText_of_canAddress {t : EdmType} {key : Json} (haccepts : t.accepts key = true)
    (hnull : key.isNull = false) (h : t.CanAddress key) :
    t.coerce (String.ofList (keyText key)) = .ok (t.asWritten key) := by
  cases key with
  | null => cases hnull
  | array | object => cases h
  | bool b =>
    obtain rfl : t = boolean := beq_iff_eq.1 haccepts
    cases b <;> rfl
  | string s =>
    have hquoted : t.isQuoted = true := haccepts
    show t.coerce (String.ofList s.toList) = .ok (.string s)
    rw [String.ofList_toList]
    by_cases hguid : t = guid
    · subst hguid
      have hs : Edm.isGuid s.toList = true := h rfl
      rw [coerce_guid, Edm.trim_of_isGuid hs, if_pos hs, String.ofList_toList]
    · exact coerce_of_isQuoted hquoted hguid s
  | number n =>
    rcases (accepts_number_iff t n).1 haccepts with ⟨hinteger, hn⟩ | hfloating
    · have hfloating := isFloating_of_isInteger hinteger
      cases n with
      | float x => cases hn
      | int n =>
        have hrange : t.integerRange.1 ≤ n ∧ n ≤ t.integerRange.2 := by
          rwa [CanAddress, if_pos hinteger] at h
        rw [asWritten, hfloating]
        exact coerce_integerText hinteger hrange
    · have hinteger : ¬ t.isInteger = true := by
        intro hinteger
        rw [isFloating_of_isInteger hinteger] at hfloating
        cases hfloating
      rw [asWritten, if_pos hfloating]
      cases n with
      | float x =>
        exact coerce_of_readFloating? hfloating (isBare_floatText _ x) (Edm.readFloating?_text _ x)
      | int n =>
        have hfits : -Nat.pow 2 63 ≤ n ∧ n < Nat.pow 2 64 := by
          rwa [CanAddress, if_neg hinteger] at h
        exact coerce_of_readFloating? hfloating
          (fun c hc => Text.isBare_of_isPlain (isPlain_integerText n c hc))
          (Edm.readFloating?_integerText hfits.1 hfits.2)

/-- The literal of a key holds the text of the key. -/
theorem isLiteral_of_accepts {t : EdmType} {key : Json} (haccepts : t.accepts key = true)
    (hnull : key.isNull = false) : Route.IsLiteral (t.keyLiteral key).toList (keyText key) := by
  unfold keyLiteral
  cases hquoted : t.isQuoted with
  | true =>
    rw [if_pos rfl, String.toList_ofList]
    exact .quoted _
  | false =>
    rw [if_neg Bool.false_ne_true, String.toList_ofList]
    cases key with
    | null => cases hnull
    | array | object => cases haccepts
    | string s =>
      have hstring : t.isQuoted = true := haccepts
      rw [hquoted] at hstring
      cases hstring
    | bool b => cases b <;> exact .bare (List.cons_ne_nil _ _) (List.all_eq_true.1 rfl)
    | number n =>
      cases n with
      | int n =>
        exact .bare (integerText_ne_nil n)
          fun c hc => Text.isBare_of_isPlain (isPlain_integerText n c hc)
      | float x => exact .bare (floatText_ne_nil _ x) (isBare_floatText _ x)

end EdmType

end ODataEngine
