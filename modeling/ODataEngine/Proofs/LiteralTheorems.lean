import ODataEngine.Edm.Literal
import ODataEngine.Proofs.TextTheorems

/-!
# Values that come from literals

What `EdmType.coerce` makes of a literal is written back by `EdmType.keyText` as a literal of the
same value (`coerce_keyText`). The types with a fraction are left out: the text of a double is the
shortest that reads back (`Edm.readFloating?_text`).
-/

namespace ODataEngine

/-! ## Integers -/

theorem natOfDigits_digitsOf (n : Nat) : natOfDigits (digitsOf n) = n := by
  have hstep : (fun n c => n * 10 + digitValue c) = fun n c => 10 * n + (c.toNat - '0'.toNat) := by
    funext n c
    rw [digitValue, Nat.mul_comm]
  have hread : Nat.ofDigitChars 10 (Nat.toDigits 10 n) 0 = n := Nat.ofDigitChars_ten_toDigits
  rw [natOfDigits, digitsOf, hstep, ← Nat.ofDigitChars_eq_foldl, hread]

theorem isDigit_of_mem_digitsOf {n : Nat} {c : Char} (h : c ∈ digitsOf n) : c.isDigit = true :=
  Nat.isDigit_of_mem_toDigits (by decide) (by decide) h

theorem isPlain_of_isDigit {c : Char} (h : c.isDigit = true) : Text.isPlain c = true := by
  simp [Text.isPlain, Char.isAlphanum, h]

theorem isPlain_integerText (n : Int) : ∀ c ∈ integerText n, Text.isPlain c = true := by
  have hdigits : ∀ c ∈ digitsOf n.natAbs, Text.isPlain c = true :=
    fun c hc => isPlain_of_isDigit (isDigit_of_mem_digitsOf hc)
  unfold integerText
  split
  · exact List.forall_mem_cons.2 ⟨rfl, hdigits⟩
  · exact hdigits

theorem integerText_ne_nil (n : Int) : integerText n ≠ [] := by
  unfold integerText
  split
  · exact List.cons_ne_nil _ _
  · exact Nat.toDigits_ne_nil

namespace Edm

/-- Digits behind a hyphen or none are read as the number they write, if it fits 64 bits. -/
theorem readInteger?_of_digits (negative : Bool) {digits : List Char} (hne : digits ≠ [])
    (hdigits : ∀ c ∈ digits, c.isDigit = true) {n : Int}
    (hn : n = if negative then -(natOfDigits digits : Int) else natOfDigits digits)
    (hleast : -Nat.pow 2 63 ≤ n) (hgreatest : n < Nat.pow 2 63) :
    readInteger? (if negative then '-' :: digits else digits) = some n := by
  have hread : ∀ negative' digits', (negative', digits') = (negative, digits) →
      (if digits'.isEmpty || !digits'.all Char.isDigit then none
        else
          let magnitude : Int := natOfDigits digits'
          let n := if negative' then -magnitude else magnitude
          if -Nat.pow 2 63 ≤ n && n < Nat.pow 2 63 then some n else none) = some n := by
    rintro _ _ ⟨⟩
    have hempty : digits.isEmpty = false := by simpa using hne
    have hall : digits.all Char.isDigit = true := List.all_eq_true.2 hdigits
    have hfits : (decide (-Nat.pow 2 63 ≤ n) && decide (n < Nat.pow 2 63)) = true := by
      rw [Bool.and_eq_true, decide_eq_true_eq, decide_eq_true_eq]
      exact ⟨hleast, hgreatest⟩
    rw [hempty, hall, if_neg (by simp)]
    extract_lets magnitude n'
    have hsame : n' = n := hn.symm
    rw [hsame, if_pos hfits]
  unfold readInteger?
  cases negative with
  | true => exact hread true digits rfl
  | false =>
    obtain ⟨c, rest, rfl⟩ := List.exists_cons_of_ne_nil hne
    have hc := hdigits c List.mem_cons_self
    simp only [Bool.false_eq_true, if_false]
    split
    · next heq =>
      cases heq
      cases hc
    · next heq =>
      cases heq
      cases hc
    · exact hread false _ rfl

/-- The text of an integer of 64 bits is read as that integer. -/
theorem readInteger?_integerText {n : Int} (hleast : -Nat.pow 2 63 ≤ n)
    (hgreatest : n < Nat.pow 2 63) : readInteger? (integerText n) = some n := by
  have hdigits : ∀ c ∈ digitsOf n.natAbs, c.isDigit = true := fun _ => isDigit_of_mem_digitsOf
  have hne : digitsOf n.natAbs ≠ [] := Nat.toDigits_ne_nil
  have hread := fun negative => @readInteger?_of_digits negative _ hne hdigits n
  rw [natOfDigits_digitsOf] at hread
  unfold integerText
  split
  · exact hread true (by simp only [if_true]; omega) hleast hgreatest
  · exact hread false (by simp only [Bool.false_eq_true, if_false]; omega) hleast hgreatest

end Edm

namespace EdmType

variable {t : EdmType} {raw : String} {v : Json}

/-! ## Keys -/

theorem coerce_of_isInteger (h : t.isInteger = true) (raw : String) :
    t.coerce raw =
      match Edm.readInteger? (Text.trim raw.toList) with
      | some n =>
        if t.integerRange.1 ≤ n && n ≤ t.integerRange.2 then .ok (.ofInt n) else .error ⟨raw, t⟩
      | none => .error ⟨raw, t⟩ := by
  unfold coerce
  exact if_pos h

/-- The text of an integer in the range of the type is read as that integer. -/
theorem coerce_integerText (ht : t.isInteger = true) {n : Int}
    (h : t.integerRange.1 ≤ n ∧ n ≤ t.integerRange.2) :
    t.coerce (String.ofList (integerText n)) = .ok (.ofInt n) := by
  have hbounds := t.integerRange_bounds
  have hread : Edm.readInteger? (integerText n) = some n :=
    Edm.readInteger?_integerText (Int.le_trans hbounds.1 h.1) (Int.lt_of_le_of_lt h.2 hbounds.2)
  rw [coerce_of_isInteger ht, String.toList_ofList, Text.trim_of_isPlain (isPlain_integerText n),
    hread]
  exact if_pos (by simp [h])

theorem coerce_guid (raw : String) :
    guid.coerce raw =
      if Edm.isGuid (Text.trim raw.toList) then .ok (.string (String.ofList (Text.trim raw.toList)))
      else .error ⟨raw, guid⟩ := rfl

/-- Texts and dates are read as they are. -/
theorem coerce_of_isQuoted (h : t.isQuoted = true) (hguid : t ≠ guid) (raw : String) :
    t.coerce raw = .ok (.string raw) := by
  cases t with
  | string | date | dateTimeOffset => rfl
  | guid => exact absurd rfl hguid
  | _ => cases h

/-- A literal of a type without fractions is read as an integer, a truth value, an identifier or a
text. -/
theorem coerce_cases (ht : t.isFloating = false) (h : t.coerce raw = .ok v) :
    (t.isInteger = true ∧ ∃ n, v = .ofInt n ∧ t.integerRange.1 ≤ n ∧ n ≤ t.integerRange.2) ∨
      (t = boolean ∧ ∃ b, v = .bool b) ∨
      (t = guid ∧ Edm.isGuid (Text.trim raw.toList) = true ∧
        v = .string (String.ofList (Text.trim raw.toList))) ∨
      (t.isQuoted = true ∧ t ≠ guid ∧ v = .string raw) := by
  by_cases hinteger : t.isInteger = true
  · rw [coerce_of_isInteger hinteger] at h
    split at h
    · next n _ =>
      split at h
      · next hrange =>
        cases h
        rw [Bool.and_eq_true, decide_eq_true_eq, decide_eq_true_eq] at hrange
        exact .inl ⟨hinteger, n, rfl, hrange⟩
      · cases h
    · cases h
  · right
    cases t with
    | byte | int16 | int32 | int64 => exact absurd rfl hinteger
    | single | double | decimal => cases ht
    | boolean =>
      left
      unfold coerce at h
      simp only [isInteger, isFloating, Bool.false_eq_true, if_false] at h
      split at h
      · cases h
        exact ⟨rfl, true, rfl⟩
      · split at h
        · cases h
          exact ⟨rfl, false, rfl⟩
        · cases h
    | guid =>
      rw [coerce_guid] at h
      split at h
      · next hguid =>
        cases h
        exact .inr (.inl ⟨rfl, hguid, rfl⟩)
      · cases h
    | string | date | dateTimeOffset =>
      cases h
      exact .inr (.inr ⟨rfl, by decide, rfl⟩)

/-- The text of a key that was read from a literal is a literal of that key. -/
theorem coerce_keyText (ht : t.isFloating = false) (h : t.coerce raw = .ok v) :
    t.coerce (String.ofList (keyText v)) = .ok v := by
  rcases coerce_cases ht h with
    ⟨hinteger, n, rfl, hrange⟩ | ⟨rfl, b, rfl⟩ | ⟨rfl, hguid, rfl⟩ | ⟨hquoted, hguid, rfl⟩
  · exact coerce_integerText hinteger hrange
  · cases b <;> rfl
  · rw [coerce_guid, keyText, String.ofList_toList, String.toList_ofList, Text.trim_trim,
      if_pos hguid]
  · rw [keyText, String.ofList_toList]
    exact coerce_of_isQuoted hquoted hguid raw

/-- The keys of a type that is not quoted are written in plain characters. -/
theorem isPlain_keyText (ht : t.isFloating = false) (hquoted : t.isQuoted = false)
    (h : t.coerce raw = .ok v) : keyText v ≠ [] ∧ ∀ c ∈ keyText v, Text.isPlain c = true := by
  rcases coerce_cases ht h with
    ⟨-, n, rfl, -⟩ | ⟨-, b, rfl⟩ | ⟨rfl, -, -⟩ | ⟨hquoted', -, -⟩
  · exact ⟨integerText_ne_nil n, isPlain_integerText n⟩
  · cases b with
    | true => exact ⟨List.cons_ne_nil _ _, List.all_eq_true.1 rfl⟩
    | false => exact ⟨List.cons_ne_nil _ _, List.all_eq_true.1 rfl⟩
  · cases hquoted
  · rw [hquoted] at hquoted'
    cases hquoted'

end EdmType

end ODataEngine
