import ODataEngine.Proofs.LiteralTheorems
import ODataEngine.Proofs.ShortestTheorems

/-!
# Texts of doubles

The text of a double, in any layout, is read back as the double (`Edm.readFloating?_text`): it holds
the digits of the shortest decimal, and the point and the exponent restore its power of ten.
-/

namespace ODataEngine

/-! ## Digits -/

theorem natOfDigits_append (s t : List Char) :
    natOfDigits (s ++ t) = natOfDigits s * 10 ^ t.length + natOfDigits t := by
  have hfold : ∀ n, t.foldl (fun n c => n * 10 + digitValue c) n
      = n * 10 ^ t.length + natOfDigits t := by
    induction t with
    | nil => simp [natOfDigits]
    | cons c t ih =>
      intro n
      rw [natOfDigits, List.foldl_cons, List.foldl_cons, ih, ih (0 * 10 + digitValue c)]
      rw [List.length_cons]
      ring
  rw [natOfDigits, List.foldl_append, hfold]
  rfl

theorem natOfDigits_zeros (k : ℕ) : natOfDigits (List.replicate k '0') = 0 := by
  induction k with
  | zero => rfl
  | succ k ih =>
    rw [List.replicate_succ', natOfDigits_append, ih]
    rfl

theorem isDigit_of_mem_zeros {k : ℕ} {c : Char} (h : c ∈ List.replicate k '0') :
    c.isDigit = true := by
  rw [List.eq_of_mem_replicate h]
  rfl

theorem takeWhile_isDigit {digits rest : List Char} (h : ∀ c ∈ digits, c.isDigit = true)
    (hrest : ∀ c, rest.head? = some c → c.isDigit = false) :
    (digits ++ rest).takeWhile Char.isDigit = digits ∧
      (digits ++ rest).dropWhile Char.isDigit = rest := by
  rw [List.takeWhile_append_of_pos h, List.dropWhile_append_of_pos h]
  cases rest with
  | nil => simp
  | cons c rest => simp [hrest c rfl]

namespace Edm

/-! ## Parts of a literal -/

/-- The point of a decimal literal with the digits behind it, or nothing. -/
inductive WritesFraction : List Char → List Char → Prop
  | nothing : WritesFraction [] []
  | point {digits : List Char} (h : ∀ c ∈ digits, c.isDigit = true) :
    WritesFraction digits ('.' :: digits)

/-- The exponent of a decimal literal, or nothing. -/
inductive WritesExponent : ℤ → List Char → Prop
  | nothing : WritesExponent 0 []
  | marked {exponent : ℤ} {text : List Char}
    (h : JsonNumber.readExponent text = some (exponent, [])) : WritesExponent exponent ('e' :: text)

/-- A sign in front of a digit is told apart from the rest. -/
theorem sign_append (negative : Bool) {s : List Char} {c : Char} (hhead : s.head? = some c)
    (hc : c.isDigit = true) :
    (match (if negative then ['-'] else []) ++ s with
      | '-' :: rest => (true, rest)
      | '+' :: rest => (false, rest)
      | _ => (false, (if negative then ['-'] else []) ++ s)) = (negative, s) := by
  cases negative with
  | true => rfl
  | false =>
    obtain ⟨rest, rfl⟩ := List.head?_eq_some_iff.1 hhead
    split
    · next heq =>
      cases heq
      cases hc
    · next heq =>
      cases heq
      cases hc
    · rfl

/-- A literal of a sign, digits, a fraction and an exponent is read as what its parts write. -/
theorem readDecimal?_of_parts (negative : Bool) {whole fraction point tail : List Char}
    {exponent : ℤ} (hne : whole ≠ []) (hwhole : ∀ c ∈ whole, c.isDigit = true)
    (hfraction : WritesFraction fraction point) (hexponent : WritesExponent exponent tail) :
    readDecimal? ((if negative then ['-'] else []) ++ (whole ++ (point ++ tail)))
      = some (negative, natOfDigits (whole ++ fraction), exponent - fraction.length) := by
  obtain ⟨c, rest, hcons⟩ := List.exists_cons_of_ne_nil hne
  have hsign := sign_append negative (s := whole ++ (point ++ tail)) (c := c)
    (by rw [hcons]; rfl) (hwhole c (by rw [hcons]; exact List.mem_cons_self))
  have htail : ∀ c, tail.head? = some c → c.isDigit = false := by
    cases hexponent with
    | nothing => exact nofun
    | marked h =>
      rintro _ ⟨⟩
      rfl
  have hrest : ∀ c, (point ++ tail).head? = some c → c.isDigit = false := by
    cases hfraction with
    | nothing => exact htail
    | point h =>
      rintro _ ⟨⟩
      rfl
  obtain ⟨hdigits, hbehind⟩ := takeWhile_isDigit hwhole hrest
  unfold readDecimal?
  split
  next negative' s' hsplit =>
  obtain ⟨rfl, rfl⟩ := Prod.mk.inj (hsplit.symm.trans hsign)
  have hempty : whole.isEmpty = false := by simpa using hne
  rw [hdigits, hbehind]
  cases hfraction with
  | nothing =>
    cases hexponent with
    | nothing => simp [hempty]
    | marked h => simp [hempty, h]
  | point hfraction =>
    obtain ⟨hfirst, hlast⟩ := takeWhile_isDigit hfraction htail
    cases hexponent with
    | nothing =>
      rw [List.append_nil] at hfirst hlast
      simp [hempty, hfirst, hlast]
    | marked h => simp [hempty, hfirst, hlast, h]

/-- A literal without a sign writes a number. -/
inductive WritesNumber : List Char → ℚ → Prop
  | parts {whole fraction point tail : List Char} {exponent : ℤ} (hne : whole ≠ [])
      (hwhole : ∀ c ∈ whole, c.isDigit = true) (hfraction : WritesFraction fraction point)
      (hexponent : WritesExponent exponent tail) :
    WritesNumber (whole ++ (point ++ tail))
      (natOfDigits (whole ++ fraction) * 10 ^ (exponent - fraction.length))

theorem WritesNumber.readDecimal?_eq {s : List Char} {v : ℚ} (h : WritesNumber s v)
    (negative : Bool) : ∃ digits power,
      readDecimal? ((if negative then ['-'] else []) ++ s) = some (negative, digits, power) ∧
        (digits : ℚ) * 10 ^ power = v := by
  cases h with
  | parts hne hwhole hfraction hexponent =>
    exact ⟨_, _, readDecimal?_of_parts negative hne hwhole hfraction hexponent, rfl⟩

/-! ## The two layouts -/

/-- Digits with a point among them or beside them write what the place of the point says. -/
theorem writesNumber_positional {s : List Char} (hne : s ≠ [])
    (hs : ∀ c ∈ s, c.isDigit = true) (point : ℤ) :
    WritesNumber (positional s point) (natOfDigits s * 10 ^ (point - s.length)) := by
  have hzeros : ∀ k, ∀ c ∈ List.replicate k '0', c.isDigit = true := fun _ _ => isDigit_of_mem_zeros
  unfold positional
  split
  · next hpoint =>
    have hfraction : ∀ c ∈ List.replicate (-point).toNat '0' ++ s, c.isDigit = true :=
      List.forall_mem_append.2 ⟨hzeros _, hs⟩
    convert WritesNumber.parts (List.cons_ne_nil '0' []) (by simp) (.point hfraction) .nothing
      using 1
    · simp
    · have hvalue : natOfDigits (['0'] ++ (List.replicate (-point).toNat '0' ++ s))
          = natOfDigits s := by
        rw [natOfDigits_append, natOfDigits_append, natOfDigits_zeros]
        simp [natOfDigits, digitValue]
      rw [hvalue, List.length_append, List.length_replicate]
      congr 2
      omega
  · split
    · next hpoint hlong =>
      generalize hk : point.toNat - s.length = k
      have hwhole : ∀ c ∈ s ++ List.replicate k '0', c.isDigit = true :=
        List.forall_mem_append.2 ⟨hs, hzeros k⟩
      have hzero : ∀ c ∈ ['0'], c.isDigit = true := by simp
      convert WritesNumber.parts (by simp [hne]) hwhole (.point hzero) .nothing using 1
      · simp
      · have hpower : point - s.length = k := by omega
        rw [natOfDigits_append, natOfDigits_append, natOfDigits_zeros, List.length_replicate,
          hpower]
        simp [natOfDigits, digitValue]
    · next hpoint hshort =>
      have htake : ∀ c ∈ s.take point.toNat, c.isDigit = true :=
        fun c hc => hs c (List.mem_of_mem_take hc)
      have hdrop : ∀ c ∈ s.drop point.toNat, c.isDigit = true :=
        fun c hc => hs c (List.mem_of_mem_drop hc)
      convert WritesNumber.parts (by simp [hne]; omega) htake (.point hdrop) .nothing using 1
      · simp
      · rw [List.take_append_drop, List.length_drop]
        congr 2
        omega

/-- The digits of an exponent behind its sign are read as the exponent. -/
theorem readExponent_signed (n : ℤ) :
    JsonNumber.readExponent ((if n < 0 then '-' else '+') :: digitsOf n.natAbs) = some (n, []) := by
  have hne : (digitsOf n.natAbs).isEmpty = false := by
    rw [List.isEmpty_eq_false_iff]
    exact Nat.toDigits_ne_nil
  have hdigits : ∀ c ∈ digitsOf n.natAbs, c.isDigit = true := fun _ => isDigit_of_mem_digitsOf
  obtain ⟨htake, hdrop⟩ := @takeWhile_isDigit _ [] hdigits nofun
  rw [List.append_nil] at htake hdrop
  rcases lt_or_ge n 0 with hn | hn
  · have habs : -|n| = n := by rw [abs_of_neg hn, neg_neg]
    simp [JsonNumber.readExponent, hn, htake, hdrop, hne, natOfDigits_digitsOf, habs]
  · have habs : |n| = n := abs_of_nonneg hn
    simp [JsonNumber.readExponent, hn.not_gt, htake, hdrop, hne, natOfDigits_digitsOf, habs]

/-- Digits with the point after the first write what the exponent says. -/
theorem writesNumber_scientific {s : List Char} (hne : s ≠ [])
    (hs : ∀ c ∈ s, c.isDigit = true) (exponent : ℤ) :
    WritesNumber (scientific s exponent) (natOfDigits s * 10 ^ (exponent + 1 - s.length)) := by
  have htail : WritesExponent exponent
      ('e' :: (if exponent < 0 then '-' else '+') :: digitsOf exponent.natAbs) :=
    .marked (readExponent_signed exponent)
  obtain ⟨d, rest, rfl⟩ := List.exists_cons_of_ne_nil hne
  obtain ⟨hd, hrest⟩ := List.forall_mem_cons.1 hs
  cases rest with
  | nil =>
    convert WritesNumber.parts hne hs .nothing htail using 1
    · rfl
    · simp
  | cons d' rest =>
    convert WritesNumber.parts (List.cons_ne_nil d []) (by simpa using hd) (.point hrest) htail
      using 1
    · rfl
    · rw [List.singleton_append, List.length_cons]
      congr 2
      push_cast
      ring

/-- The text of a double in any layout is its sign and the number of its shortest decimal. -/
theorem exists_writesNumber_text (layout : FloatLayout) (x : Binary64) :
    ∃ s, layout.text x = (if x.negative then ['-'] else []) ++ s ∧
      WritesNumber s x.shortest.toRat := by
  unfold FloatLayout.text
  extract_lets sign decimal digits point
  have hne : digits ≠ [] := Nat.toDigits_ne_nil
  have hdigits : ∀ c ∈ digits, c.isDigit = true := fun _ => isDigit_of_mem_digitsOf
  have hvalue : natOfDigits digits = decimal.digits := natOfDigits_digitsOf decimal.digits
  split
  · next hzero =>
    refine ⟨['0', '.', '0'], rfl, ?_⟩
    have hshortest : x.shortest = ⟨0, 0⟩ := by
      rw [Binary64.shortest, if_pos hzero]
    rw [hshortest]
    convert WritesNumber.parts (List.cons_ne_nil '0' []) (by simp)
      (.point (by simp : ∀ c ∈ ['0'], c.isDigit = true)) .nothing using 1
    · rfl
    · simp [Binary64.Decimal.toRat, natOfDigits, digitValue]
  · split
    · refine ⟨_, rfl, ?_⟩
      convert writesNumber_positional hne hdigits point using 1
      rw [hvalue]
      show decimal.digits * (10 : ℚ) ^ decimal.power = _
      congr 2
      omega
    · refine ⟨_, rfl, ?_⟩
      convert writesNumber_scientific hne hdigits (point - 1) using 1
      rw [hvalue]
      show decimal.digits * (10 : ℚ) ^ decimal.power = _
      congr 2
      omega

/-- The text of a double in any layout is read as the double. -/
theorem readFloating?_text (layout : FloatLayout) (x : Binary64) :
    readFloating? (layout.text x) = some x := by
  obtain ⟨s, htext, hs⟩ := exists_writesNumber_text layout x
  obtain ⟨digits, power, hread, hvalue⟩ := hs.readDecimal?_eq x.negative
  rw [readFloating?, htext, hread]
  exact Binary64.ofDecimal_of_eq_shortest hvalue

/-- The text of an integer that fits 64 bits is read as the nearest double. -/
theorem readFloating?_integerText {n : ℤ} (hleast : -Nat.pow 2 63 ≤ n)
    (hgreatest : n < Nat.pow 2 64) : readFloating? (integerText n) = some (.ofInt n) := by
  have hdigits : ∀ c ∈ digitsOf n.natAbs, c.isDigit = true := fun _ => isDigit_of_mem_digitsOf
  have hne : digitsOf n.natAbs ≠ [] := Nat.toDigits_ne_nil
  have htext : integerText n = (if decide (n < 0) then ['-'] else []) ++ digitsOf n.natAbs := by
    unfold integerText
    by_cases hn : n < 0 <;> simp [hn]
  have hread : readDecimal? (integerText n) = some (decide (n < 0), n.natAbs, 0) := by
    have hparts := readDecimal?_of_parts (decide (n < 0)) hne hdigits .nothing .nothing
    rw [List.append_nil, List.append_nil, natOfDigits_digitsOf] at hparts
    rw [htext]
    exact hparts
  have hsmall : n.natAbs < 10 ^ 20 := by
    simp only [Nat.pow_eq] at hleast hgreatest
    omega
  have hdecimal : Binary64.ofDecimal (decide (n < 0)) n.natAbs 0
      = Binary64.ofRatio (decide (n < 0)) n.natAbs 1 := Binary64.ofDecimal_integer hsmall _
  have hbound : (n.natAbs : ℚ) / (1 : ℕ) < 2 ^ (1023 : ℤ) := by
    rw [Nat.cast_one, div_one]
    calc (n.natAbs : ℚ) < 10 ^ 20 := by exact_mod_cast hsmall
      _ ≤ 2 ^ (67 : ℤ) := by norm_num
      _ ≤ 2 ^ (1023 : ℤ) := zpow_le_zpow_right₀ one_le_two (by norm_num)
  obtain ⟨x, hx⟩ := Binary64.exists_ofRatio_eq Nat.one_pos hbound (decide (n < 0))
  rw [readFloating?, hread]
  show Binary64.ofDecimal _ _ _ = _
  rw [hdecimal, hx, Binary64.ofInt, hx]
  rfl

end Edm

/-! ## Characters -/

theorem isBare_of_isDigit {c : Char} (h : c.isDigit = true) : Text.isBare c = true :=
  Text.isBare_of_isPlain (isPlain_of_isDigit h)

theorem isBare_positional {s : List Char} (hs : ∀ c ∈ s, Text.isBare c = true) (point : ℤ) :
    ∀ c ∈ positional s point, Text.isBare c = true := by
  have hzeros : ∀ k, ∀ c ∈ List.replicate k '0', Text.isBare c = true :=
    fun _ _ hc => isBare_of_isDigit (isDigit_of_mem_zeros hc)
  unfold positional
  split
  · exact List.forall_mem_cons.2 ⟨rfl, List.forall_mem_cons.2
      ⟨rfl, List.forall_mem_append.2 ⟨hzeros _, hs⟩⟩⟩
  · split
    · refine List.forall_mem_append.2 ⟨List.forall_mem_append.2 ⟨hs, hzeros _⟩, ?_⟩
      simp [Text.isBare, Text.isPlain]
    · exact List.forall_mem_append.2 ⟨fun c hc => hs c (List.mem_of_mem_take hc),
        List.forall_mem_cons.2 ⟨rfl, fun c hc => hs c (List.mem_of_mem_drop hc)⟩⟩

theorem isBare_scientific {s : List Char} (hs : ∀ c ∈ s, Text.isBare c = true) (exponent : ℤ) :
    ∀ c ∈ scientific s exponent, Text.isBare c = true := by
  have hexponent : ∀ c ∈ 'e' :: (if exponent < 0 then '-' else '+') :: digitsOf exponent.natAbs,
      Text.isBare c = true := by
    refine List.forall_mem_cons.2 ⟨rfl, List.forall_mem_cons.2 ⟨?_, fun c hc => ?_⟩⟩
    · split <;> rfl
    · exact isBare_of_isDigit (isDigit_of_mem_digitsOf hc)
  unfold scientific
  refine List.forall_mem_append.2 ⟨?_, hexponent⟩
  split
  · exact hs
  · obtain ⟨hd, hrest⟩ := List.forall_mem_cons.1 hs
    exact List.forall_mem_cons.2 ⟨hd, List.forall_mem_cons.2 ⟨rfl, hrest⟩⟩
  · exact nofun

/-- The text of a double is written in bare characters. -/
theorem isBare_floatText (layout : FloatLayout) (x : Binary64) :
    ∀ c ∈ layout.text x, Text.isBare c = true := by
  unfold FloatLayout.text
  extract_lets sign decimal digits point
  have hsign : ∀ c ∈ sign, Text.isBare c = true := by
    simp only [sign]
    split
    · simp [Text.isBare, Text.isPlain]
    · exact List.forall_mem_nil _
  have hdigits : ∀ c ∈ digits, Text.isBare c = true :=
    fun c hc => isBare_of_isDigit (isDigit_of_mem_digitsOf hc)
  split
  · refine List.forall_mem_append.2 ⟨hsign, ?_⟩
    simp [Text.isBare, Text.isPlain]
  · split
    · exact List.forall_mem_append.2 ⟨hsign, isBare_positional hdigits point⟩
    · exact List.forall_mem_append.2 ⟨hsign, isBare_scientific hdigits (point - 1)⟩

theorem floatText_ne_nil (layout : FloatLayout) (x : Binary64) : layout.text x ≠ [] := by
  intro hnil
  have hread := Edm.readFloating?_text layout x
  rw [hnil] at hread
  cases hread

end ODataEngine
