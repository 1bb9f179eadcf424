import Mathlib.Data.List.TakeWhile
import ODataEngine.Text.Blank
import ODataEngine.Text.Cut
import ODataEngine.Text.Letters

/-!
# Trimming, cutting and comparing texts

Facts about the functions that take texts apart:

* `stripEnds`, the one operation behind trimming blanks and dropping slashes, with what it removes
  and what it leaves alone;
* plain characters, which are neither blanks nor punctuation;
* cutting at a separator whose place is known;
* names that agree when case is ignored: they hold the same characters but for letters.
-/

namespace ODataEngine.Text

/-! ## Stripping both ends -/

/-- The text without the characters at either end that pass a test. -/
def stripEnds (p : Char → Bool) (s : List Char) : List Char :=
  ((s.dropWhile p).reverse.dropWhile p).reverse

theorem dropAround_eq_stripEnds (c : Char) (s : List Char) :
    dropAround c s = stripEnds (· == c) s := rfl

section stripEnds

variable {p : Char → Bool} {b b' s : List Char}

/-- What remains after dropping begins with a character that fails the test. -/
theorem head_dropWhile {c : Char} (h : (s.dropWhile p).head? = some c) : p c = false := by
  have hhead := List.head?_dropWhile_not p s
  rw [h] at hhead
  exact hhead

/-- Nothing is dropped off a text that begins with a character that fails the test. -/
theorem dropWhile_eq_self (h : ∀ c, s.head? = some c → p c = false) : s.dropWhile p = s := by
  cases s with
  | nil => rfl
  | cons c rest => exact List.dropWhile_cons_of_neg (Bool.eq_false_iff.1 (h c rfl))

/-- Text that is stripped anyway may stand at either end. -/
theorem stripEnds_append (hb : ∀ c ∈ b, p c = true) (hb' : ∀ c ∈ b', p c = true) :
    stripEnds p (b ++ s ++ b') = stripEnds p s := by
  have hrev : ∀ c ∈ b'.reverse, p c = true := fun c hc => hb' c (List.mem_reverse.1 hc)
  unfold stripEnds
  rw [List.append_assoc, List.dropWhile_append_of_pos hb, List.dropWhile_append]
  split
  · next h =>
    rw [List.isEmpty_iff.1 h, List.dropWhile_eq_nil_iff.2 hb']
  · rw [List.reverse_append, List.dropWhile_append_of_pos hrev]

/-- A text whose ends fail the test is left alone. -/
theorem stripEnds_eq_self (hhead : ∀ c, s.head? = some c → p c = false)
    (hlast : ∀ c, s.getLast? = some c → p c = false) : stripEnds p s = s := by
  have hrev : ∀ c, s.reverse.head? = some c → p c = false := by
    intro c hc
    exact hlast c (by rw [← hc, List.head?_reverse])
  unfold stripEnds
  rw [dropWhile_eq_self hhead, dropWhile_eq_self hrev, List.reverse_reverse]

/-- Between two texts whose outer ends fail the test nothing is stripped. -/
theorem stripEnds_between {t : List Char} (hs : s ≠ []) (ht : t ≠ [])
    (hhead : ∀ c, s.head? = some c → p c = false)
    (hlast : ∀ c, t.getLast? = some c → p c = false) (middle : List Char) :
    stripEnds p (s ++ middle ++ t) = s ++ middle ++ t := by
  obtain ⟨c, rest, rfl⟩ := List.exists_cons_of_ne_nil hs
  apply stripEnds_eq_self
  · exact fun d hd => hhead d hd
  · intro d hd
    have hend := List.getLast?_eq_some_getLast ht
    rw [List.getLast?_append, hend, Option.some_or, ← hend] at hd
    exact hlast d hd

/-- A text is its stripped form between two stretches that are stripped. -/
theorem exists_eq_stripEnds (p : Char → Bool) (s : List Char) :
    ∃ b b', (∀ c ∈ b, p c = true) ∧ (∀ c ∈ b', p c = true) ∧ s = b ++ stripEnds p s ++ b' := by
  have taken : ∀ t : List Char, ∀ c ∈ t.takeWhile p, p c = true :=
    fun t => List.all_eq_true.1 List.all_takeWhile
  refine ⟨s.takeWhile p, ((s.dropWhile p).reverse.takeWhile p).reverse, taken s, ?_, ?_⟩
  · intro c hc
    exact taken _ c (List.mem_reverse.1 hc)
  · unfold stripEnds
    rw [List.append_assoc, ← List.reverse_append, List.takeWhile_append_dropWhile,
      List.reverse_reverse, List.takeWhile_append_dropWhile]

theorem head_stripEnds {c : Char} (h : (stripEnds p s).head? = some c) : p c = false := by
  -- the stripped text begins where the text without its front does, unless all of that goes
  have hpre : stripEnds p s <+: s.dropWhile p := by
    unfold stripEnds
    rw [← List.reverse_suffix, List.reverse_reverse]
    exact List.dropWhile_suffix p
  obtain ⟨t, ht⟩ := hpre
  apply head_dropWhile (s := s)
  rw [← ht, List.head?_append, h]
  rfl

theorem getLast_stripEnds {c : Char} (h : (stripEnds p s).getLast? = some c) : p c = false := by
  unfold stripEnds at h
  rw [List.getLast?_reverse] at h
  exact head_dropWhile h

@[simp] theorem stripEnds_stripEnds (p : Char → Bool) (s : List Char) :
    stripEnds p (stripEnds p s) = stripEnds p s :=
  stripEnds_eq_self (fun _ => head_stripEnds) (fun _ => getLast_stripEnds)

theorem length_stripEnds_le (p : Char → Bool) (s : List Char) :
    (stripEnds p s).length ≤ s.length := by
  obtain ⟨b, b', -, -, h⟩ := exists_eq_stripEnds p s
  have := congrArg List.length h
  simp only [List.length_append] at this
  omega

end stripEnds

/-! ## Trimming -/

theorem allBlank_iff {s : List Char} : allBlank s = true ↔ ∀ c ∈ s, isBlank c = true :=
  List.all_eq_true

/-- Blanks at either end do not change what trimming leaves. -/
theorem trim_append {b s b' : List Char} (hb : allBlank b = true) (hb' : allBlank b' = true) :
    trim (b ++ s ++ b') = trim s :=
  stripEnds_append (allBlank_iff.1 hb) (allBlank_iff.1 hb')

theorem trim_append_left {b s : List Char} (hb : allBlank b = true) : trim (b ++ s) = trim s := by
  simpa using trim_append (s := s) hb (rfl : allBlank [] = true)

theorem trim_append_right {s b : List Char} (hb : allBlank b = true) : trim (s ++ b) = trim s := by
  simpa using trim_append (s := s) (rfl : allBlank [] = true) hb

@[simp] theorem trim_trim (s : List Char) : trim (trim s) = trim s := stripEnds_stripEnds isBlank s

theorem length_trim_le (s : List Char) : (trim s).length ≤ s.length := length_stripEnds_le isBlank s

/-- A text without blanks at its ends is its own trimmed form. -/
theorem trim_eq_self {s : List Char} (hhead : ∀ c, s.head? = some c → isBlank c = false)
    (hlast : ∀ c, s.getLast? = some c → isBlank c = false) : trim s = s :=
  stripEnds_eq_self hhead hlast

theorem trim_of_not_isBlank {s : List Char} (h : ∀ c ∈ s, isBlank c = false) : trim s = s := by
  apply trim_eq_self
  · exact fun c hc => h c (List.mem_of_mem_head? hc)
  · exact fun c hc => h c (List.mem_of_getLast? hc)

/-- Between two texts without blanks at their outer ends nothing is trimmed. -/
theorem trim_between {s t : List Char} (hs : s ≠ []) (ht : t ≠ [])
    (hhead : ∀ c, s.head? = some c → isBlank c = false)
    (hlast : ∀ c, t.getLast? = some c → isBlank c = false) (middle : List Char) :
    trim (s ++ middle ++ t) = s ++ middle ++ t :=
  stripEnds_between hs ht hhead hlast middle

/-- A text is its trimmed form between blanks. -/
theorem exists_eq_trim (s : List Char) :
    ∃ b b', allBlank b = true ∧ allBlank b' = true ∧ s = b ++ trim s ++ b' := by
  obtain ⟨b, b', hb, hb', h⟩ := exists_eq_stripEnds isBlank s
  exact ⟨b, b', allBlank_iff.2 hb, allBlank_iff.2 hb', h⟩

/-- Only blank texts trim to nothing. -/
theorem trim_eq_nil_iff {s : List Char} : trim s = [] ↔ allBlank s = true := by
  constructor
  · intro h
    obtain ⟨b, b', hb, hb', hs⟩ := exists_eq_trim s
    rw [h, List.append_nil] at hs
    rw [hs, allBlank, List.all_append, Bool.and_eq_true]
    exact ⟨hb, hb'⟩
  · intro h
    simpa [trim, trimEnd, trimStart] using trim_append_left (s := []) h

theorem not_isBlank_head {s : List Char} (h : trim s = s) {c : Char} (hc : s.head? = some c) :
    isBlank c = false := by
  rw [← h] at hc
  exact head_stripEnds hc

theorem not_isBlank_getLast {s : List Char} (h : trim s = s) {c : Char}
    (hc : s.getLast? = some c) : isBlank c = false := by
  rw [← h] at hc
  exact getLast_stripEnds hc

theorem mem_of_mem_trim {s : List Char} {c : Char} (h : c ∈ trim s) : c ∈ s := by
  obtain ⟨b, b', -, -, hs⟩ := exists_eq_trim s
  rw [hs]
  exact List.mem_append_left _ (List.mem_append_right _ h)

/-- Trimming takes away nothing but blanks. -/
theorem mem_trim_or_isBlank {s : List Char} {c : Char} (h : c ∈ s) :
    c ∈ trim s ∨ isBlank c = true := by
  obtain ⟨b, b', hb, hb', hs⟩ := exists_eq_trim s
  rw [hs, List.mem_append, List.mem_append] at h
  rcases h with (h | h) | h
  · exact .inr (allBlank_iff.1 hb c h)
  · exact .inl h
  · exact .inr (allBlank_iff.1 hb' c h)

theorem trim_eq_of_trimmed {s : String} (h : trimmed s = s) : trim s.toList = s.toList := by
  have hchars := congrArg String.toList h
  rwa [trimmed, String.toList_ofList] at hchars

theorem isAllBlank_trimmed (s : String) : isAllBlank (trimmed s) = isAllBlank s := by
  have h := trim_eq_nil_iff (s := trim s.toList)
  rw [trim_trim, trim_eq_nil_iff] at h
  rw [isAllBlank, isAllBlank, trimmed, String.toList_ofList]
  exact Bool.eq_iff_iff.2 h.symm

theorem length_trimmed_le (s : String) : (trimmed s).length ≤ s.length := by
  rw [trimmed, String.length_ofList, ← String.length_toList]
  exact length_trim_le s.toList

/-! ## Plain characters -/

/-- A character of numbers and words: a letter, a digit or the hyphen. -/
def isPlain (c : Char) : Bool := c.isAlphanum || c == '-'

theorem isLetter_iff {c : Char} : isLetter c = true ↔
    (65 ≤ c.toNat ∧ c.toNat ≤ 90) ∨ (97 ≤ c.toNat ∧ c.toNat ≤ 122) := by
  have hupper : c.isUpper = decide (65 ≤ c.val ∧ c.val ≤ 90) := rfl
  have hlower : c.isLower = (decide (97 ≤ c.val) && decide (c.val ≤ 122)) := rfl
  have hletter : isLetter c = (c.isUpper || c.isLower) := rfl
  rw [hletter, hupper, hlower, Bool.or_eq_true, Bool.and_eq_true]
  simp only [decide_eq_true_eq, UInt32.le_iff_toNat_le]
  rfl

theorem toNat_of_isPlain {c : Char} (h : isPlain c = true) :
    c.toNat = 45 ∨ 48 ≤ c.toNat ∧ c.toNat ≤ 57 ∨ isLetter c = true := by
  rw [isPlain, Char.isAlphanum, Bool.or_eq_true, Bool.or_eq_true, beq_iff_eq] at h
  rcases h with (hletter | hdigit) | rfl
  · exact .inr (.inr hletter)
  · exact .inr (.inl (Char.isDigit_iff_toNat.1 hdigit))
  · exact .inl rfl

theorem not_isBlank_of_isPlain {c : Char} (h : isPlain c = true) : isBlank c = false := by
  have hrange := toNat_of_isPlain h
  rw [isLetter_iff] at hrange
  simp only [isBlank, Bool.or_eq_false_iff, Bool.and_eq_false_iff, decide_eq_false_iff_not,
    beq_eq_false_iff_ne]
  omega

theorem isPlain_of_isLetter {c : Char} (h : isLetter c = true) : isPlain c = true := by
  rw [isLetter] at h
  rw [isPlain, Char.isAlphanum, h]
  rfl

/-- A character of the literals that stand without quotes: a plain one, or the point or the plus
sign of a number with a fraction. -/
def isBare (c : Char) : Bool := isPlain c || c == '.' || c == '+'

theorem isBare_of_isPlain {c : Char} (h : isPlain c = true) : isBare c = true := by
  rw [isBare, h]
  rfl

theorem not_isBlank_of_isBare {c : Char} (h : isBare c = true) : isBlank c = false := by
  rw [isBare, Bool.or_eq_true, Bool.or_eq_true, beq_iff_eq, beq_iff_eq] at h
  rcases h with (hplain | rfl) | rfl
  · exact not_isBlank_of_isPlain hplain
  · rfl
  · rfl

theorem trim_of_isBare {s : List Char} (h : ∀ c ∈ s, isBare c = true) : trim s = s :=
  trim_of_not_isBlank fun c hc => not_isBlank_of_isBare (h c hc)

theorem trim_of_isPlain {s : List Char} (h : ∀ c ∈ s, isPlain c = true) : trim s = s :=
  trim_of_isBare fun c hc => isBare_of_isPlain (h c hc)

/-! ## Cutting -/

/-- A text is cut at a separator that does not stand before it. -/
theorem cutAtFirst_append {sep : Char} {before : List Char} (h : sep ∉ before)
    (after : List Char) : cutAtFirst sep (before ++ sep :: after) = some (before, after) := by
  induction before with
  | nil => simp [cutAtFirst]
  | cons c rest ih =>
    rw [List.mem_cons, not_or] at h
    rw [List.cons_append, cutAtFirst, if_neg (Ne.symm h.1), ih h.2]
    rfl

/-- A text is cut at its first separator. -/
theorem not_mem_of_cutAtFirst {sep : Char} {s before after : List Char}
    (h : cutAtFirst sep s = some (before, after)) : sep ∉ before := by
  induction s generalizing before with
  | nil => cases h
  | cons c rest ih =>
    unfold cutAtFirst at h
    split at h
    · cases h
      simp
    · next hc =>
      obtain ⟨⟨before', after'⟩, hcut, hparts⟩ := Option.map_eq_some_iff.1 h
      cases hparts
      rw [List.mem_cons, not_or]
      exact ⟨Ne.symm hc, ih hcut⟩

/-- A split text has at least one part. -/
theorem splitAt_ne_nil (sep : Char) (s : List Char) : splitAt sep s ≠ [] := by
  cases s with
  | nil => simp [splitAt]
  | cons c rest =>
    unfold splitAt
    split
    · simp
    · split <;> simp

theorem intercalate_cons_cons {sep : Char} {s t : List Char} {rest : List (List Char)} :
    [sep].intercalate (s :: t :: rest) = s ++ sep :: [sep].intercalate (t :: rest) := by
  rw [List.intercalate_cons_cons, List.append_assoc, List.singleton_append]

theorem beforeEnd?_append (s ending : List Char) : beforeEnd? ending (s ++ ending) = some s := by
  have hstart : afterStart? ending.reverse (s ++ ending).reverse = some s.reverse := by
    rw [afterStart?_eq_some_iff, List.reverse_append]
  rw [beforeEnd?, hstart, Option.map_some, List.reverse_reverse]

theorem eq_append_of_beforeEnd? {ending s before : List Char} (h : beforeEnd? ending s = some before) :
    s = before ++ ending := by
  obtain ⟨rest, hrest, rfl⟩ := Option.map_eq_some_iff.1 h
  rw [← s.reverse_reverse, afterStart?_eq_some_iff.1 hrest, List.reverse_append,
    List.reverse_reverse]

/-! ## Names in any case -/

theorem toLower_of_not_letter {c : Char} (h : isLetter c = false) : c.toLower = c := by
  have hupper : ¬ (c.val ≥ 'A'.val ∧ c.val ≤ 'Z'.val) := by
    intro hupper
    have hletter := isLetter_iff.2 (.inl
      ⟨UInt32.le_iff_toNat_le.1 hupper.1, UInt32.le_iff_toNat_le.1 hupper.2⟩)
    rw [h] at hletter
    cases hletter
  exact dif_neg hupper

theorem isLetter_toLower {c : Char} (h : isLetter c = true) : isLetter c.toLower = true := by
  by_cases hupper : c.val ≥ 'A'.val ∧ c.val ≤ 'Z'.val
  · have hlow : 65 ≤ c.toNat := UInt32.le_iff_toNat_le.1 hupper.1
    have hhigh : c.toNat ≤ 90 := UInt32.le_iff_toNat_le.1 hupper.2
    have hval : c.toLower.val = c.val + ('a'.val - 'A'.val) :=
      congrArg Char.val (dif_pos hupper)
    have hshift : c.toLower.toNat = c.toNat + 32 := by
      have hnat := congrArg UInt32.toNat hval
      rw [UInt32.toNat_add] at hnat
      exact hnat.trans (Nat.mod_eq_of_lt (by show c.toNat + 32 < 2 ^ 32; omega))
    rw [isLetter_iff, hshift]
    omega
  · have hsame : c.toLower = c := dif_neg hupper
    rw [hsame]
    exact h

/-- Only letters are the same but for case. -/
theorem eq_of_toLower_eq {c d : Char} (hc : isLetter c = false) (h : c.toLower = d.toLower) :
    d = c := by
  rw [toLower_of_not_letter hc] at h
  cases hd : isLetter d with
  | false => rw [h, toLower_of_not_letter hd]
  | true =>
    rw [h, isLetter_toLower hd] at hc
    cases hc

/-- Names that agree when case is ignored hold the same characters but for letters. -/
theorem mem_of_sameName {a b : String} (h : sameName a b = true) {c : Char}
    (hc : isLetter c = false) (hmem : c ∈ a.toList) : c ∈ b.toList := by
  have hlower : c.toLower ∈ lower b.toList := by
    rw [← sameName_iff.1 h]
    exact List.mem_map_of_mem hmem
  obtain ⟨d, hd, hsame⟩ := List.mem_map.1 hlower
  rw [← eq_of_toLower_eq hc hsame.symm]
  exact hd

theorem length_eq_of_sameName {a b : String} (h : sameName a b = true) :
    a.toList.length = b.toList.length := by
  have hlower := congrArg List.length (sameName_iff.1 h)
  rwa [lower, lower, List.length_map, List.length_map] at hlower

end ODataEngine.Text
