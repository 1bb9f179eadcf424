import ODataEngine.Proofs.TextTheorems

/-!
# Runs of characters

A reader takes characters of one kind off a text for as long as there are any, so what it takes is
known from what it must be and from what stands behind it (`Text.span_eq_iff`). Words are the runs
between blanks: they are found on either side of a blank apart (`Text.words_append_blank`).
-/

namespace ODataEngine.Text

/-! ## Where a run stops -/

/-- The text begins with no character that passes the test. -/
def Stops (p : Char → Bool) (s : List Char) : Prop := ∀ c, s.head? = some c → p c = false

variable {p : Char → Bool} {s body rest : List Char}

theorem stops_nil : Stops p [] := nofun

theorem stops_cons_iff {c : Char} : Stops p (c :: s) ↔ p c = false := by
  simp [Stops]

theorem stops_append (h : Stops p body) (hne : body ≠ []) : Stops p (body ++ rest) := by
  obtain ⟨c, body, rfl⟩ := List.exists_cons_of_ne_nil hne
  exact stops_cons_iff.2 (stops_cons_iff.1 h)

/-- A run is cut off a text where it is all of one kind and the rest begins with another. -/
theorem span_eq_iff :
    s.takeWhile p = body ∧ s.dropWhile p = rest ↔
      s = body ++ rest ∧ (∀ c ∈ body, p c = true) ∧ Stops p rest := by
  constructor
  · rintro ⟨rfl, rfl⟩
    refine ⟨List.takeWhile_append_dropWhile.symm, ?_, fun c hc => head_dropWhile hc⟩
    exact List.all_eq_true.1 List.all_takeWhile
  · rintro ⟨rfl, hbody, hrest⟩
    have hdrop : (body ++ rest).dropWhile p = rest := by
      rw [List.dropWhile_append_of_pos hbody, dropWhile_eq_self hrest]
    -- the run is what is left of the text in front of the rest
    have hwhole := @List.takeWhile_append_dropWhile _ p (body ++ rest)
    rw [hdrop] at hwhole
    exact ⟨List.append_cancel_right hwhole, hdrop⟩

/-- Characters of one kind, at least one. -/
def IsRun (p : Char → Bool) (s : List Char) : Prop := s ≠ [] ∧ ∀ c ∈ s, p c = true

theorem isRun_iff : IsRun p s ↔ s.isEmpty = false ∧ s.all p = true := by
  rw [IsRun, List.isEmpty_eq_false_iff, List.all_eq_true]

instance (p : Char → Bool) (s : List Char) : Decidable (IsRun p s) := decidable_of_iff' _ isRun_iff

theorem takeRun_eq_some_iff :
    (if (s.takeWhile p).isEmpty then none else some (s.takeWhile p, s.dropWhile p)) =
        some (body, rest) ↔ s = body ++ rest ∧ IsRun p body ∧ Stops p rest := by
  constructor
  · intro h
    split at h
    · cases h
    · next hne =>
      cases h
      obtain ⟨hs, hbody, hrest⟩ := (@span_eq_iff p s).1 ⟨rfl, rfl⟩
      exact ⟨hs, ⟨fun hnil => hne (List.isEmpty_iff.2 hnil), hbody⟩, hrest⟩
  · rintro ⟨hs, ⟨hne, hbody⟩, hrest⟩
    obtain ⟨htake, hdrop⟩ := span_eq_iff.2 ⟨hs, hbody, hrest⟩
    rw [htake, hdrop, if_neg fun hnil => hne (List.isEmpty_iff.1 hnil)]

theorem trimStart_eq_iff : trimStart s = rest ↔
    ∃ b, allBlank b = true ∧ s = b ++ rest ∧ Stops isBlank rest := by
  constructor
  · intro h
    obtain ⟨hs, hb, hrest⟩ := span_eq_iff.1 ⟨rfl, h⟩
    exact ⟨_, allBlank_iff.2 hb, hs, hrest⟩
  · rintro ⟨b, hb, hs, hrest⟩
    exact (span_eq_iff.2 ⟨hs, allBlank_iff.1 hb, hrest⟩).2

/-- Before blanks at its end a text stops where it last has another character. -/
theorem trimEnd_append {b : List Char} (hb : allBlank b = true)
    (hlast : ∀ c, s.getLast? = some c → isBlank c = false) : trimEnd (s ++ b) = s := by
  have hstops : Stops isBlank s.reverse := by
    intro c hc
    rw [List.head?_reverse] at hc
    exact hlast c hc
  have hb' : ∀ c ∈ b.reverse, isBlank c = true :=
    fun c hc => allBlank_iff.1 hb c (List.mem_reverse.1 hc)
  have hsplit : (s ++ b).reverse = b.reverse ++ s.reverse := List.reverse_append
  have hspan := span_eq_iff.2 ⟨hsplit, hb', hstops⟩
  rw [trimEnd, hspan.2, List.reverse_reverse]

theorem exists_eq_trimEnd_append (s : List Char) :
    ∃ b, allBlank b = true ∧ s = trimEnd s ++ b ∧
      ∀ c, (trimEnd s).getLast? = some c → isBlank c = false := by
  obtain ⟨hs, hb, hstops⟩ := (span_eq_iff (p := isBlank) (s := s.reverse)).1 ⟨rfl, rfl⟩
  refine ⟨(s.reverse.takeWhile isBlank).reverse, ?_, ?_, ?_⟩
  · exact allBlank_iff.2 fun c hc => hb c (List.mem_reverse.1 hc)
  · rw [trimEnd, ← List.reverse_append, ← hs, List.reverse_reverse]
  · intro c hc
    rw [trimEnd, List.getLast?_reverse] at hc
    exact hstops c hc

theorem isIdentifierRest_of_isLetter {c : Char} (h : isLetter c = true) :
    isIdentifierRest c = true := by
  rw [isLetter] at h
  rw [isIdentifierRest, Char.isAlphanum, h]
  rfl

theorem isIdentifierRest_of_isIdentifierStart {c : Char} (h : isIdentifierStart c = true) :
    isIdentifierRest c = true := by
  rw [isIdentifierStart, Bool.or_eq_true] at h
  rcases h with h | h
  · exact isIdentifierRest_of_isLetter h
  · rw [isIdentifierRest, h, Bool.or_true]

theorem not_isBlank_of_isIdentifierRest {c : Char} (h : isIdentifierRest c = true) :
    isBlank c = false := by
  rw [isIdentifierRest, Bool.or_eq_true, beq_iff_eq] at h
  rcases h with h | rfl
  · apply not_isBlank_of_isPlain
    rw [isPlain, h]
    rfl
  · rfl

/-! ## Words -/

/-- The words of a text are those on either side of a blank. -/
theorem wordsFrom_append_blank {c : Char} (hc : isBlank c = true) (word x y : List Char) :
    wordsFrom word (x ++ c :: y) = wordsFrom word x ++ words y := by
  -- the word that is being read grows until a blank ends it
  induction x generalizing word with
  | nil =>
    have hcons : wordsFrom word (c :: y) =
        if word.isEmpty then wordsFrom [] y else word :: wordsFrom [] y := if_pos hc
    rw [List.nil_append, hcons, wordsFrom]
    split <;> rfl
  | cons d x ih =>
    rw [List.cons_append, wordsFrom, wordsFrom]
    split
    · split
      · exact ih []
      · rw [ih [], List.cons_append]
    · exact ih (word ++ [d])

theorem words_append_blank {c : Char} (hc : isBlank c = true) (x y : List Char) :
    words (x ++ c :: y) = words x ++ words y := wordsFrom_append_blank hc [] x y

theorem wordsFrom_of_not_isBlank (h : ∀ c ∈ s, isBlank c = false) (word : List Char) :
    wordsFrom word s = if (word ++ s).isEmpty then [] else [word ++ s] := by
  induction s generalizing word with
  | nil => rw [List.append_nil, wordsFrom]
  | cons c s ih =>
    obtain ⟨hc, hrest⟩ := List.forall_mem_cons.1 h
    rw [wordsFrom, if_neg (by rw [hc]; exact Bool.false_ne_true), ih hrest, List.append_assoc,
      List.singleton_append]

/-- A text without blanks is one word. -/
theorem words_of_not_isBlank (hne : s ≠ []) (h : ∀ c ∈ s, isBlank c = false) : words s = [s] := by
  rw [words, wordsFrom_of_not_isBlank h, List.nil_append,
    if_neg fun hnil => hne (List.isEmpty_iff.1 hnil)]

/-- The word that is being read, or one that is still to come, is among the words. -/
theorem wordsFrom_ne_nil {word : List Char} (h : word ≠ [] ∨ ∃ c ∈ s, isBlank c = false) :
    wordsFrom word s ≠ [] := by
  induction s generalizing word with
  | nil =>
    have hword : word ≠ [] := h.resolve_right fun ⟨c, hc, _⟩ => List.not_mem_nil hc
    rw [wordsFrom, if_neg fun hnil => hword (List.isEmpty_iff.1 hnil)]
    exact List.cons_ne_nil _ _
  | cons d s ih =>
    rw [wordsFrom]
    by_cases hd : isBlank d = true
    · rw [if_pos hd]
      split
      · next hempty =>
        obtain ⟨c, hmem, hc⟩ := h.resolve_left fun hword => hword (List.isEmpty_iff.1 hempty)
        refine ih (.inr ⟨c, ?_, hc⟩)
        rcases List.mem_cons.1 hmem with rfl | hmem
        · rw [hd] at hc
          cases hc
        · exact hmem
      · exact List.cons_ne_nil _ _
    · rw [if_neg hd]
      exact ih (.inl (List.append_ne_nil_of_right_ne_nil word (List.cons_ne_nil d [])))

theorem words_ne_nil {c : Char} (hmem : c ∈ s) (hc : isBlank c = false) : words s ≠ [] :=
  wordsFrom_ne_nil (.inr ⟨c, hmem, hc⟩)

/-- A text without blanks at its ends has just one word where it has no blank inside. -/
theorem length_words_le_one_iff (hne : s ≠ []) (htrim : trim s = s) :
    (words s).length ≤ 1 ↔ ∀ c ∈ s, isBlank c = false := by
  constructor
  · intro h c hmem
    by_contra hc
    rw [Bool.not_eq_false] at hc
    -- there is a word on either side of the blank, since it is neither first nor last
    obtain ⟨x, y, rfl⟩ := List.append_of_mem hmem
    have hx : words x ≠ [] := by
      cases x with
      | nil =>
        rw [not_isBlank_head htrim rfl] at hc
        cases hc
      | cons d x => exact words_ne_nil List.mem_cons_self (not_isBlank_head htrim rfl)
    have hy : words y ≠ [] := by
      cases hlast : y.getLast? with
      | none =>
        rw [List.getLast?_eq_none_iff.1 hlast] at htrim
        rw [not_isBlank_getLast htrim List.getLast?_concat] at hc
        cases hc
      | some d =>
        refine words_ne_nil (List.mem_of_getLast? hlast) (not_isBlank_getLast htrim ?_)
        rw [List.getLast?_append, List.getLast?_cons, hlast]
        rfl
    rw [words_append_blank hc, List.length_append] at h
    have hxlen := List.length_pos_iff.2 hx
    have hylen := List.length_pos_iff.2 hy
    omega
  · intro h
    rw [words_of_not_isBlank hne h]
    exact Nat.le_refl 1

end ODataEngine.Text
