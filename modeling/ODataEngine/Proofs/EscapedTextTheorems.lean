import ODataEngine.Pattern.Reader
import ODataEngine.Proofs.TrackTheorems

/-!
# Patterns for a text itself

Escaped text is read as the literals of its characters, whatever they mean in patterns
(`Pattern.reads_escapeText`). With an anchor at either end or none it matches where the text itself
stands: at the beginning, at the end or anywhere (`Regex.matchesIn_of_anchored`).
-/

namespace ODataEngine

namespace Pattern

variable {x text : List Char} {p : Pattern} {ps qs : List Pattern} {s t : List Char}
  {n start j : Nat}

/-! ## Reading part by part -/

namespace Progress

/-- The progress with further patterns as items. -/
def pushAll (g : Progress) (ps : List Pattern) : Progress := ps.foldl (fun g p => g.push p 0) g

variable {g : Progress}

theorem pushAll_append : g.pushAll (ps ++ qs) = (g.pushAll ps).pushAll qs := List.foldl_append

theorem flags_pushAll : (g.pushAll ps).flags = g.flags := by
  induction ps generalizing g with
  | nil => rfl
  | cons p ps ih => exact ih

theorem branches_pushAll : (g.pushAll ps).branches = g.branches := by
  induction ps generalizing g with
  | nil => rfl
  | cons p ps ih => exact ih

theorem items_pushAll :
    (g.pushAll ps).items = (ps.map fun p => ⟨some p, 0⟩).reverse ++ g.items := by
  induction ps generalizing g with
  | nil => rfl
  | cons p ps ih =>
    show ((g.push p 0).pushAll ps).items = _
    rw [ih, List.map_cons, List.reverse_cons, List.append_assoc]
    rfl

/-- A group of one branch is the sequence of its items. -/
theorem finish_pushAll (f : Flags) : (Progress.pushAll ⟨f, [], []⟩ ps).finish.1 = inTurn ps := by
  have hbranches : (Progress.pushAll ⟨f, [], []⟩ ps).branches = [] := branches_pushAll
  rw [finish, hbranches]
  show inTurn ((Progress.pushAll ⟨f, [], []⟩ ps).items.reverse.filterMap (·.body)) = _
  rw [items_pushAll, List.append_nil, List.reverse_reverse, List.filterMap_map]
  exact congrArg inTurn List.filterMap_some

end Progress

/-- A text that is read as patterns, one step for each, where no flag is set. -/
structure Reads (s : List Char) (ps : List Pattern) : Prop where
  length_le : ps.length ≤ s.length
  readBody_append : ∀ fuel groups (g : Progress) rest, g.flags = {} →
    readBody (fuel + ps.length) groups g (s ++ rest) = readBody fuel groups (g.pushAll ps) rest

theorem Reads.nil : Reads [] [] := ⟨Nat.le_refl 0, fun _ _ _ _ _ => rfl⟩

theorem Reads.append (hs : Reads s ps) (ht : Reads t qs) : Reads (s ++ t) (ps ++ qs) := by
  have hle := hs.length_le
  have hle' := ht.length_le
  refine ⟨by rw [List.length_append, List.length_append]; omega, ?_⟩
  intro fuel groups g rest hflags
  have hflags' : (g.pushAll ps).flags = {} := Progress.flags_pushAll.trans hflags
  have hfuel : fuel + (ps ++ qs).length = fuel + qs.length + ps.length := by
    rw [List.length_append]
    omega
  rw [hfuel, List.append_assoc, hs.readBody_append _ _ _ _ hflags,
    ht.readBody_append _ _ _ _ hflags', Progress.pushAll_append]

/-- A text that is read as patterns is the normal form of their sequence. -/
theorem Reads.eq_of_read? (hs : Reads s ps) (h : read? s = some p) : p = inTurn ps := by
  have hle := hs.length_le
  obtain ⟨fuel, hfuel⟩ : ∃ fuel, s.length + 1 = fuel + 1 + ps.length :=
    ⟨s.length - ps.length, by omega⟩
  have hread := hs.readBody_append (fuel + 1) {} { flags := {} } [] rfl
  have hflags : (Progress.pushAll { flags := {} } ps).flags = {} := Progress.flags_pushAll
  have hend : ∀ g : Progress, g.flags = {} →
      readBody (fuel + 1) {} g [] = some (g.finish, {}, []) := by
    intro g hg
    rw [readBody, hg]
    rfl
  rw [← hfuel, List.append_nil, hend _ hflags] at hread
  rw [read?, hread] at h
  simp only at h
  split at h
  · cases h
    exact Progress.finish_pushAll {}
  · cases h

/-! ## Escaped text -/

theorem ofSet_single (c : Char) : ofSet (.single c) = .literal [c] := by
  simp [ofSet, CharSet.single, CharSet.only?]

/-- A backslash takes the meaning from a character. -/
theorem readEscape_of_isMeta {c : Char} (h : isMeta c = true) (rest : List Char) :
    readEscape false (c :: rest) = some (.literal c, rest) := by
  rw [isMeta, List.contains_iff_mem] at h
  simp only [String.reduceToList, List.mem_cons, List.not_mem_nil, or_false] at h
  rcases h with rfl | rfl | rfl | rfl | rfl | rfl | rfl | rfl | rfl | rfl | rfl | rfl | rfl |
    rfl | rfl | rfl | rfl | rfl <;> rfl

theorem pushAtom_literal {g : Progress} (hflags : g.flags = {}) (c : Char) :
    g.pushAtom (.literal c) = g.push (.literal [c]) 0 := by
  rw [Progress.pushAtom, hflags]
  show g.push (ofSet (.single c)) 0 = _
  rw [ofSet_single]

theorem reads_escaped {c : Char} (h : isMeta c = true) : Reads ['\\', c] [.literal [c]] := by
  refine ⟨Nat.le_succ 1, fun fuel groups g rest hflags => ?_⟩
  show readBody (fuel + 1) groups g ('\\' :: c :: rest) = _
  rw [readBody, hflags]
  simp only [skipGap, Bool.false_eq_true, if_false, readEscape_of_isMeta h]
  rw [pushAtom_literal hflags]
  rfl

/-- A character without a meaning stands for itself. -/
theorem reads_literal {c : Char} (h : isMeta c = false) : Reads [c] [.literal [c]] := by
  have hrepeat : "?*+\x7b".toList.contains c = false := by
    rw [Bool.eq_false_iff, Ne, List.contains_iff_mem]
    intro hmem
    have hall : "?*+\x7b".toList.all isMeta = true := rfl
    rw [List.all_eq_true.1 hall c hmem] at h
    cases h
  refine ⟨Nat.le_refl 1, fun fuel groups g rest hflags => ?_⟩
  show readBody (fuel + 1) groups g (c :: rest) = _
  rw [readBody, hflags]
  simp only [skipGap, Bool.false_eq_true, if_false]
  -- the characters that the reader looks for have a meaning, all of them
  split
  case h_9 =>
    rw [hrepeat, pushAtom_literal hflags]
    rfl
  all_goals cases h

/-- Escaped text is read as the literals of its characters. -/
theorem reads_escapeText (x : List Char) : Reads (escapeText x) (x.map fun c => .literal [c]) := by
  induction x with
  | nil => exact .nil
  | cons c x ih =>
    rw [escapeText, List.flatMap_cons, List.map_cons]
    by_cases hmeta : isMeta c = true
    · rw [if_pos hmeta]
      exact (reads_escaped hmeta).append ih
    · rw [if_neg hmeta]
      exact (reads_literal (Bool.eq_false_iff.2 hmeta)).append ih

/-! ## Anchors -/

/-- The source of the pattern for a text itself, which may be held at the beginning or the end. -/
def anchoredSource (atStart atEnd : Bool) (x : List Char) : List Char :=
  (if atStart then ['^'] else []) ++ (escapeText x ++ if atEnd then ['$'] else [])

/-- The parts of the pattern for a text itself. -/
def anchoredParts (atStart atEnd : Bool) (x : List Char) : List Pattern :=
  (if atStart then [.assertion .textStart] else []) ++
    ((x.map fun c => .literal [c]) ++ if atEnd then [.assertion .textEnd] else [])

theorem reads_anchored (atStart atEnd : Bool) (x : List Char) :
    Reads (anchoredSource atStart atEnd x) (anchoredParts atStart atEnd x) := by
  refine .append ?_ ((reads_escapeText x).append ?_)
  · cases atStart with
    | false => exact .nil
    | true =>
      refine ⟨Nat.le_refl 1, fun fuel groups g rest hflags => ?_⟩
      show readBody (fuel + 1) groups g ('^' :: rest) = _
      rw [readBody, hflags]
      rfl
  · cases atEnd with
    | false => exact .nil
    | true =>
      refine ⟨Nat.le_refl 1, fun fuel groups g rest hflags => ?_⟩
      show readBody (fuel + 1) groups g ('$' :: rest) = _
      rw [readBody, hflags]
      rfl

/-- The literals of its characters lead where the text leads as one literal. -/
theorem ends_literals {places : List Cursor} :
    (inTurnAlong places (x.map fun c => .literal [c])).ends n start =
      (literalTrack places x).ends n start := by
  induction x generalizing start with
  | nil => rfl
  | cons c x ih => exact ih

theorem satisfies_textStart_iff (hj : j ≤ text.length) :
    (Cursor.between (text.take j) (text.drop j)).satisfies .textStart = true ↔ j = 0 := by
  show (text.take j).getLast?.isNone = true ↔ _
  rw [Option.isNone_iff_eq_none, List.getLast?_eq_none_iff, List.take_eq_nil_iff]
  constructor
  · intro h
    rcases h with h | h
    · exact h
    · rw [h] at hj
      exact Nat.le_zero.1 hj
  · intro h
    exact .inl h

theorem satisfies_textEnd_iff (hj : j ≤ text.length) :
    (Cursor.between (text.take j) (text.drop j)).satisfies .textEnd = true ↔ j = text.length := by
  show (text.drop j).isEmpty = true ↔ _
  rw [List.isEmpty_iff, List.drop_eq_nil_iff]
  omega

/-- An anchor leads on from the places that it holds at. -/
theorem testBit_anchor_iff {a : Assertion} (on : Bool) :
    ((inTurnAlong (Cursor.allFrom none text) (if on then [.assertion a] else [])).ends n
      start).testBit j = true ↔ start.testBit j = true ∧ (on = true →
        j ≤ text.length ∧ (Cursor.between (text.take j) (text.drop j)).satisfies a = true) := by
  cases on with
  | false =>
    show start.testBit j = true ↔ _
    simp
  | true =>
    show ((Track.check _).ends n start).testBit j = true ↔ _
    rw [testBit_check_iff, testBit_places_iff]
    simp

/-- The pattern for a text matches where a copy of the text stands, at the ends that it is held
at. -/
theorem matchesIn_anchored_iff (atStart atEnd : Bool) (x text : List Char) :
    (inTurn (anchoredParts atStart atEnd x)).matchesIn text = true ↔
      ∃ i, i + x.length ≤ text.length ∧ x <+: text.drop i ∧ (atStart = true → i = 0) ∧
        (atEnd = true → i + x.length = text.length) := by
  rw [matchesIn_inTurn_iff]
  simp only [anchoredParts, ends_inTurnAlong_append, ends_literals]
  constructor
  · intro h
    obtain ⟨j, hj⟩ := h
    obtain ⟨hj, hend⟩ := (testBit_anchor_iff atEnd).1 hj
    obtain ⟨i, rfl, hi, hx⟩ := testBit_literalTrack_iff.1 hj
    obtain ⟨hi, hstart⟩ := (testBit_anchor_iff atStart).1 hi
    have hwithin : i ≤ text.length := (testBit_places_iff.1 hi).1
    have hlength : x.length ≤ text.length - i := by
      rw [← List.length_drop]
      exact hx.length_le
    refine ⟨i, by omega, hx, ?_, ?_⟩
    · intro hon
      exact (satisfies_textStart_iff hwithin).1 (hstart hon).2
    · intro hon
      exact (satisfies_textEnd_iff (hend hon).1).1 (hend hon).2
  · intro h
    obtain ⟨i, hi, hx, hstart, hend⟩ := h
    have hwithin : i ≤ text.length := by omega
    refine ⟨i + x.length, (testBit_anchor_iff atEnd).2 ⟨testBit_literalTrack_iff.2 ⟨i, rfl, ?_, hx⟩,
      ?_⟩⟩
    · refine (testBit_anchor_iff atStart).2 ⟨testBit_places_iff.2 ⟨hwithin, rfl⟩, ?_⟩
      intro hon
      exact ⟨hwithin, (satisfies_textStart_iff hwithin).2 (hstart hon)⟩
    · intro hon
      exact ⟨hi, (satisfies_textEnd_iff hi).2 (hend hon)⟩

end Pattern

theorem Regex.source_of_ofSource? {source : String} {r : Regex}
    (h : Regex.ofSource? source = some r) : r.source = source := by
  unfold ofSource? at h
  split at h
  · cases h
    rfl
  · cases h

/-- A pattern that was read from the source for a text matches where that text stands. -/
theorem Regex.matchesIn_of_anchored {atStart atEnd : Bool} {x : List Char} {r : Regex}
    (h : r.source.toList = Pattern.anchoredSource atStart atEnd x) (text : List Char) :
    r.matchesIn text = true ↔
      ∃ i, i + x.length ≤ text.length ∧ x <+: text.drop i ∧ (atStart = true → i = 0) ∧
        (atEnd = true → i + x.length = text.length) := by
  have hread := r.read_source
  rw [h] at hread
  rw [Regex.matchesIn, (Pattern.reads_anchored atStart atEnd x).eq_of_read? hread,
    Pattern.matchesIn_anchored_iff]

end ODataEngine
