import ODataEngine.Pattern.Normal
import ODataEngine.Pattern.Track

/-!
# Where patterns lead

Laid along a text, a pattern leads from places to places, and these sets of places are the bits of a
number. A literal leads from a place to the end of the copy of it that begins there
(`Pattern.testBit_literalTrack_iff`). The normal form of a sequence leads where its parts lead in
turn (`Pattern.ends_inTurn`), so that what a sequence matches can be told from its parts as they
were read.
-/

namespace ODataEngine.Pattern

variable {text x : List Char} {ps qs : List Pattern} {places : List Cursor} {i j n start : Nat}

/-! ## Places -/

/-- The place between two parts of a text. -/
def Cursor.between (before rest : List Char) : Cursor := ⟨before.getLast?, rest⟩

/-- A text has a place before each of its characters and one at its end. -/
theorem getElem?_allFrom (previous : Option Char) (text : List Char) (i : Nat) :
    (Cursor.allFrom previous text)[i]? =
      if i ≤ text.length then some ⟨(text.take i).getLast?.or previous, text.drop i⟩
      else none := by
  induction text generalizing previous i with
  | nil =>
    cases i with
    | zero => rfl
    | succ i => rfl
  | cons c text ih =>
    cases i with
    | zero => rfl
    | succ i =>
      rw [Cursor.allFrom, List.getElem?_cons_succ, ih, List.length_cons]
      by_cases hi : i ≤ text.length
      · rw [if_pos hi, if_pos (by omega), List.take_succ_cons, List.drop_succ_cons,
          List.getLast?_cons]
        cases (text.take i).getLast? <;> rfl
      · rw [if_neg hi, if_neg (by omega)]

/-- The bits of a set of places are those where its condition holds. -/
theorem testBit_placesWhere (condition : Cursor → Bool) (places : List Cursor) (i : Nat) :
    (placesWhere condition places).testBit i = (places[i]?).any condition := by
  induction places generalizing i with
  | nil =>
    show Nat.testBit 0 i = _
    rw [Nat.zero_testBit]
    rfl
  | cons c places ih =>
    show (2 * placesWhere condition places + (condition c).toNat).testBit i = _
    cases i with
    | zero =>
      rw [Nat.testBit_zero, List.getElem?_cons_zero, Option.any_some]
      cases condition c <;> simp
    | succ i =>
      have hle : (condition c).toNat ≤ 1 := Bool.toNat_le _
      have hhalf : (2 * placesWhere condition places + (condition c).toNat) / 2 =
          placesWhere condition places := by
        omega
      rw [Nat.testBit_succ, hhalf, ih, List.getElem?_cons_succ]

theorem testBit_places_iff {condition : Cursor → Bool} :
    (placesWhere condition (Cursor.allFrom none text)).testBit i = true ↔
      i ≤ text.length ∧ condition (.between (text.take i) (text.drop i)) = true := by
  rw [testBit_placesWhere, getElem?_allFrom, Option.or_none]
  by_cases hi : i ≤ text.length
  · rw [if_pos hi, Option.any_some, and_iff_right hi, Cursor.between]
  · rw [if_neg hi]
    exact ⟨nofun, fun h => absurd h.1 hi⟩

/-! ## Tracks -/

theorem testBit_cross_iff {m : Nat} : ((Track.cross m).ends n start).testBit j = true ↔
    ∃ i, j = i + 1 ∧ start.testBit i = true ∧ m.testBit i = true := by
  show (2 * (start &&& m)).testBit j = true ↔ _
  cases j with
  | zero => simp
  | succ j =>
    have hhalf : 2 * (start &&& m) / 2 = start &&& m := by omega
    rw [Nat.testBit_succ, hhalf, Nat.testBit_and, Bool.and_eq_true]
    constructor
    · intro h
      exact ⟨j, rfl, h⟩
    · intro h
      obtain ⟨i, hj, h⟩ := h
      cases hj
      exact h

theorem testBit_check_iff {m : Nat} : ((Track.check m).ends n start).testBit j = true ↔
    start.testBit j = true ∧ m.testBit j = true := by
  show (start &&& m).testBit j = true ↔ _
  rw [Nat.testBit_and, Bool.and_eq_true]

/-- A literal leads from each place to the end of the copy of it that begins there. -/
theorem testBit_literalTrack_iff :
    ((literalTrack (Cursor.allFrom none text) x).ends n start).testBit j = true ↔
      ∃ i, j = i + x.length ∧ start.testBit i = true ∧ x <+: text.drop i := by
  -- along the literal: what is left of it goes on behind its first character
  induction x generalizing start with
  | nil =>
    show start.testBit j = true ↔ _
    simp
  | cons c x ih =>
    show ((literalTrack _ x).ends n ((Track.cross _).ends n start)).testBit j = true ↔ _
    rw [ih]
    constructor
    · intro h
      obtain ⟨k, hj, hk, hx⟩ := h
      obtain ⟨i, hi, hstart, hc⟩ := testBit_cross_iff.1 hk
      have hhead : (text.drop i).head? = some c := beq_iff_eq.1 (testBit_places_iff.1 hc).2
      obtain ⟨rest, hrest⟩ := List.head?_eq_some_iff.1 hhead
      have hdrop : text.drop k = rest := by
        rw [hi, ← List.drop_drop, hrest]
        rfl
      refine ⟨i, ?_, hstart, ?_⟩
      · rw [List.length_cons]
        omega
      · rw [hrest, List.prefix_cons_inj, ← hdrop]
        exact hx
    · intro h
      obtain ⟨i, hj, hstart, rest, hrest⟩ := h
      have hi : i < text.length := by
        refine Nat.lt_of_not_le fun hover => ?_
        rw [List.drop_eq_nil_of_le hover] at hrest
        cases hrest
      have hdrop : text.drop (i + 1) = x ++ rest := by
        rw [← List.drop_drop, ← hrest]
        rfl
      refine ⟨i + 1, ?_, testBit_cross_iff.2 ⟨i, rfl, hstart, ?_⟩, ?_⟩
      · rw [List.length_cons] at hj
        omega
      · refine testBit_places_iff.2 ⟨by omega, ?_⟩
        rw [Cursor.between, ← hrest]
        exact beq_iff_eq.2 rfl
      · rw [hdrop]
        exact List.prefix_append x rest

theorem ends_literalTrack_append {y : List Char} : (literalTrack places (x ++ y)).ends n start =
    (literalTrack places y).ends n ((literalTrack places x).ends n start) := by
  induction x generalizing start with
  | nil => rfl
  | cons c x ih => exact ih

/-! ## Sequences -/

theorem ends_inTurnAlong_append : (inTurnAlong places (ps ++ qs)).ends n start =
    (inTurnAlong places qs).ends n ((inTurnAlong places ps).ends n start) := by
  induction ps generalizing start with
  | nil => rfl
  | cons p ps ih => exact ih

/-- A pattern leads where the parts that it adds to a sequence lead in turn. -/
theorem ends_parts (p : Pattern) :
    (inTurnAlong places (parts p)).ends n start = (along places p).ends n start := by
  cases p <;> rfl

theorem ends_flatMap_parts :
    (inTurnAlong places (ps.flatMap parts)).ends n start =
      (inTurnAlong places ps).ends n start := by
  induction ps generalizing start with
  | nil => rfl
  | cons p ps ih =>
    rw [List.flatMap_cons, ends_inTurnAlong_append, ends_parts, ih]
    rfl

/-- Literals one after the other lead where the literal leads that they are joined to. -/
theorem ends_joinLiterals :
    (inTurnAlong places (joinLiterals ps)).ends n start =
      (inTurnAlong places ps).ends n start := by
  induction ps using joinLiterals.induct generalizing start with
  | case1 => rfl
  | case2 s rest t more hmore ih =>
    rw [joinLiterals, hmore]
    show (inTurnAlong places more).ends n ((literalTrack places (s ++ t)).ends n start) =
      (inTurnAlong places rest).ends n ((literalTrack places s).ends n start)
    rw [← ih, hmore, ends_literalTrack_append]
    rfl
  | case3 s rest hnone ih =>
    have hkept : joinLiterals (literal s :: rest) = literal s :: joinLiterals rest := by
      rw [joinLiterals]
      split
      · next t more hmore => exact (hnone t more hmore).elim
      · rfl
    rw [hkept]
    exact ih
  | case4 p rest hother ih =>
    rw [joinLiterals.eq_3 p rest hother]
    exact ih

/-- The normal form of a sequence leads where the patterns lead in turn. -/
theorem ends_inTurn (places : List Cursor) (ps : List Pattern) (n start : Nat) :
    (along places (inTurn ps)).ends n start = (inTurnAlong places ps).ends n start := by
  rw [← ends_flatMap_parts, ← ends_joinLiterals, inTurn]
  split
  · next hnil =>
    rw [hnil]
    rfl
  · next p hone =>
    rw [hone]
    rfl
  · rfl

/-- A sequence matches in a text if its parts in turn lead from one of its places to another. -/
theorem matchesIn_inTurn_iff : (inTurn ps).matchesIn text = true ↔
    ∃ j, ((inTurnAlong (Cursor.allFrom none text) ps).ends text.length
      (placesWhere (fun _ => true) (Cursor.allFrom none text))).testBit j = true := by
  rw [matchesIn, ends_inTurn, bne_iff_ne]
  constructor
  · intro h
    exact Nat.exists_testBit_of_ne_zero h
  · intro h hzero
    obtain ⟨j, hj⟩ := h
    rw [hzero, Nat.zero_testBit] at hj
    cases hj

end ODataEngine.Pattern
