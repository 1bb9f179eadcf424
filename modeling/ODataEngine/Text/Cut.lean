/-!
# Cutting texts

Splitting a text at a separator, taking off a fixed beginning or ending, and replacing doubled
quotes. Each function is a recursion on the characters and loses none of them but the separators.
-/

namespace ODataEngine.Text

/-- The parts between the separators, in order; a text without one is its own only part. -/
def splitAt (sep : Char) : List Char → List (List Char)
  | [] => [[]]
  | c :: rest =>
    if c = sep then [] :: splitAt sep rest
    else
      match splitAt sep rest with
      | [] => [[c]]
      | part :: parts => (c :: part) :: parts

/-- The parts before and after the first separator, if there is one. -/
def cutAtFirst (sep : Char) : List Char → Option (List Char × List Char)
  | [] => none
  | c :: rest =>
    if c = sep then some ([], rest)
    else (cutAtFirst sep rest).map fun (before, after) => (c :: before, after)

theorem eq_of_cutAtFirst {sep : Char} {s before after : List Char}
    (h : cutAtFirst sep s = some (before, after)) : s = before ++ sep :: after := by
  induction s generalizing before after with
  | nil => simp [cutAtFirst] at h
  | cons c rest ih =>
    by_cases hc : c = sep
    · simp [cutAtFirst, hc] at h
      simp [← h.1, ← h.2, hc]
    · simp only [cutAtFirst, hc, if_false, Option.map_eq_some_iff] at h
      obtain ⟨⟨b, a⟩, hb, hba⟩ := h
      simp only [Prod.mk.injEq] at hba
      rw [← hba.1, ← hba.2, ih hb, List.cons_append]

/-- What follows `start` in a text that begins with it. -/
def afterStart? : List Char → List Char → Option (List Char)
  | [], s => some s
  | _ :: _, [] => none
  | a :: start, c :: s => if a = c then afterStart? start s else none

theorem afterStart?_eq_some_iff {start s rest : List Char} :
    afterStart? start s = some rest ↔ s = start ++ rest := by
  fun_induction afterStart? start s with
  | case1 s => simp [eq_comm]
  | case2 => simp
  | case3 a start s ih => simp [ih]
  | case4 a start c s h => simp [Ne.symm h]

/-- What precedes `ending` in a text that ends with it. -/
def beforeEnd? (ending s : List Char) : Option (List Char) :=
  (afterStart? ending.reverse s.reverse).map List.reverse

/-- The text without the given character at its start, however often it stands there. -/
def dropStart (c : Char) (s : List Char) : List Char := s.dropWhile (· == c)

/-- The text without the given character at its end, however often it stands there. -/
def dropEnd (c : Char) (s : List Char) : List Char := (s.reverse.dropWhile (· == c)).reverse

/-- The text without the given character at either end. -/
def dropAround (c : Char) (s : List Char) : List Char := dropEnd c (dropStart c s)

/-! ## Quotes -/

/-- The text with every single quote written twice. -/
def doubleQuotes : List Char → List Char
  | [] => []
  | c :: rest => if c = '\'' then '\'' :: '\'' :: doubleQuotes rest else c :: doubleQuotes rest

/-- The text with every pair of single quotes read as one, from the left. -/
def undoubleQuotes : List Char → List Char
  | '\'' :: '\'' :: rest => '\'' :: undoubleQuotes rest
  | c :: rest => c :: undoubleQuotes rest
  | [] => []

theorem undoubleQuotes_doubleQuotes (s : List Char) : undoubleQuotes (doubleQuotes s) = s := by
  induction s with
  | nil => rfl
  | cons c rest ih => by_cases h : c = '\'' <;> simp [doubleQuotes, undoubleQuotes, h, ih]

end ODataEngine.Text
