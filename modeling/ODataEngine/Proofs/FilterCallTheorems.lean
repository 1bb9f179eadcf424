import ODataEngine.Proofs.EscapedTextTheorems
import ODataEngine.Proofs.FilterTextTheorems
import ODataEngine.Proofs.PredicateTheorems

/-!
# Functions in filters

A filter can call for the records whose field contains a text, begins with it or ends with it. The
call becomes a pattern in which the text is escaped, between anchors that hold at the very ends of a
value only, so whatever signs stand in the text, it is looked for as it is written
(`FilterOption.holds_call_iff`). Null passes no call, and other values are taken as their JSON text.
-/

namespace ODataEngine

namespace FilterOption

open ODataEngine.Text

variable {limits : QueryLimits} {e : EntityType} {x s : List Char}

/-! ## Functions -/

/-- The functions of texts that a filter can call. -/
inductive TextFunction where
  | contains
  | startsWith
  | endsWith
deriving DecidableEq

namespace TextFunction

/-- The word for the function, in lower case. -/
def word : TextFunction → String
  | contains => "contains"
  | startsWith => "startswith"
  | endsWith => "endswith"

/-- What the function tells of a text, given another one: that this stands in it, begins it or ends
it. -/
def Holds : TextFunction → List Char → List Char → Prop
  | contains, x, s => x <:+: s
  | startsWith, x, s => x <+: s
  | endsWith, x, s => x <:+ s

instance (function : TextFunction) (x s : List Char) : Decidable (function.Holds x s) :=
  match function with
  | contains => inferInstanceAs (Decidable (x <:+: s))
  | startsWith => inferInstanceAs (Decidable (x <+: s))
  | endsWith => inferInstanceAs (Decidable (x <:+ s))

/-- The function asks for the beginning of a text. -/
def atStart : TextFunction → Bool
  | startsWith => true
  | _ => false

/-- The function asks for the end of a text. -/
def atEnd : TextFunction → Bool
  | endsWith => true
  | _ => false

/-- Each function asks for a copy of the given text, at the end that it is about. -/
theorem holds_iff (function : TextFunction) : function.Holds x s ↔
    ∃ i, i + x.length ≤ s.length ∧ x <+: s.drop i ∧ (function.atStart = true → i = 0) ∧
      (function.atEnd = true → i + x.length = s.length) := by
  cases function with
  | contains =>
    constructor
    · intro h
      obtain ⟨before, after, rfl⟩ := h
      refine ⟨before.length, ?_, ?_, nofun, nofun⟩
      · simp only [List.length_append]
        omega
      · rw [List.append_assoc, List.drop_left]
        exact List.prefix_append x after
    · intro h
      obtain ⟨i, -, hx, -, -⟩ := h
      exact hx.isInfix.trans (List.drop_suffix i s).isInfix
  | startsWith =>
    constructor
    · intro h
      refine ⟨0, ?_, h, fun _ => rfl, nofun⟩
      have hle := h.length_le
      omega
    · intro h
      obtain ⟨i, -, hx, hi, -⟩ := h
      rw [hi rfl] at hx
      exact hx
  | endsWith =>
    constructor
    · intro h
      have hle := h.length_le
      refine ⟨s.length - x.length, by omega, ?_, nofun, fun _ => by omega⟩
      rw [← List.suffix_iff_eq_drop.1 h]
    · intro h
      obtain ⟨i, -, hx, -, hi⟩ := h
      have hlength : x.length = (s.drop i).length := by
        rw [List.length_drop]
        have := hi rfl
        omega
      rw [hx.eq_of_length hlength]
      exact List.drop_suffix i s

/-- The source of the pattern that the function makes of a text. -/
def source (function : TextFunction) (x : List Char) : List Char :=
  Pattern.anchoredSource function.atStart function.atEnd x

/-- The words for functions are those of the three, each with its pattern. -/
theorem functionWords_eq (x : List Char) : functionWords (Pattern.escapeText x) =
    [contains, startsWith, endsWith].map fun function => (function.word, function.source x) := by
  simp [functionWords, source, Pattern.anchoredSource, atStart, atEnd, word]

theorem eq_of_word_eq {function function' : TextFunction} (h : function.word = function'.word) :
    function = function' := by
  revert h
  cases function <;> cases function' <;> decide

/-- A function that is called in any case makes its own pattern. -/
theorem eq_source_of_mem {function : TextFunction} {called source : List Char}
    (hcalled : sameName (String.ofList called) function.word = true)
    (h : (String.ofList (lower called), source) ∈ functionWords (Pattern.escapeText x)) :
    source = function.source x := by
  rw [functionWords_eq] at h
  obtain ⟨function', -, heq⟩ := List.mem_map.1 h
  obtain ⟨hword, rfl⟩ := Prod.mk.inj heq
  have hlower : lower called = lower function.word.toList := by
    rw [← String.toList_ofList (l := called)]
    exact sameName_iff.1 hcalled
  have hself : String.ofList (lower function.word.toList) = function.word := by
    cases function <;> rfl
  rw [hlower, hself] at hword
  rw [eq_of_word_eq hword]

end TextFunction

/-! ## Calls -/

/-- The text of a call without blanks. -/
def callText (function name inner : List Char) : List Char :=
  function ++ '(' :: (name ++ ',' :: (quote inner ++ [')']))

theorem spells_callText {function name inner : List Char} (hfunction : IsRun isLetter function)
    (hname : IsIdentifier name) :
    Form.Spells (.call function name (doubleQuotes inner)) (callText function name inner) := by
  have hspells : Form.Spells (.call function name (doubleQuotes inner))
      ([] ++ (function ++ ([] ++ '(' :: ([] ++ (name ++ ([] ++ ',' :: ([] ++ '\'' ::
        (doubleQuotes inner ++ '\'' :: ([] ++ ')' :: []))))))))) :=
    .call hfunction hname rfl rfl rfl rfl rfl rfl rfl
  have hquote : quote inner ++ [')'] = '\'' :: (doubleQuotes inner ++ ['\'', ')']) := by
    rw [quote, List.cons_append, List.append_assoc]
    rfl
  rw [callText, hquote]
  exact hspells

/-- What a call denotes is a pattern on the field, read from the source that its function makes. -/
theorem Form.Denotes.exists_regex {function : TextFunction} {called name inner : List Char}
    {f : Field} {p : Predicate} (h : Form.Denotes e (.call called name (doubleQuotes inner)) p)
    (hcalled : sameName (String.ofList called) function.word = true)
    (hf : e.field? (String.ofList name) = some f) :
    ∃ r : Regex, r.source.toList = function.source inner ∧ p = .field f.name (.regex r) := by
  generalize htext : doubleQuotes inner = text at h
  cases h with
  | @call _ _ inner' source f' r hf' hsource hr =>
    have hinner : inner' = inner := by
      rw [← undoubleQuotes_doubleQuotes inner', ← htext, undoubleQuotes_doubleQuotes]
    rw [hinner] at hsource
    rw [hf] at hf'
    cases hf'
    refine ⟨r, ?_, rfl⟩
    rw [Regex.source_of_ofSource? hr, String.toList_ofList]
    exact TextFunction.eq_source_of_mem hcalled hsource

/-- The predicate of a call holds of a record just if what the function tells holds of the value of
the field: of a text itself, of the JSON text of any other value, and never of null. -/
theorem holds_call_iff (function : TextFunction) {text : String} {called name inner : List Char}
    {f : Field} {p : Predicate}
    (hspells : Form.Spells (.call called name (doubleQuotes inner)) text.toList)
    (hcalled : sameName (String.ofList called) function.word = true)
    (hf : e.field? (String.ofList name) = some f) (hp : parse limits e text = .ok p) (r : Record) :
    (∀ s, r.get? f.name = some (.string s) → (p.holds r = true ↔ function.Holds inner s.toList)) ∧
    (r.get? f.name = none ∨ r.get? f.name = some .null → p.holds r = false) ∧
    ∀ v, r.get? f.name = some v → v ≠ .null → (∀ s, v ≠ .string s) →
      (p.holds r = true ↔ function.Holds inner v.text) := by
  obtain ⟨-, hdenotes⟩ := (parse_eq_ok_iff_of_spells hspells).1 hp
  obtain ⟨regex, hsource, rfl⟩ := hdenotes.exists_regex hcalled hf
  have hmatches : ∀ s, regex.matchesIn s = true ↔ function.Holds inner s := by
    intro s
    rw [Regex.matchesIn_of_anchored hsource, function.holds_iff]
  rw [Predicate.holds_field, Record.valueOf]
  refine ⟨?_, ?_, ?_⟩
  · intro s hs
    rw [hs]
    exact hmatches s.toList
  · intro h
    rcases h with h | h
    · rw [h]
      rfl
    · rw [h]
      rfl
  · intro v hv hnull hstring
    rw [hv]
    cases v with
    | null => exact absurd rfl hnull
    | string s => exact absurd rfl (hstring s)
    | bool | number | array | object => exact hmatches _

end FilterOption

namespace Library

/-- A text of signs that mean something in patterns, with a quote, a line break and an accent. -/
def symbols : List Char := "(.*)'\n^é$".toList

/-- A call for the symbols, the function and the field in other cases than they are declared in. -/
def symbolsCall : String :=
  String.ofList (FilterOption.callText "Contains".toList "NAME".toList symbols)

/-- The symbols are found as they stand, and in the text of a list they stand escaped. -/
theorem name_contains_symbols :
    ∃ p, FilterOption.parse {} authors.entity symbolsCall = .ok p ∧
      p.holds [("Name", .string "a(.*)'\n^é$b")] = true ∧
      p.holds [("Name", .string "a(.*)'^é$b")] = false ∧
      p.holds [("Id", .ofNat 1)] = false ∧
      p.holds [("Name", .array [.string "(.*)'\n^é$"])] = false := by
  have hread : (FilterOption.parse {} authors.entity symbolsCall).toOption.isSome = true := by
    decide +kernel
  obtain ⟨p, hsome⟩ := Option.isSome_iff_exists.1 hread
  have hp := eq_ok_of_toOption hsome
  have hspells : FilterOption.Form.Spells (.call "Contains".toList "NAME".toList
      (Text.doubleQuotes symbols)) symbolsCall.toList := by
    rw [symbolsCall, String.toList_ofList]
    exact FilterOption.spells_callText (by decide) (by decide)
  have hholds := FilterOption.holds_call_iff .contains hspells rfl rfl hp
  refine ⟨p, hp, ?_, ?_, ?_, ?_⟩
  · exact ((hholds _).1 _ rfl).2 (by decide)
  · exact Bool.eq_false_iff.2 fun h => absurd (((hholds _).1 _ rfl).1 h) (by decide)
  · exact (hholds _).2.1 (.inl rfl)
  · have hlist := (hholds [("Name", .array [.string "(.*)'\n^é$"])]).2.2 _ rfl nofun nofun
    exact Bool.eq_false_iff.2 fun h => absurd (hlist.1 h) (by decide)

end Library

end ODataEngine
