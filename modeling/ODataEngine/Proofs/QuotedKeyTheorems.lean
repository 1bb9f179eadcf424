import ODataEngine.Proofs.FilterTextTheorems

/-!
# Keys between quotes

In a path a key may stand between quotes. The end of the key is looked for with quotes only opened
and closed, and the quotes around it are taken off without a look at those inside; so texts are read
that no literal writes. `Route.readKey_quote_iff` says which: all that end with a quote, and the key
is the text between, its pairs of quotes read as one. A literal of the key is exactly what a filter
takes for one.
-/

namespace ODataEngine

namespace Text

theorem beforeEnd?_eq_some_iff {ending s before : List Char} :
    beforeEnd? ending s = some before ↔ s = before ++ ending :=
  ⟨eq_append_of_beforeEnd?, fun h => h ▸ beforeEnd?_append before ending⟩

/-- Trimming takes away blanks, and so no quotes. -/
theorem count_trim {c : Char} (hc : isBlank c = false) (s : List Char) :
    (trim s).count c = s.count c := by
  obtain ⟨b, b', hb, hb', hs⟩ := exists_eq_trim s
  have hnone : ∀ {t : List Char}, allBlank t = true → t.count c = 0 := by
    intro t ht
    rw [List.count_eq_zero]
    intro hmem
    rw [allBlank_iff.1 ht c hmem] at hc
    cases hc
  conv_rhs => rw [hs, List.count_append, List.count_append, hnone hb, hnone hb']
  omega

end Text

namespace EdmType

/-- The literal of a text is the text between quotes. -/
theorem keyLiteral_string (s : String) :
    (string.keyLiteral (.string s)).toList = Text.quote s.toList := String.toList_ofList

end EdmType

namespace Route

open ODataEngine.Text

variable {e : EntityType} {v : Json}

/-- A text that begins with a quote is read if it ends with another one. -/
theorem unquoted_quote_iff {rest body : List Char} :
    unquoted ('\'' :: rest) = .ok body ↔
      ∃ inner, rest = inner ++ ['\''] ∧ body = undoubleQuotes inner := by
  simp only [unquoted]
  cases hend : beforeEnd? ['\''] rest with
  | none =>
    apply iff_of_false
    · intro h
      cases h
    · rintro ⟨inner, rfl, -⟩
      rw [beforeEnd?_append] at hend
      cases hend
  | some inner =>
    rw [Except.ok.injEq]
    constructor
    · rintro rfl
      exact ⟨inner, beforeEnd?_eq_some_iff.1 hend, rfl⟩
    · rintro ⟨inner', hrest, rfl⟩
      rw [beforeEnd?_eq_some_iff.1 hend, List.append_left_inj] at hrest
      rw [hrest]

/-- Under a text key, whatever stands between an outer pair of quotes is read. -/
theorem readKey_of_quote (hkey : e.keyType = .string) {text rest : List Char}
    (hquote : trim text = '\'' :: rest) :
    readKey e text = .ok v ↔
      ∃ inner, rest = inner ++ ['\''] ∧ v = .string (String.ofList (undoubleQuotes inner)) := by
  have hcoerce : ∀ raw, e.keyType.coerce raw = .ok (.string raw) := by
    intro raw
    rw [hkey]
    rfl
  have hempty : ('\'' :: rest).isEmpty = false := rfl
  rw [readKey, hquote, unnamed_of_quote, ok_bind, hempty, if_neg Bool.false_ne_true, bind_eq_ok_iff]
  simp only [unquoted_quote_iff, hcoerce, Except.ok.injEq]
  constructor
  · rintro ⟨-, ⟨inner, hrest, rfl⟩, rfl⟩
    exact ⟨inner, hrest, rfl⟩
  · rintro ⟨inner, hrest, rfl⟩
    exact ⟨undoubleQuotes inner, ⟨inner, hrest, rfl⟩, rfl⟩

/-- A text key between quotes, as a path holds it. A text that begins with a quote is read exactly
if it ends with a second one; the number of quotes between these is even, and the key is the text
between them with every pair of quotes, from the left, read as one. All literals are read so, each
as its text. The key that was read is written back as it stood exactly if it stood there as a
literal, with every quote inside doubled; and these are the texts that a filter reads, as the same
value. -/
theorem readKey_quote_iff (hkey : e.keyType = .string) {body text after : List Char}
    (hsplit : splitKey false body = some (text, after))
    (hquote : (trim text).head? = some '\'') :
    (∀ v, readKey e text = .ok v ↔
      ∃ inner, trim text = '\'' :: (inner ++ ['\'']) ∧ inner.count '\'' % 2 = 0 ∧
        v = .string (String.ofList (undoubleQuotes inner))) ∧
      (∀ s, trim text = quote s → readKey e text = .ok (.string (String.ofList s))) ∧
      ∀ v, readKey e text = .ok v →
        ((e.keyType.keyLiteral v).toList = trim text ↔ ∃ s, trim text = quote s) ∧
        (FilterOption.valueOf e.keyType (trim text) = .ok v ↔ ∃ s, trim text = quote s) := by
  obtain ⟨rest, hrest⟩ := List.head?_eq_some_iff.1 hquote
  have hread := fun v => readKey_of_quote (v := v) hkey hrest
  have hliterals : ∀ s, trim text = quote s → readKey e text = .ok (.string (String.ofList s)) := by
    intro s hs
    rw [hrest] at hs
    exact (hread _).2 ⟨doubleQuotes s, (List.cons.inj hs).2, by rw [undoubleQuotes_doubleQuotes]⟩
  -- a key is found where the quotes are closed, and the outer two are a pair
  have heven : ∀ inner, rest = inner ++ ['\''] → inner.count '\'' % 2 = 0 := by
    intro inner hinner
    have hcount := (splitKey_spec hsplit).2.1
    rw [← count_trim (c := '\'') rfl, hrest, hinner, List.count_cons_self, List.count_append,
      List.count_singleton_self, Bool.toNat_false] at hcount
    omega
  refine ⟨fun v => ?_, hliterals, fun v hv => ⟨?_, ?_⟩⟩
  · rw [hread, hrest]
    constructor
    · rintro ⟨inner, hinner, rfl⟩
      exact ⟨inner, by rw [hinner], heven inner hinner, rfl⟩
    · rintro ⟨inner, hinner, -, rfl⟩
      exact ⟨inner, (List.cons.inj hinner).2, rfl⟩
  · constructor
    · intro hback
      obtain ⟨inner, -, rfl⟩ := (hread v).1 hv
      rw [hkey, EdmType.keyLiteral_string] at hback
      exact ⟨_, hback.symm⟩
    · rintro ⟨s, hs⟩
      obtain rfl := Except.ok.inj (hv.symm.trans (hliterals s hs))
      rw [hkey, EdmType.keyLiteral_string, String.toList_ofList, hs]
  · constructor
    · intro hfilter
      rw [hrest] at hfilter
      obtain ⟨s, hs, -⟩ := FilterOption.valueOf_quote_iff.1 hfilter
      exact ⟨s, hrest.trans hs⟩
    · rintro ⟨s, hs⟩
      obtain rfl := Except.ok.inj (hv.symm.trans (hliterals s hs))
      rw [hs, hkey]
      exact FilterOption.valueOf_quote_iff.2 ⟨s, rfl, rfl⟩

end Route

namespace Library

open Route

/-- The key of a shelf is read from a text whose inner quotes stand alone. It is no literal of the
key, and no filter reads it. -/
theorem bareQuotes_read :
    splitKey false "'a'b'c')".toList = some ("'a'b'c'".toList, []) ∧
      readKey shelves.entity "'a'b'c'".toList = .ok (.string "a'b'c") ∧
      (shelves.entity.keyType.keyLiteral (.string "a'b'c")).toList ≠ "'a'b'c'".toList ∧
      (¬ ∃ s, "'a'b'c'".toList = Text.quote s) ∧
      ∀ v, FilterOption.valueOf .string "'a'b'c'".toList ≠ .ok v := by
  have hfilter : FilterOption.valueOf .string "'a'b'c'".toList = .error .openLiteral := rfl
  refine ⟨rfl, rfl, by decide, ?_, fun v hv => ?_⟩
  · rintro ⟨s, hs⟩
    have hread : FilterOption.valueOf .string ('\'' :: "a'b'c'".toList) = .ok _ :=
      FilterOption.valueOf_quote_iff.2 ⟨s, hs, rfl⟩
    cases hfilter.symm.trans hread
  · cases hfilter.symm.trans hv

/-- A label between quotes, with quotes, parentheses and an equals sign in it, is read as its text
and written back as it stood. -/
theorem label_read_and_written :
    splitKey false " 'O''Neil (a=b)' )/Books".toList
        = some (" 'O''Neil (a=b)' ".toList, "/Books".toList) ∧
      readKey shelves.entity " 'O''Neil (a=b)' ".toList = .ok (.string "O'Neil (a=b)") ∧
      (shelves.entity.keyType.keyLiteral (.string "O'Neil (a=b)")).toList
        = "'O''Neil (a=b)'".toList ∧
      FilterOption.valueOf .string "'O''Neil (a=b)'".toList = .ok (.string "O'Neil (a=b)") := by
  have hkey : shelves.entity.keyType = .string := rfl
  have hsplit : splitKey false " 'O''Neil (a=b)' )/Books".toList
      = some (" 'O''Neil (a=b)' ".toList, "/Books".toList) := rfl
  have htrim : Text.trim " 'O''Neil (a=b)' ".toList = Text.quote "O'Neil (a=b)".toList := rfl
  obtain ⟨-, hliterals, hback⟩ := readKey_quote_iff hkey hsplit rfl
  have hread := hliterals _ htrim
  obtain ⟨hwritten, hfilter⟩ := hback _ hread
  exact ⟨hsplit, hread, hwritten.2 ⟨_, htrim⟩, hfilter.2 ⟨_, htrim⟩⟩

end Library

end ODataEngine
