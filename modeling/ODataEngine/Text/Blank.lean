/-!
# Blanks

White space in the sense of the Unicode property White_Space, and the ways a text is cut at it:
trimming at either end and splitting into words. Texts are lists of characters here; the
functions on `String` at the end only pack and unpack.
-/

namespace ODataEngine.Text

/-- Has the property White_Space; the list is the whole property. -/
def isBlank (c : Char) : Bool :=
  let n := c.toNat
  (9 ≤ n && n ≤ 13) || n == 0x20 || n == 0x85 || n == 0xA0 || n == 0x1680
    || (0x2000 ≤ n && n ≤ 0x200A) || n == 0x2028 || n == 0x2029 || n == 0x202F
    || n == 0x205F || n == 0x3000

/-! ## Trimming -/

/-- The text from its first character that is no blank. -/
def trimStart (s : List Char) : List Char := s.dropWhile isBlank

/-- The text up to its last character that is no blank. -/
def trimEnd (s : List Char) : List Char := (s.reverse.dropWhile isBlank).reverse

/-- The text without the blanks at either end. -/
def trim (s : List Char) : List Char := trimEnd (trimStart s)

/-- Every character is a blank; the empty text is blank. -/
def allBlank (s : List Char) : Bool := s.all isBlank

/-! ## Words -/

/-- The maximal runs of characters that are no blanks; `word` holds the run being read. -/
def wordsFrom (word : List Char) : List Char → List (List Char)
  | [] => if word.isEmpty then [] else [word]
  | c :: rest =>
    if isBlank c then
      if word.isEmpty then wordsFrom [] rest else word :: wordsFrom [] rest
    else wordsFrom (word ++ [c]) rest

/-- The words of a text, in order; a blank text has none. -/
def words (s : List Char) : List (List Char) := wordsFrom [] s

/-! ## On strings -/

/-- The string without the blanks at either end. -/
def trimmed (s : String) : String := String.ofList (trim s.toList)

/-- The string holds nothing but blanks. -/
def isAllBlank (s : String) : Bool := allBlank s.toList

end ODataEngine.Text
