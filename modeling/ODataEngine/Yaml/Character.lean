/-!
# Characters of YAML

A text as a list of characters that know their places. A line may end in several ways; here every
end of a line is a line feed, but for the two separators of Unicode, which stay what they are.
-/

namespace ODataEngine.Yaml

/-- A character with its line and column, and how many octets come before it. -/
structure Placed where
  char : Char
  line : Nat
  column : Nat
  offset : Nat

/-! ## Classes -/

/-- May stand in a text at all. -/
def isAllowed (c : Char) : Bool :=
  let n := c.toNat
  c == '\t' || c == '\n' || c == '\r' || (0x20 ≤ n && n ≤ 0x7E) || n == 0x85 ||
    (0xA0 ≤ n && n ≠ 0xFFFE && n ≠ 0xFFFF)

/-- Ends a line. -/
def isBreak (c : Char) : Bool := c == '\n' || c == '\u2028' || c == '\u2029'

/-- A blank inside a line. -/
def isBlank (c : Char) : Bool := c == ' ' || c == '\t'

/-- A blank, the end of a line or the end of the text, for which NUL stands. -/
def isGap (c : Char) : Bool := isBlank c || isBreak c || c == '\x00'

/-- One of the brackets and commas of lists and maps in brackets. -/
def isFlowMark (c : Char) : Bool := "[]\x7b\x7d,".toList.contains c

/-- Begins something else than a plain scalar. -/
def isIndicator (c : Char) : Bool := isFlowMark c || "#&*!|>'\"%@`".toList.contains c

/-! ## Places -/

/-- The characters of a text with their places. -/
def place (line column offset : Nat) : List Char → List Placed
  | [] => []
  | '\r' :: '\n' :: rest => ⟨'\n', line, column, offset⟩ :: place (line + 1) 0 (offset + 2) rest
  | c :: rest =>
    let after := offset + c.utf8Size
    if c = '\r' || c = '\u0085' then
      ⟨'\n', line, column, offset⟩ :: place (line + 1) 0 after rest
    else if isBreak c then ⟨c, line, column, offset⟩ :: place (line + 1) 0 after rest
    else ⟨c, line, column, offset⟩ :: place line (column + 1) after rest

/-- The character at a distance, NUL behind the end of the text. -/
def charAt (s : List Placed) (distance : Nat) : Char := (s[distance]?).elim '\x00' (·.char)

/-- A mark between documents: three hyphens or three points at the start of a line. -/
def atDocumentMark (s : List Placed) : Bool :=
  match s with
  | p :: _ =>
    p.column == 0 && (p.char == '-' || p.char == '.') && charAt s 1 == p.char &&
      charAt s 2 == p.char && isGap (charAt s 3)
  | [] => false

/-- The rest of a line. -/
def restOfLine (s : List Placed) : List Placed := s.dropWhile fun p => !isBreak p.char

/-! ## Gaps inside scalars -/

/-- A run of blanks and line breaks inside a scalar. `escaped` tells that it began with a line break
after a backslash. -/
structure Gap where
  blanks : List Char := []
  breaks : List Char := []
  escaped : Bool := false

namespace Gap

/-- The gap holds a line break. -/
def crossed (g : Gap) : Bool := g.escaped || !g.breaks.isEmpty

/-- There is no gap. -/
def isNone (g : Gap) : Bool := !g.crossed && g.blanks.isEmpty

/-- The gap with one more blank; blanks that begin a line do not count. -/
def addBlank (g : Gap) (c : Char) : Gap :=
  if g.crossed then g else { g with blanks := g.blanks ++ [c] }

/-- The gap with one more line break; blanks that end a line do not count. -/
def addBreak (g : Gap) (c : Char) : Gap := { g with blanks := [], breaks := g.breaks ++ [c] }

/-- The text of a gap: one line feed is a blank, of more the first does not count. -/
def text (g : Gap) : List Char :=
  if g.escaped then g.breaks
  else
    match g.breaks with
    | [] => g.blanks
    | ['\n'] => [' ']
    | '\n' :: more => more
    | breaks => breaks

end Gap

end ODataEngine.Yaml
