import ODataEngine.Text.Blank

/-!
# Tokens of an expand text

The punctuation `( ) , ;` and the stretches of text between. A quoted literal belongs to the text
around it, whatever stands inside. The lexemes of the tokens, one after the other, are the whole
input.
-/

namespace ODataEngine.Expand

/-- A token with its characters. -/
inductive Token where
  | opening
  | closing
  | comma
  | semicolon
  | text (chars : List Char)
deriving DecidableEq

namespace Token

/-- The characters of a token. -/
def lexeme : Token → List Char
  | opening => ['(']
  | closing => [')']
  | comma => [',']
  | semicolon => [';']
  | text chars => chars

/-- The token of a punctuation character. -/
def ofPunctuation? : Char → Option Token
  | '(' => some opening
  | ')' => some closing
  | ',' => some comma
  | ';' => some semicolon
  | _ => none

/-- A text token of blanks only. -/
def isBlank : Token → Bool
  | text chars => Text.allBlank chars
  | _ => false

/-- Puts a character in front: into the first token if that is text, else as a token of its own. -/
def consText (c : Char) : List Token → List Token
  | text chars :: rest => text (c :: chars) :: rest
  | tokens => text [c] :: tokens

/-- The tokens of a text; `inQuote` tells whether the text begins inside a quoted literal. A doubled
quote leaves a literal and enters it again, so it needs no rule of its own. None if a literal is
never closed. -/
def scan (inQuote : Bool) : List Char → Option (List Token)
  | [] => if inQuote then none else some []
  | c :: rest =>
    match if inQuote then none else ofPunctuation? c with
    | some token => (scan false rest).map (token :: ·)
    | none => (scan (inQuote != (c == '\'')) rest).map (consText c)

/-! ## The tokens are the text -/

/-- The characters of some tokens. -/
def spell (tokens : List Token) : List Char := tokens.flatMap lexeme

@[simp] theorem spell_cons (t : Token) (rest : List Token) :
    spell (t :: rest) = t.lexeme ++ spell rest := rfl

theorem spell_consText (c : Char) (tokens : List Token) :
    spell (consText c tokens) = c :: spell tokens := by
  cases tokens with
  | nil => rfl
  | cons t rest => cases t <;> rfl

theorem lexeme_of_ofPunctuation? {c : Char} {t : Token} (h : ofPunctuation? c = some t) :
    t.lexeme = [c] := by
  unfold ofPunctuation? at h
  split at h <;> simp_all [lexeme, eq_comm]

theorem spell_scan {inQuote : Bool} {s : List Char} {tokens : List Token}
    (h : scan inQuote s = some tokens) : spell tokens = s := by
  induction s generalizing inQuote tokens with
  | nil => cases inQuote <;> simp_all [scan, spell]
  | cons c rest ih =>
    simp only [scan] at h
    split at h
    · rename_i token ht
      obtain ⟨ts, hts, rfl⟩ := Option.map_eq_some_iff.1 h
      have hp : ofPunctuation? c = some token := by cases inQuote <;> simp_all
      simp [ih hts, lexeme_of_ofPunctuation? hp]
    · obtain ⟨ts, hts, rfl⟩ := Option.map_eq_some_iff.1 h
      rw [spell_consText, ih hts]

end Token

end ODataEngine.Expand
