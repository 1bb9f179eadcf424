import ODataEngine.Error
import ODataEngine.Expand.Token
import ODataEngine.Text.Cut

/-!
# One level of an expand text

`name(option=value;…),name,…`: navigation properties with the options for their records. The values
are kept as they are, so an `$expand` among them is left for the next level.
-/

namespace ODataEngine

/-- A navigation property named in an expand text, with its options in order. -/
structure ExpandItem where
  property : String
  options : List (String × String)
deriving DecidableEq

namespace Expand

/-- What is wrong with an expand text. -/
inductive Fault where
  | unterminatedLiteral
  | missingName
  | notAName (name : List Char)
  | notAnOption (text : List Char)
  | unbalanced
  | unexpected (lexeme : List Char) (offset : Nat)
deriving DecidableEq

/-- The wording of a fault. -/
def Fault.reason : Fault → String
  | unterminatedLiteral => "unterminated string literal"
  | missingName => "expected a navigation property name"
  | notAName name => s!"'{String.ofList name}' is not a navigation property name"
  | notAnOption text => s!"expected name=value, got '{String.ofList text}'"
  | unbalanced => "unbalanced parentheses"
  | unexpected lexeme offset => s!"unexpected '{String.ofList lexeme}' at offset {offset}"

/-- The text up to a semicolon or a closing parenthesis outside of all parentheses that open in it,
and the tokens from there on. -/
def takeOption (depth : Nat) : List Token → List Char × List Token
  | [] => ([], [])
  | t :: rest =>
    let go (depth : Nat) : List Char × List Token :=
      let (chars, rest) := takeOption depth rest
      (t.lexeme ++ chars, rest)
    match t with
    | .closing => if depth = 0 then ([], t :: rest) else go (depth - 1)
    | .semicolon => if depth = 0 then ([], t :: rest) else go depth
    | .opening => go (depth + 1)
    | .comma | .text _ => go depth

theorem length_takeOption_le (depth : Nat) (tokens : List Token) :
    (takeOption depth tokens).2.length ≤ tokens.length := by
  induction tokens generalizing depth with
  | nil => simp [takeOption]
  | cons t rest ih =>
    have h := fun d => Nat.le_succ_of_le (ih d)
    cases t <;> simp only [takeOption] <;> (try split) <;> simp_all

/-- The option that a text writes: none for a blank text. -/
def readOption (text : List Char) : Except Fault (List (String × String)) :=
  let text := Text.trim text
  if text.isEmpty then .ok []
  else
    match Text.cutAtFirst '=' text with
    | some (key, value) =>
      .ok [(String.ofList (Text.trim key), String.ofList (Text.trim value))]
    | none => .error (.notAnOption text)

/-- Reads the options after an opening parenthesis up to its closing one. -/
def readOptions (tokens : List Token) :
    Except Fault (List (String × String) × List Token) :=
  match readOption (takeOption 0 tokens).1, _h : (takeOption 0 tokens).2 with
  | .error e, _ => .error e
  | .ok option, .closing :: rest => .ok (option, rest)
  | .ok option, .semicolon :: rest =>
    match readOptions rest with
    | .error e => .error e
    | .ok (options, rest) => .ok (option ++ options, rest)
  | .ok _, _ => .error .unbalanced
termination_by tokens.length
decreasing_by
  have := length_takeOption_le 0 tokens
  rw [_h] at this
  simp only [List.length_cons] at this
  omega

/-- The name of a navigation property: text without blanks and quotes. -/
def readName (chars : List Char) : Except Fault (List Char) :=
  let name := Text.trim chars
  if name.isEmpty then .error .missingName
  else if name.any Text.isBlank || name.contains '\'' then .error (.notAName name)
  else .ok name

/-- Reads one item. -/
def readItem : List Token → Except Fault (ExpandItem × List Token)
  | .text chars :: rest =>
    match readName chars with
    | .error e => .error e
    | .ok name =>
      match rest with
      | .opening :: rest =>
        match readOptions rest with
        | .error e => .error e
        | .ok (options, rest) => .ok (⟨String.ofList name, options⟩, rest)
      | rest => .ok (⟨String.ofList name, []⟩, rest)
  | _ => .error .missingName

/-- Reads items with commas between them; `total` is the byte length of the whole text. One unit of
fuel for each item is enough. -/
def readItems (total : Nat) : Nat → List Token → Except Fault (List ExpandItem)
  | 0, _ => .error .missingName
  | fuel + 1, tokens =>
    match readItem tokens with
    | .error e => .error e
    | .ok (item, rest) =>
      match rest.dropWhile Token.isBlank with
      | [] => .ok [item]
      | .comma :: rest =>
        match readItems total fuel rest with
        | .error e => .error e
        | .ok items => .ok (item :: items)
      | t :: rest =>
        -- the offset is the size of what has been read, in bytes
        let left := (String.ofList (Token.spell (t :: rest))).utf8ByteSize
        .error (.unexpected t.lexeme (total - left))

/-- The items of an expand text, a blank one having none. -/
def readText (s : String) : Except Fault (List ExpandItem) :=
  if Text.isAllBlank s then .ok []
  else
    match Token.scan false s.toList with
    | none => .error .unterminatedLiteral
    | some tokens => readItems s.utf8ByteSize (tokens.length + 1) tokens

/-- The items of an expand text, or the failure of the request that holds it. -/
def parse (s : String) : Except RequestError (List ExpandItem) :=
  match readText s with
  | .ok items => .ok items
  | .error fault => .error (.invalidExpand s fault.reason)

/-! ## Writing -/

/-- The text of an option. -/
def optionText (option : String × String) : String := s!"{option.1}={option.2}"

/-- The text of an item. -/
def itemText (item : ExpandItem) : String :=
  let options := ";".intercalate (item.options.map optionText)
  if item.options.isEmpty then item.property else s!"{item.property}({options})"

/-- The expand text of some items. -/
def render (items : List ExpandItem) : String := ",".intercalate (items.map itemText)

end Expand

end ODataEngine
