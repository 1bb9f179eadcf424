import ODataEngine.Edm.Literal
import ODataEngine.Schema.Basic
import ODataEngine.Text.Cut

/-!
# Keys in paths

The text between the parentheses after a collection: a literal of the key's type, bare or between
quotes, with or without the name of the key before it.
-/

namespace ODataEngine.Route

/-- What is wrong with the key in a path. -/
inductive KeyFault where
  | openParenthesis
  | notTheKey (name : String) (entity : String)
  | empty
  | openLiteral
  | coercion (e : CoercionError)
deriving DecidableEq

/-- The wording of a fault. -/
def KeyFault.reason : KeyFault → String
  | openParenthesis => "unbalanced parentheses"
  | notTheKey name entity => s!"'{name}' is not the key of '{entity}'"
  | empty => "empty key"
  | openLiteral => "unterminated string literal"
  | coercion e => e.message

/-- Splits at the first closing parenthesis outside of quotes; `inQuote` tells whether the text
begins inside them. -/
def splitKey (inQuote : Bool) : List Char → Option (List Char × List Char)
  | [] => none
  | c :: rest =>
    if c = ')' && !inQuote then some ([], rest)
    else (splitKey (inQuote != (c == '\'')) rest).map fun (key, after) => (c :: key, after)

/-- Takes off the name of the key, if there is one. What begins with a quote has none. -/
def unnamed (e : EntityType) (text : List Char) : Except KeyFault (List Char) :=
  match Text.cutAtFirst '=' text with
  | some (name, value) =>
    if (Text.trimStart name).head? == some '\'' then .ok text
    else if Text.sameName (String.ofList (Text.trim name)) e.key then .ok (Text.trim value)
    else .error (.notTheKey (String.ofList (Text.trim name)) e.name)
  | none => .ok text

/-- Takes off the quotes of a quoted literal and reads its doubled quotes. -/
def unquoted (literal : List Char) : Except KeyFault (List Char) :=
  match literal with
  | '\'' :: rest =>
    match Text.beforeEnd? ['\''] rest with
    | some body => .ok (Text.undoubleQuotes body)
    | none => .error .openLiteral
  | literal => .ok literal

/-- The key that the text between the parentheses writes. -/
def readKey (e : EntityType) (text : List Char) : Except KeyFault Json := do
  let literal ← unnamed e (Text.trim text)
  if literal.isEmpty then .error .empty
  else
    let inner ← unquoted literal
    match e.keyType.coerce (String.ofList inner) with
    | .ok key => .ok key
    | .error e => .error (.coercion e)

end ODataEngine.Route
