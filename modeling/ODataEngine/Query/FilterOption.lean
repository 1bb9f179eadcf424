import ODataEngine.Edm.Literal
import ODataEngine.Query.Limits
import ODataEngine.Schema.Basic
import ODataEngine.Filter.Predicate

/-!
# The `$filter` option

One clause: a comparison `name operator literal` or a call `function(name,'text')`. Blanks may
surround every token. A call becomes a pattern in which the text stands for itself.
-/

namespace ODataEngine

namespace FilterOption

/-! ## Forms -/

/-- The two forms of a filter, their parts still unread. The text of a call has its quotes doubled
as they were written. -/
inductive Form where
  | comparison (name operator literal : List Char)
  | call (function name text : List Char)
deriving DecidableEq

/-- Reads an identifier: a letter or an underscore, then letters, digits and underscores. -/
def takeIdentifier : List Char → Option (List Char × List Char)
  | [] => none
  | c :: rest =>
    if Text.isIdentifierStart c then
      some (c :: rest.takeWhile Text.isIdentifierRest, rest.dropWhile Text.isIdentifierRest)
    else none

/-- Reads letters, at least one. -/
def takeLetters (s : List Char) : Option (List Char × List Char) :=
  let letters := s.takeWhile Text.isLetter
  if letters.isEmpty then none else some (letters, s.dropWhile Text.isLetter)

/-- Reads blanks, at least one. -/
def takeBlanks (s : List Char) : Option (List Char × List Char) :=
  let blanks := s.takeWhile Text.isBlank
  if blanks.isEmpty then none else some (blanks, s.dropWhile Text.isBlank)

/-- Reads the given character after blanks. -/
def takeSign (sign : Char) (s : List Char) : Option (List Char) :=
  match Text.trimStart s with
  | c :: rest => if c = sign then some rest else none
  | [] => none

/-- Reads the rest of a quoted literal after its opening quote; a doubled quote does not end it and
stays doubled. -/
def takeQuoted : List Char → Option (List Char × List Char)
  | '\'' :: '\'' :: rest => (takeQuoted rest).map fun (text, rest) => ('\'' :: '\'' :: text, rest)
  | '\'' :: rest => some ([], rest)
  | c :: rest => (takeQuoted rest).map fun (text, rest) => (c :: text, rest)
  | [] => none

/-- Reads a call that takes up the whole text. -/
def readCall? (s : List Char) : Option Form := do
  let (function, s) ← takeLetters (Text.trimStart s)
  let s ← takeSign '(' s
  let (name, s) ← takeIdentifier (Text.trimStart s)
  let s ← takeSign ',' s
  let s ← takeSign '\'' s
  let (text, s) ← takeQuoted s
  let s ← takeSign ')' s
  if Text.allBlank s then some (.call function name text) else none

/-- The last blank of a run of at least two that is no line break. -/
def lastBlankLiteral (blanks : List Char) : Option (List Char) :=
  ((blanks.drop 1).reverse.find? (· != '\n')).map fun c => [c]

/-- The literal of a comparison, given the blanks before it and what follows them: the text up to
the blanks at its end, on one line. Where nothing follows, one of the blanks is the literal. -/
def literalOf (blanks rest : List Char) : Option (List Char) :=
  if rest.isEmpty then lastBlankLiteral blanks
  else
    let literal := Text.trimEnd rest
    -- no literal crosses the end of a line
    if literal.contains '\n' then none else some literal

/-- Reads a comparison that takes up the whole text. -/
def readComparison? (s : List Char) : Option Form := do
  let (name, s) ← takeIdentifier (Text.trimStart s)
  let (_, s) ← takeBlanks s
  let (operator, s) ← takeLetters s
  let (blanks, s) ← takeBlanks s
  let literal ← literalOf blanks s
  some (.comparison name operator literal)

/-- The form of a filter text. -/
def readForm? (s : List Char) : Option Form :=
  match readCall? s with
  | some form => some form
  | none => readComparison? s

/-! ## Meaning -/

/-- What is wrong with a filter text. -/
inductive Fault where
  | empty
  | noForm
  | unknownField (name entity : String)
  | unsupportedFunction (name : String)
  | unsupportedOperator (name : String)
  | openLiteral
  | severalClauses
  | coercion (e : CoercionError)
  | clause (e : FilterError)
deriving DecidableEq

/-- The wording of a fault. -/
def Fault.reason : Fault → String
  | empty => "empty $filter"
  | noForm => "expected 'field operator literal'"
  | unknownField name entity => s!"unknown field '{name}' on '{entity}'"
  | unsupportedFunction name => s!"unsupported function '{name}'"
  | unsupportedOperator name => s!"unsupported operator '{name}'"
  | openLiteral => "unterminated string literal or trailing text"
  | severalClauses => "multi-clause filters are not supported"
  | coercion e => e.message
  | clause e => e.message

/-- The comparison of an operator word, in any case. -/
def comparisonOf? (word : List Char) : Option Filter.Comparison :=
  match String.ofList (Text.lower word) with
  | "eq" => some .eq
  | "ne" => some .ne
  | "gt" => some .gt
  | "ge" => some .gte
  | "gte" => some .gte
  | "lt" => some .lt
  | "le" => some .lte
  | "lte" => some .lte
  | _ => none

/-- The source of the pattern of a call: the text at any place, at the start or at the end. -/
def patternOf? (function text : List Char) : Option (List Char) :=
  let literal := Pattern.escapeText text
  match String.ofList (Text.lower function) with
  | "contains" => some literal
  | "startswith" => some ('^' :: literal)
  | "endswith" => some (literal ++ ['$'])
  | _ => none

/-- The field of a name, in any case. -/
def fieldOf (e : EntityType) (name : List Char) : Except Fault Field :=
  match e.field? (String.ofList name) with
  | some f => .ok f
  | none => .error (.unknownField (String.ofList name) e.name)

/-- The value of a literal for a field: the inside of a quoted literal, or one word, read as the
field's type; the bare word `null` is null for every type. -/
def valueOf (t : EdmType) (literal : List Char) : Except Fault Json :=
  let coerce (text : List Char) : Except Fault Json :=
    match t.coerce (String.ofList text) with
    | .ok v => .ok v
    | .error e => .error (.coercion e)
  match literal with
  | '\'' :: rest =>
    match takeQuoted rest with
    | some (text, []) => coerce (Text.undoubleQuotes text)
    | _ => .error .openLiteral
  | literal =>
    -- a second word would be the beginning of another clause
    if 1 < (Text.words literal).length then .error .severalClauses
    else if literal = "null".toList then .ok .null
    else coerce literal

/-- The predicate of a form, on the field's declared name. -/
def Form.predicate (e : EntityType) : Form → Except Fault Predicate
  | .call function name text => do
    let f ← fieldOf e name
    match patternOf? function (Text.undoubleQuotes text) with
    | none => .error (.unsupportedFunction (String.ofList (Text.lower function)))
    | some source =>
      match Filter.Clause.make .regex (.string (String.ofList source)) with
      | .ok clause => .ok (.field f.name clause)
      | .error e => .error (.clause e)
  | .comparison name operator literal => do
    let f ← fieldOf e name
    match comparisonOf? operator with
    | none => .error (.unsupportedOperator (String.ofList operator))
    | some c =>
      let value ← valueOf f.type literal
      .ok (.field f.name (.compare c value))

/-- The predicate of a filter text. -/
def read (e : EntityType) (text : String) : Except Fault Predicate :=
  if Text.isAllBlank text then .error .empty
  else
    match readForm? text.toList with
    | some form => form.predicate e
    | none => .error .noForm

/-- Reads the value of a `$filter` option. -/
def parse (limits : QueryLimits) (e : EntityType) (text : String) :
    Except RequestError Predicate := do
  limits.checkFilter text
  match read e text with
  | .ok p => .ok p
  | .error fault => .error (.invalidFilter text fault.reason)

end FilterOption

end ODataEngine
