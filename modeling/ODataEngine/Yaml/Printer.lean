import ODataEngine.Json.Printer
import ODataEngine.Yaml.Plain

/-!
# Printing YAML

Values as blocks: each entry of a map or list begins a line of its own, and the lines of what it
holds are indented by two. Texts of several lines keep their lines, and long texts are broken at
blanks; other texts stand on the line of their key or dash, between quotes where they must.
-/

namespace ODataEngine.Yaml

/-! ## Texts on lines of their own -/

/-- How many characters a text may have on one line. -/
def lineWidth : Nat := 80

/-- How many line feeds end a text. -/
def countLastBreaks (s : List Char) : Nat := (s.reverse.takeWhile (· == '\n')).length

/-- The lines of a text, which are parted by line feeds. -/
def splitLines : List Char → List (List Char)
  | [] => [[]]
  | c :: rest =>
    if c = '\n' then [] :: splitLines rest
    else
      match splitLines rest with
      | line :: more => (c :: line) :: more
      | [] => [[c]]

/-- The lines of a text broken at blanks, each at the last blank before it grows too wide. The line
so far is `done` with a blank and `word` behind it, as far as there was a blank. -/
def wrapFrom (done : Option (List Char)) (word : List Char) : List Char → List (List Char)
  | [] =>
    match done with
    | some line => [line ++ word]
    | none => if word.isEmpty then [] else [word]
  | c :: rest =>
    let line := done.getD []
    let full := lineWidth < line.length + word.length + 1
    if Text.isBlank c then
      if full then (line ++ word) :: wrapFrom none [] rest
      else wrapFrom (some (line ++ word)) [c] rest
    else
      match done with
      | some line =>
        if full then line :: wrapFrom none (word.drop 1 ++ [c]) rest
        else wrapFrom (some line) (word ++ [c]) rest
      | none => wrapFrom none (word ++ [c]) rest

/-- How the value of a text is written: what stands behind its key or dash, and the lines below. -/
def textLines (s : List Char) : List (List Char) :=
  if s.contains '\n' then
    let breaks := countLastBreaks s
    let body := s.take (s.length - breaks)
    if isPlainValue (body.map fun c => if c = '\n' then ' ' else c) then
      let mark := if breaks = 0 then "|-" else if breaks = 1 then "|" else "|+"
      mark.toList :: (splitLines body ++ List.replicate (breaks - 1) [])
    else [quoted s]
  else if !isPlainValue s then [quoted s]
  else if lineWidth < s.length then ">-".toList :: wrapFrom none [] s
  else [s]

/-! ## Values -/

/-- The text of a number: a point stands before an exponent. -/
def numberText (n : JsonNumber) : List Char :=
  let text := n.text
  if text.contains '.' || !text.contains 'e' then text
  else text.takeWhile (· != 'e') ++ ['.', '0'] ++ text.dropWhile (· != 'e')

/-- A value that begins on the line of its key or dash: a scalar, or an empty map or list. -/
def scalarLines? : Json → Option (List (List Char))
  | .null => some ["null".toList]
  | .bool b => some [(Json.bool b).text]
  | .number n => some [numberText n]
  | .string s => some (textLines s.toList)
  | .array [] => some ["[]".toList]
  | .object [] => some [['\x7b', '\x7d']]
  | _ => none

/-- An empty map or list. -/
def isEmptyBlock : Json → Bool
  | .array items => items.isEmpty
  | .object members => members.isEmpty
  | _ => false

/-- The lines with two blanks in front. -/
def indented (lines : List (List Char)) : List (List Char) := lines.map ([' ', ' '] ++ ·)

/-- The lines of an entry of a list: a dash before the first. -/
def dashed : List (List Char) → List (List Char)
  | [] => [['-']]
  | first :: rest => ("- ".toList ++ first) :: indented rest

/-- The lines of an entry of a map whose value begins on the line of its key. -/
def keyed (key : List Char) : List (List Char) → List (List Char)
  | [] => [key ++ [':']]
  | first :: rest => (key ++ ':' :: ' ' :: first) :: indented rest

/-- The text of a key. -/
def keyText (name : String) : List Char :=
  if isPlainKey name.toList then name.toList else quoted name.toList

mutual

/-- The lines of a value. -/
def blockLines : Json → List (List Char)
  | .array (item :: rest) => itemLines (item :: rest)
  | .object (m :: rest) => memberLines false (m :: rest)
  | v => (scalarLines? v).getD []

/-- The lines of the entries of a list. -/
def itemLines : List Json → List (List Char)
  | [] => []
  | item :: rest => dashed (blockLines item) ++ itemLines rest

/-- The lines of the entries of a map. Behind an entry whose value is a block, an empty map or list
stands below its key, as a block would. -/
def memberLines (afterBlock : Bool) : List (String × Json) → List (List Char)
  | [] => []
  | (name, value) :: rest =>
    let below := keyText name ++ [':']
    match scalarLines? value with
    | some lines =>
      let entry :=
        if afterBlock && isEmptyBlock value then below :: indented lines
        else keyed (keyText name) lines
      entry ++ memberLines false rest
    | none => below :: indented (blockLines value) ++ memberLines true rest

end

/-- The text of a value, every line with its end. -/
def render (v : Json) : String :=
  String.ofList ((blockLines v).flatMap fun line => line ++ ['\n'])

end ODataEngine.Yaml
