import ODataEngine.Yaml.Node
import ODataEngine.Yaml.Scalar

/-!
# Documents of YAML

The value of a document. Plain scalars are read by their form, others are texts, and the common tags
override that; a tag of a document's own makes no value. Nodes nest to a limited depth, and aliases
are followed a limited number of times, so that small texts make no huge values.
-/

namespace ODataEngine.Yaml

/-- How deep lists and maps may nest. -/
def depthLimit : Nat := 128

/-- How many aliases may be followed for each step over the nodes of a document. -/
def aliasLimit : Nat := 100

/-- A common tag. -/
def commonTag (name : String) : List Char := "tag:yaml.org,2002:".toList ++ name.toList

/-- The tag is one of a document's own. -/
def isOwnTag (tag : Option (List Char)) : Bool := tag.any (·.head? == some '!')

/-- The value of a scalar. -/
def scalarValue? (tag : Option (List Char)) (s : List Char) (plain : Bool) : Option Setting :=
  let text := String.ofList s
  match tag with
  | none => some (if plain then plainValue s else .text text)
  | some tag =>
    if isOwnTag (some tag) then none
    else if tag = commonTag "bool" then (truth? text).map .bool
    else if tag = commonTag "int" then (integer? s).map .integer
    else if tag = commonTag "float" then number? s
    else if tag = commonTag "null" then if nullWords.contains text then some .null else none
    else some (.text text)

namespace Document

/-- How many aliases may be followed in the document. -/
def allowance (d : Document) : Nat := d.root.steps * aliasLimit

/-- A step of reading values, with the number of aliases that may still be followed. -/
abbrev Read := StateT Nat Option

/-- The node that a node stands for: an alias stands for another node. -/
def resolve (d : Document) : Node → Read Node
  | .alias number => do
    let left ← get
    if left = 0 then failure
    set (left - 1)
    match d.anchored.lookup number with
    | some node => return node
    | none => failure
  | node => return node

/-- The text of a key: a scalar, whatever its form. -/
def keyText (d : Document) (node : Node) : Read String := do
  match ← d.resolve node with
  | .scalar _ text _ => return String.ofList text
  | _ => failure

/-- The members of a map, in which a key that comes again replaces the former one. -/
def merge (members : List (String × Setting)) : List (String × Setting) :=
  members.foldl (fun r (name, value) => Setting.insert r name value) []

/-- The members of the entries of a map, whose values `read` reads. -/
def members (d : Document) (read : Node → Read Setting) (entries : List (Node × Node)) :
    Read (List (String × Setting)) :=
  merge <$> entries.mapM fun (key, value) => return (← d.keyText key, ← read value)

/-- The value of a node, whose lists and maps nest to the given depth. -/
def value (d : Document) : Nat → Node → Read Setting
  | 0, node => do
    match ← d.resolve node with
    | .scalar tag text plain => (scalarValue? tag text plain).elim failure pure
    | _ => failure
  | depth + 1, node => do
    match ← d.resolve node with
    | .scalar tag text plain => (scalarValue? tag text plain).elim failure pure
    | .list tag items =>
      if isOwnTag tag then failure
      return .list (← items.mapM (d.value depth))
    | .map tag entries =>
      if isOwnTag tag then failure
      return .map (← d.members (d.value depth) entries)
    | .alias _ => failure

/-- The members of the map that a document holds; a plain scalar without text is an empty map. -/
def settings? (d : Document) : Option (List (String × Setting)) :=
  let read : Read (List (String × Setting)) := do
    match ← d.resolve d.root with
    | .map _ entries => d.members (d.value (depthLimit - 1)) entries
    | .scalar _ [] true => return []
    | _ => failure
  read.run' d.allowance

end Document

/-- The settings in a text; a text without any token has none. -/
def settings? (text : String) : Option (List (String × Setting)) := do
  let tokens ← tokens? text.toList
  match ← Document.ofTokens? tokens with
  | some d => d.settings?
  | none => return []

end ODataEngine.Yaml
