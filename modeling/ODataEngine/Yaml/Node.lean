import ODataEngine.Yaml.Token

/-!
# Nodes of YAML

The nodes of a document, built from its tokens: scalars, lists and maps, in brackets or as blocks,
and aliases for nodes that bear an anchor. A node may refer to itself by an alias, so what aliases
stand for is kept beside the nodes.
-/

namespace ODataEngine.Yaml

/-- A node. Tags are written out in full; an alias has the number of its anchor. -/
inductive Node where
  | alias (number : Nat)
  | scalar (tag : Option (List Char)) (text : List Char) (plain : Bool)
  | list (tag : Option (List Char)) (items : List Node)
  | map (tag : Option (List Char)) (entries : List (Node × Node))

/-- A document: its node, and what the numbers of aliases stand for. -/
structure Document where
  root : Node
  anchored : List (Nat × Node)

namespace Node

/-- A scalar that is not there. -/
def missing : Node := .scalar none [] true

mutual

/-- How many steps it takes to walk over the node: one for a leaf, two around all others. -/
def steps : Node → Nat
  | .alias _ => 1
  | .scalar _ _ _ => 1
  | .list _ items => stepsOfItems items + 2
  | .map _ entries => stepsOfEntries entries + 2

/-- The steps over the entries of a list. -/
def stepsOfItems : List Node → Nat
  | [] => 0
  | item :: rest => item.steps + stepsOfItems rest

/-- The steps over the entries of a map. -/
def stepsOfEntries : List (Node × Node) → Nat
  | [] => 0
  | (key, value) :: rest => key.steps + value.steps + stepsOfEntries rest

end

end Node

/-! ## Reading -/

/-- What is left to read and the anchors so far. Every anchored node has a place in the order in
which they begin; `begun` gives the number of each, `done` those that have ended. -/
structure Reading where
  tokens : List Token
  numbers : List (List Char × Nat) := []
  begun : List (Nat × Nat) := []
  done : List (Nat × Node) := []

/-- A step of reading, which may fail. -/
abbrev Read := StateT Reading Option

namespace Read

/-- The next token, if any. -/
def peek : Read (Option Token) := return (← get).tokens.head?

/-- Goes on to the next token. -/
def skip : Read Unit := modify fun r => { r with tokens := r.tokens.drop 1 }

/-- Goes on to the next token if it is the given one. -/
def eat? (t : Token) : Read Bool := do
  if (← peek) == some t then
    skip
    return true
  else return false

/-- The next token is one of the given ones, or there is none. -/
def atAny (ts : List Token) : Read Bool := return (← peek).all ts.contains

/-- Begins a node, which may bear an anchor. An anchor gets the number of those with other names; one
with the same name does not count any more. -/
def begin (anchor : Option (List Char)) : Read (Option Nat) :=
  match anchor with
  | none => return none
  | some name => do
    let r ← get
    let number := r.numbers.length
    let numbers := (name, number) :: r.numbers.filter fun n => n.1 ≠ name
    let place := r.begun.length
    set { r with numbers, begun := (number, place) :: r.begun }
    return some place

/-- Ends a node that may bear an anchor. -/
def finish (place : Option Nat) (node : Node) : Read Node := do
  match place with
  | none => pure ()
  | some place => modify fun r => { r with done := (place, node) :: r.done }
  return node

/-- The node that an alias stands for. -/
def aliasOf (name : List Char) : Read Node := do
  match (← get).numbers.lookup name with
  | some number => return .alias number
  | none => failure

/-- Reads an anchor, if there is one. -/
def anchor? : Read (Option (List Char)) := do
  match ← peek with
  | some (.anchor name) =>
    skip
    return some name
  | _ => return none

/-- Reads a tag, if there is one, and writes it out in full. -/
def tag? (handles : List (List Char × List Char)) : Read (Option (List Char)) := do
  match ← peek with
  | some (.tag t) =>
    skip
    if t.handle.isEmpty then return some t.suffix
    match handles.lookup t.handle with
    | some start => return some (start ++ t.suffix)
    | none => failure
  | _ => return none

/-- Reads an anchor and a tag, in either order. -/
def properties (handles : List (List Char × List Char)) :
    Read (Option (List Char) × Option (List Char)) := do
  match ← anchor? with
  | some name => return (some name, ← tag? handles)
  | none =>
    match ← tag? handles with
    | some tag => return (← anchor?, some tag)
    | none => return (none, none)

/-- The tag of a scalar; a lone exclamation mark is none. -/
def scalarTag (tag : Option (List Char)) : Option (List Char) := tag.filter (· ≠ ['!'])

/-- An anchor or a tag may stand without a node. -/
def bare (anchor tag : Option (List Char)) : Read Node := do
  if anchor.isNone && tag.isNone then failure
  finish (← begin anchor) (.scalar tag [] true)

mutual

/-- Reads a node. Blocks may begin only if `block`, and a list whose dashes stand in the column of
the key before it only if `indentless`. -/
def node (handles : List (List Char × List Char)) :
    Nat → (block indentless : Bool) → Read Node
  | 0, _, _ => failure
  | fuel + 1, block, indentless => do
    match ← peek with
    | some (.alias name) =>
      skip
      aliasOf name
    | _ =>
      let (anchor, tag) ← properties handles
      match ← peek with
      | some .dash =>
        if indentless then
          let place ← begin anchor
          finish place (.list tag (← indentlessItems handles fuel))
        else bare anchor tag
      | some (.scalar text plain) =>
        skip
        finish (← begin anchor) (.scalar (scalarTag tag) text plain)
      | some .openList =>
        skip
        let place ← begin anchor
        finish place (.list tag (← flowItems handles fuel true))
      | some .openMap =>
        skip
        let place ← begin anchor
        finish place (.map tag (← flowEntries handles fuel true))
      | some .listStart =>
        if block then
          skip
          let place ← begin anchor
          finish place (.list tag (← blockItems handles fuel))
        else bare anchor tag
      | some .mapStart =>
        if block then
          skip
          let place ← begin anchor
          finish place (.map tag (← blockEntries handles fuel))
        else bare anchor tag
      | _ => bare anchor tag

/-- Reads a node unless one of the given tokens follows, which shows that it is missing. -/
def nodeUnless (handles : List (List Char × List Char)) :
    Nat → (ends : List Token) → (block indentless : Bool) → Read Node
  | 0, _, _, _ => failure
  | fuel + 1, ends, block, indentless => do
    match ← peek with
    | some t => if ends.contains t then return .missing else node handles fuel block indentless
    | none => node handles fuel block indentless

/-- Reads the entries of a list that is a block, and its end. -/
def blockItems (handles : List (List Char × List Char)) : Nat → Read (List Node)
  | 0 => failure
  | fuel + 1 => do
    if ← eat? .dash then
      let item ← nodeUnless handles fuel [.dash, .blockEnd] true false
      return item :: (← blockItems handles fuel)
    else if ← eat? .blockEnd then return []
    else failure

/-- Reads the entries of a list in the column of its key; whatever is no entry ends it. -/
def indentlessItems (handles : List (List Char × List Char)) : Nat → Read (List Node)
  | 0 => failure
  | fuel + 1 => do
    if ← eat? .dash then
      let item ← nodeUnless handles fuel [.dash, .key, .colon, .blockEnd] true false
      return item :: (← indentlessItems handles fuel)
    else return []

/-- Reads the entries of a map that is a block, and its end. -/
def blockEntries (handles : List (List Char × List Char)) : Nat → Read (List (Node × Node))
  | 0 => failure
  | fuel + 1 => do
    if ← eat? .key then
      let ends : List Token := [.key, .colon, .blockEnd]
      let key ← nodeUnless handles fuel ends true true
      let value ← if ← eat? .colon then nodeUnless handles fuel ends true true else pure .missing
      return (key, value) :: (← blockEntries handles fuel)
    else if ← eat? .blockEnd then return []
    else failure

/-- Reads the entries of a list in brackets, and its end. Between two entries stands a comma. -/
def flowItems (handles : List (List Char × List Char)) :
    Nat → (first : Bool) → Read (List Node)
  | 0, _ => failure
  | fuel + 1, first => do
    if ← eat? .closeList then return []
    if !first then
      if !(← eat? .comma) then failure
    if ← eat? .key then
      let item ← pair handles fuel
      return item :: (← flowItems handles fuel false)
    else if ← eat? .closeList then return []
    else
      let item ← node handles fuel false false
      return item :: (← flowItems handles fuel false)

/-- Reads a map of one entry that stands in a list in brackets, after the mark of its key. -/
def pair (handles : List (List Char × List Char)) : Nat → Read Node
  | 0 => failure
  | fuel + 1 => do
    let key ←
      if ← atAny [.colon, .comma, .closeList] then
        -- what stands in place of the key is lost
        skip
        pure .missing
      else node handles fuel false false
    let value ←
      if ← eat? .colon then nodeUnless handles fuel [.comma, .closeList] false false
      else pure .missing
    return .map none [(key, value)]

/-- Reads the entries of a map in brackets, and its end. Between two entries stands a comma. -/
def flowEntries (handles : List (List Char × List Char)) :
    Nat → (first : Bool) → Read (List (Node × Node))
  | 0, _ => failure
  | fuel + 1, first => do
    if ← eat? .closeMap then return []
    if !first then
      if !(← eat? .comma) then failure
    if ← eat? .key then
      let ends : List Token := [.comma, .closeMap]
      let key ← nodeUnless handles fuel (.colon :: ends) false false
      let value ← if ← eat? .colon then nodeUnless handles fuel ends false false else pure .missing
      return (key, value) :: (← flowEntries handles fuel false)
    else if ← eat? .closeMap then return []
    else
      let key ← node handles fuel false false
      return (key, .missing) :: (← flowEntries handles fuel false)

end

/-! ## Documents -/

/-- The tag handles that need no directive. -/
def usualHandles : List (List Char × List Char) :=
  [(['!'], ['!']), ("!!".toList, "tag:yaml.org,2002:".toList)]

/-- Reads the directives in front of a document: whether they give a version, which may be given
once, and the handles that they declare, each once. -/
def directives :
    Nat → (versioned : Bool) → List (List Char × List Char) → Read (List (List Char × List Char))
  | 0, _, _ => failure
  | fuel + 1, versioned, handles => do
    match ← peek with
    | some (.directive (.version major minor)) =>
      skip
      if versioned || major ≠ 1 || !(minor == 1 || minor == 2) then failure
      directives fuel true handles
    | some (.directive (.handle name start)) =>
      skip
      if (handles.lookup name).isSome then failure
      directives fuel versioned ((name, start) :: handles)
    | _ => return handles ++ usualHandles

/-- Reads the node of a document. -/
def content (fuel : Nat) : Read Node := do
  match ← peek with
  | some (.directive _) | some .documentStart =>
    let handles ← directives fuel false []
    if !(← eat? .documentStart) then failure
    match ← peek with
    | none | some (.directive _) | some .documentStart | some .documentEnd => return .missing
    | _ => node handles fuel true false
  | _ => node usualHandles fuel true false

/-- Reads the marks that may end a document, after which nothing may follow. -/
def ending : Read Unit :=
  modify fun r => { r with tokens := r.tokens.dropWhile (· == .documentEnd) }

end Read

/-- The document that some tokens make, none if there are no tokens; the outer option fails on tokens
that make no document, or more than one. -/
def Document.ofTokens? (tokens : List Token) : Option (Option Document) := do
  if tokens.isEmpty then return none
  let (root, r) ← (do
    let root ← Read.content (4 * tokens.length + 4)
    Read.ending
    return root).run { tokens }
  if !r.tokens.isEmpty then none
  let anchored := r.begun.filterMap fun (number, place) =>
    (r.done.lookup place).map fun node => (number, node)
  return some { root, anchored }

end ODataEngine.Yaml
