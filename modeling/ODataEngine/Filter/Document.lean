import ODataEngine.Filter.Predicate

/-!
# Filter documents

The JSON form of predicates. A document maps fields to values or to objects of operators, and the
keys `$and`, `$or`, `$not` and `$nor` to further documents. An object holds a key once, so a
predicate that needs a key twice is written as one `$and` of its parts.
-/

namespace ODataEngine

open ODataEngine.Filter

namespace Predicate

/-! ## Writing -/

/-- The operator objects of a field's clauses, in order; an operator that comes again opens the
next object. -/
def operatorObjects (sofar : Record) : List Clause → List Record
  | [] => [sofar]
  | c :: rest =>
    if (sofar.get? c.operator.key).isSome then
      sofar :: operatorObjects [(c.operator.key, c.operand)] rest
    else operatorObjects (sofar ++ [(c.operator.key, c.operand)]) rest

/-- The parts of a document that the clauses of a field make. -/
def fieldParts (field : String × List Clause) : Record :=
  (operatorObjects [] field.2).map fun ops => (field.1, .object ops)

/-- No name comes twice. -/
def distinct : List String → Bool
  | [] => true
  | name :: rest => !rest.contains name && distinct rest

/-- The document of some parts: one object if their keys differ, else an `$and` of objects with one
member each. -/
def documentOf (parts : Record) : Json :=
  if distinct parts.names then .object parts
  else .object [("$and", .array (parts.map fun part => .object [part]))]

mutual

/-- The document of a predicate. -/
def document : Predicate → Json
  | mk fields groups => documentOf (fields.flatMap fieldParts ++ groupParts groups)

/-- The part of a document that a group makes. -/
def groupDocument : Group → Json
  | .and items => .array (documents items)
  | .or items => .array (documents items)
  | .not item => item.document
  | .nor items => .array (documents items)

/-- The parts of a document that the groups make. -/
def groupParts : List Group → Record
  | [] => []
  | g :: rest => (g.key, groupDocument g) :: groupParts rest

/-- The documents of some predicates. -/
def documents : List Predicate → List Json
  | [] => []
  | p :: rest => p.document :: documents rest

end

/-! ## Reading -/

/-- The key names an operator or a group, not a field. -/
def isOperatorKey (key : String) : Bool := key.toList.head? == some '$'

/-- What holds a group together. -/
inductive Connective where
  | and
  | or
  | not
  | nor
deriving DecidableEq

namespace Connective

/-- The key of a connective in a filter document. -/
def key : Connective → String
  | and => "$and"
  | or => "$or"
  | not => "$not"
  | nor => "$nor"

/-- The connective of a key. -/
def ofKey? (k : String) : Option Connective := [and, or, not, nor].find? (·.key == k)

/-- How a connective joins a list of predicates; a negation has but one and joins none. -/
def joining? : Connective → Option (List Predicate → Group)
  | and => some .and
  | or => some .or
  | not => none
  | nor => some .nor

/-- The error of a value that cannot stand under the connective. -/
def misplaced (c : Connective) (got : String) : FilterError :=
  if c = not then .documentNotObject got else .groupNotArray c.key got

end Connective

/-- Reads an object of operators. -/
def readClauses : Record → Except FilterError (List Clause)
  | [] => .ok []
  | (key, operand) :: rest =>
    match Operator.ofKey? key with
    | none => .error (.unsupportedOperator key)
    | some op =>
      match Clause.make op operand with
      | .error e => .error e
      | .ok clause =>
        match readClauses rest with
        | .error e => .error e
        | .ok clauses => .ok (clause :: clauses)

/-- Reads the value of a field: an object of operators, or a value that the field must equal. -/
def readField (value : Json) : Except FilterError (List Clause) :=
  match value with
  | .object ops =>
    -- an object with any other key is a value to equal; the empty one asks nothing
    if (Record.names ops).all isOperatorKey then readClauses ops else .ok [.compare .eq value]
  | value => .ok [.compare .eq value]

mutual

/-- Reads a filter document. -/
def ofDocument : Json → Except FilterError Predicate
  | .object members => readMembers members
  | .null => .error (.documentNotObject "null")
  | .bool _ => .error (.documentNotObject "boolean")
  | .number _ => .error (.documentNotObject "number")
  | .string _ => .error (.documentNotObject "string")
  | .array _ => .error (.documentNotObject "array")

/-- Reads the members of a document, in order. -/
def readMembers : List (String × Json) → Except FilterError Predicate
  | [] => .ok all
  | (key, value) :: rest =>
    if isOperatorKey key then
      match Connective.ofKey? key with
      | none => .error (.unsupportedOperator key)
      | some c =>
        match readGroup c value with
        | .error e => .error e
        | .ok g =>
          match readMembers rest with
          | .error e => .error e
          | .ok p => .ok (mk p.fields (g :: p.groups))
    else
      match readField value with
      | .error e => .error e
      | .ok clauses =>
        match readMembers rest with
        | .error e => .error e
        | .ok p => .ok (mk ((key, clauses) :: p.fields) p.groups)

/-- Reads what stands under the key of a connective. -/
def readGroup (c : Connective) : Json → Except FilterError Group
  | .array items =>
    match c.joining? with
    | none => .error (.documentNotObject "array")
    | some join =>
      match readDocuments items with
      | .error e => .error e
      | .ok ps => .ok (join ps)
  | .object members =>
    if c = .not then
      match readMembers members with
      | .error e => .error e
      | .ok p => .ok (.not p)
    else .error (.groupNotArray c.key "object")
  | .null => .error (c.misplaced "null")
  | .bool _ => .error (c.misplaced "boolean")
  | .number _ => .error (c.misplaced "number")
  | .string _ => .error (c.misplaced "string")

/-- Reads a list of documents, in order. -/
def readDocuments : List Json → Except FilterError (List Predicate)
  | [] => .ok []
  | doc :: rest =>
    match ofDocument doc with
    | .error e => .error e
    | .ok p =>
      match readDocuments rest with
      | .error e => .error e
      | .ok ps => .ok (p :: ps)

end

end Predicate

end ODataEngine
